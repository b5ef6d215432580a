import FlowAtlas.Journal.Account
import FlowAtlas.Proofs.Chain.Dispatches
import FlowAtlas.Proofs.Chain.Justified
import FlowAtlas.Proofs.Inventory.Unresolved
/-! What a walk skips. A name that leads nowhere is cited by the key it is skipped from, in a field that the report of
unresolved references covers; only a converter without an integration event can go unreported. -/
namespace FlowAtlas

namespace Trail

theorem skippedConnect (edge : Edge) (t : Trail) : (t.connect edge).skipped = t.skipped := by
  unfold connect
  split <;> rfl

theorem skippedRevisit (t : Trigger) (trail : Trail) : (trail.revisit t).skipped = trail.skipped := by
  unfold revisit
  split
  · exact skippedConnect t.edge trail
  · rfl

theorem skippedEnter (t : Trigger) (trail : Trail) : (trail.enter t).skipped = trail.skipped := by
  rw [enter, skippedConnect, visit]
  split <;> rfl

end Trail

/- What every trigger at the start has, and hands on to the triggers it sets off, the skipped ones have too. -/
theorem runSkips {keys : List Key} {ix : Index} {agenda entered : List Trigger} {trail last : Trail} {P : Trigger → Prop}
    (run : Run keys ix agenda trail entered last) (step : ∀ t, P t → ∀ u ∈ t.next ix, P u) (start : ∀ t ∈ agenda, P t) :
    ∀ s ∈ last.skipped,
      s ∈ trail.skipped ∨ ∃ t, P t ∧ t.target ∉ keys ∧ s = ⟨t.target.typeName, t.source⟩ := by
  induction run with
  | done trail => exact fun s mem => Or.inl mem
  | @again t rest trail entered last visited next ih =>
    have later := (List.forall_mem_cons.mp start).2
    rw [Trail.skippedRevisit] at ih
    exact ih later
  | @enter t rest trail entered last fresh known next ih =>
    obtain ⟨here, later⟩ := List.forall_mem_cons.mp start
    rw [Trail.skippedEnter] at ih
    exact ih (List.forall_mem_append.mpr ⟨step t here, later⟩)
  | @skip t rest trail entered last fresh unknown next ih =>
    obtain ⟨here, later⟩ := List.forall_mem_cons.mp start
    intro s mem
    rcases ih later s mem with old | new
    · rcases List.mem_append.mp old with old | last
      · exact Or.inl old
      · exact Or.inr ⟨t, here, unknown, List.mem_singleton.mp last⟩
    · exact Or.inr new

section

variable {keys : List Key} {ix : Index} {agenda entered : List Trigger} {trail last : Trail}

theorem runKeepsSkips (run : Run keys ix agenda trail entered last) : trail.skipped ⊆ last.skipped := by
  induction run with
  | done trail => exact List.Subset.refl _
  | @again t rest trail entered last visited next ih => rwa [Trail.skippedRevisit] at ih
  | @enter t rest trail entered last fresh known next ih => rwa [Trail.skippedEnter] at ih
  | @skip t rest trail entered last fresh unknown next ih => exact List.Subset.trans (List.subset_append_left _ _) ih

def Trigger.Accounted (t : Trigger) (trail : Trail) : Prop :=
  t.target ∈ trail.nodes ∨ ⟨t.target.typeName, t.source⟩ ∈ trail.skipped

/- The other way round: what comes up is visited by the end, or it has been noted. -/
theorem runAccounts (run : Run keys ix agenda trail entered last) :
    (∀ t ∈ agenda, t.Accounted last) ∧ ∀ d ∈ entered, ∀ t ∈ d.next ix, t.Accounted last := by
  induction run with
  | done trail => simp
  | @again t rest trail entered last visited next ih =>
    have here : t.target ∈ last.nodes := by
      rw [runNodes next, Trail.nodesRevisit]
      exact List.mem_append_left _ visited
    exact ⟨List.forall_mem_cons.mpr ⟨Or.inl here, ih.1⟩, ih.2⟩
  | @enter t rest trail entered last fresh known next ih =>
    obtain ⟨pending, settled⟩ := ih
    obtain ⟨inside, outside⟩ := List.forall_mem_append.mp pending
    have here : t.target ∈ last.nodes := by
      rw [runNodes next, Trail.nodesEnter fresh]
      simp
    exact ⟨List.forall_mem_cons.mpr ⟨Or.inl here, outside⟩, List.forall_mem_cons.mpr ⟨inside, settled⟩⟩
  | @skip t rest trail entered last fresh unknown next ih =>
    have noted : ⟨t.target.typeName, t.source⟩ ∈ last.skipped :=
      runKeepsSkips next (List.mem_append_right _ (List.mem_singleton.mpr rfl))
    exact ⟨List.forall_mem_cons.mpr ⟨Or.inr noted, ih.1⟩, ih.2⟩

end

inductive Cites (inv : Inventory) : Key → String → Prop
  | target {r method} (listed : r ∈ inv.relationships) : Cites inv ⟨r.sourceType, method⟩ r.targetType
  | command {h c method} (listed : h ∈ inv.handlers) (sends : c ∈ h.commands) : Cites inv ⟨h.fullName, method⟩ c
  | event {v} (listed : v ∈ inv.integrationEventConverters) : Cites inv ⟨v.fullName, ""⟩ v.integrationEventType

structure Dangling (inv : Inventory) (source : Key) (name : String) : Prop where
  cited : Cites inv source name
  unknown : inv.index.isKnown name = false

structure Traced (inv : Inventory) (t : Trigger) : Prop where
  reached : ReachedAs inv t.target t.role
  target : t.target ∈ inv.keys ∨ Dangling inv t.source t.target.typeName

section

variable {inv : Inventory} {source root : Key} {name : String}

theorem citedType (cited : Cites inv source name) : (⟨name, ""⟩ : Key) ∈ inv.keys ∨ Dangling inv source name := by
  cases known : inv.index.isKnown name with
  | true => exact Or.inl (Inventory.typeListed known)
  | false => exact Or.inr ⟨cited, known⟩

theorem justifiedTarget {x : Edge} (justified : Justified inv root x) :
    x.target ∈ inv.keys ∨ Dangling inv x.source x.target.typeName := by
  cases justified with
  | @sentByMethod r listed kind source within =>
    obtain ⟨type, method⟩ := root
    obtain rfl : r.sourceType = type := source
    exact citedType (.target listed)
  | @sentByRoot commands command handler listed =>
    obtain ⟨type, method⟩ := root
    rw [Inventory.handlerCommandsScan, Option.map_eq_some_iff] at handler
    obtain ⟨h, found, rfl⟩ := handler
    obtain rfl : h.fullName = type := by simpa using List.find?_some found
    exact citedType (.command (List.mem_of_find?_eq_some found) listed)
  | sentByHandler listed sends => exact citedType (.command listed sends)
  | @executes r listed kind =>
    cases known : inv.index.isKnown r.targetType with
    | true => exact Or.inl (Inventory.methodListed listed kind known)
    | false => exact Or.inr ⟨.target listed, known⟩
  | publishes listed kind => exact citedType (.target listed)
  | handles listed => exact Or.inl (Inventory.typeListed (Inventory.handlerKnown listed))
  | converts listed => exact Or.inl (Inventory.typeListed (Inventory.converterKnown listed))
  | becomes listed => exact citedType (.event listed)

theorem nextTraced (t : Trigger) (traced : Traced inv t) : ∀ u ∈ t.next inv.index, Traced inv u := by
  intro u next
  obtain ⟨reached, justified⟩ := @nextJustified inv t.source t u traced.reached next
  exact ⟨reached, justifiedTarget justified⟩

theorem walkSkips {first : List Trigger} (traced : ∀ t ∈ first, Traced inv t) :
    ∀ s ∈ (walk inv.keys inv.index first (.start root)).skipped, Dangling inv s.referrer s.name := by
  obtain ⟨entered, run⟩ := walkRun inv.keys inv.index first (.start root)
  intro s mem
  rcases runSkips run nextTraced traced s mem with old | ⟨t, traced, unlisted, rfl⟩
  · cases old
  · exact traced.target.resolve_left unlisted

theorem chainFromSkips (inv : Inventory) (root : Key) :
    ∀ s ∈ (inv.chainFrom root).skipped, Dangling inv s.referrer s.name := by
  refine walkSkips fun t offered => ?_
  obtain ⟨reached, justified⟩ := firstJustified offered
  exact ⟨reached, justifiedTarget justified⟩

theorem dispatchCites {d : Dispatch} (mem : d ∈ inv.dispatches) : Cites inv d.root d.command := by
  have pair : d.pair ∈ inv.commandPairs := inv.dispatchPairs ▸ List.mem_map_of_mem mem
  obtain ⟨⟨sender, method⟩, command, label⟩ := d
  rcases inv.memCommandPairs.mp pair with sent | handled
  · obtain ⟨r, listed, _, same⟩ := inv.memSentPairs.mp sent
    cases same
    exact .target listed
  · obtain ⟨h, listed, c, sends, same⟩ := inv.memHandledPairs.mp handled
    cases same
    exact .command (List.mem_append_right _ listed) sends

theorem chainOfSkips {d : Dispatch} (mem : d ∈ inv.dispatches) :
    ∀ s ∈ (inv.chainOf d).skipped, Dangling inv s.referrer s.name := by
  have cited := citedType (dispatchCites mem)
  unfold Inventory.chainOf
  by_cases listed : (⟨d.command, ""⟩ : Key) ∈ inv.keys
  · simp only [if_pos listed]
    refine walkSkips fun t offered => ?_
    obtain rfl := List.mem_singleton.mp offered
    exact ⟨rfl, Or.inl listed⟩
  · simp only [if_neg listed]
    intro s skipped
    obtain rfl := List.mem_singleton.mp skipped
    exact cited.resolve_left listed

/- Every trigger that comes up as the chain unfolds is followed or skipped. -/
def NotesSkips (inv : Inventory) (root : Key) (first : List Trigger) (c : TracedChain) : Prop :=
  ∃ entered, Unfolds inv root first entered c.toChain ∧
    ∀ t, Offered inv.index first entered t → t.target ∉ c.nodes → ⟨t.target.typeName, t.source⟩ ∈ c.skipped

theorem walkNotes (inv : Inventory) (name : String) {root : Key} {first : List Trigger}
    (rooted : ∀ t ∈ first, t = ⟨root, t.target, .command, false⟩) :
    NotesSkips inv root first ((walk inv.keys inv.index first (.start root)).toChain name root) := by
  obtain ⟨entered, run⟩ := walkRun inv.keys inv.index first (.start root)
  obtain ⟨pending, settled⟩ := runAccounts run
  refine ⟨entered, runUnfolds name run rooted, ?_⟩
  rintro t (offered | ⟨d, entry, offered⟩) unvisited
  · exact (pending t offered).resolve_left unvisited
  · exact (settled d entry t offered).resolve_left unvisited

theorem chainOfNotes (inv : Inventory) (d : Dispatch) : NotesSkips inv d.root [d.trigger] (inv.chainOf d) := by
  by_cases listed : (⟨d.command, ""⟩ : Key) ∈ inv.keys
  · have walked : inv.chainOf d =
        (walk inv.keys inv.index [d.trigger] (.start d.root)).toChain d.name d.root := by
      simp only [Inventory.chainOf, if_pos listed]
      rfl
    rw [walked]
    exact walkNotes inv d.name fun t offered => by rw [List.mem_singleton.mp offered]; rfl
  · have noted : inv.chainOf d = ((Trail.start d.root).skip ⟨d.command, d.root⟩).toChain d.name d.root := by
      simp only [Inventory.chainOf, if_neg listed]
    obtain ⟨entered, u⟩ := chainOfUnfolds inv d
    have none : entered = [] := by simpa [noted, Trail.toChain, Trail.start, Trail.skip] using u.nodes
    subst none
    refine ⟨[], u, ?_⟩
    rintro t (offered | ⟨d, entry, _⟩) _
    · rw [List.mem_singleton.mp offered, noted]
      exact List.mem_singleton.mpr rfl
    · cases entry

end

/-- An entry of the report names what was skipped, or a converter that has no integration event was the end. -/
inductive Explained (inv : Inventory) (s : Skip) : Prop
  | reported {u} (listed : u ∈ inv.unresolvedReferences) (named : u.name = s.name)
      (field : u.field = .targetType ∨ u.field = .commands ∨ u.field = .integrationEventType)
  | withoutEvent {v} (listed : v ∈ inv.integrationEventConverters) (none : v.integrationEventType = "")
      (skipped : s = ⟨"", ⟨v.fullName, ""⟩⟩)

theorem danglingExplained {inv : Inventory} {s : Skip} (dangling : Dangling inv s.referrer s.name) :
    Explained inv s := by
  obtain ⟨name, referrer⟩ := s
  obtain ⟨cited, unknown⟩ := dangling
  cases cited with
  | target listed => exact .reported (Inventory.unresolvedIff.mpr ⟨.target listed, unknown⟩) rfl (Or.inl rfl)
  | command listed sends =>
    exact .reported (Inventory.unresolvedIff.mpr ⟨.command listed sends, unknown⟩) rfl (Or.inr (Or.inl rfl))
  | @event v listed =>
    by_cases none : v.integrationEventType = ""
    · exact .withoutEvent listed none (congrArg (Skip.mk · ⟨v.fullName, ""⟩) none)
    · exact .reported (Inventory.unresolvedIff.mpr ⟨.integrationEvent listed none, unknown⟩) rfl (Or.inr (Or.inr rfl))

namespace Account

variable {inv : Inventory} {s : Skip}

theorem skippedInChain {c : TracedChain} : .noticed (.skipped s) ∈ ofChain c ↔ s ∈ c.skipped := by
  simp [ofChain, ofSkips]

theorem skippedInChains : .noticed (.skipped s) ∈ ofChains inv ↔ ∃ root ∈ inv.roots, s ∈ (inv.chainFrom root).skipped := by
  simp [ofChains, ofRoots, Inventory.chains, skippedInChain]

theorem skippedInCommandChains :
    .noticed (.skipped s) ∈ ofCommandChains inv ↔ ∃ d ∈ inv.dispatches, s ∈ (inv.chainOf d).skipped := by
  simp [ofCommandChains, ofSkips, Inventory.commandChains]

end Account

structure SkipsReported (inv : Inventory) : Prop where
  extracted : ∀ s, .noticed (.skipped s) ∈ Account.ofChains inv → Explained inv s
  dispatched : ∀ s, .noticed (.skipped s) ∈ Account.ofCommandChains inv → Explained inv s
  built : ∀ root s, .noticed (.skipped s) ∈ Account.ofChain (inv.chainFrom root) → Explained inv s
  unknown : ∀ u ∈ inv.unresolvedReferences, inv.index.isKnown u.name = false
  noted : (∀ root, NotesSkips inv root (Inventory.rootTriggers inv.index root) (inv.chainFrom root)) ∧
    ∀ d ∈ inv.dispatches, NotesSkips inv d.root [d.trigger] (inv.chainOf d)
  complete : inv.unresolvedReferences = [] → ∀ c, c ∈ inv.chains ∨ c ∈ inv.commandChains ∨ (∃ root, c = inv.chainFrom root) →
    ∀ s ∈ c.skipped, ∃ v ∈ inv.integrationEventConverters, v.integrationEventType = "" ∧ s = ⟨"", ⟨v.fullName, ""⟩⟩

theorem chainSkipsReported (inv : Inventory) : SkipsReported inv := by
  have fromRoot (root : Key) (s : Skip) (mem : s ∈ (inv.chainFrom root).skipped) : Explained inv s :=
    danglingExplained (chainFromSkips inv root s mem)
  have ofDispatch (d : Dispatch) (listed : d ∈ inv.dispatches) (s : Skip) (mem : s ∈ (inv.chainOf d).skipped) :
      Explained inv s := danglingExplained (chainOfSkips listed s mem)
  constructor
  case extracted =>
    intro s mem
    obtain ⟨root, _, skipped⟩ := Account.skippedInChains.mp mem
    exact fromRoot root s skipped
  case dispatched =>
    intro s mem
    obtain ⟨d, listed, skipped⟩ := Account.skippedInCommandChains.mp mem
    exact ofDispatch d listed s skipped
  case built => exact fun root s mem => fromRoot root s (Account.skippedInChain.mp mem)
  case unknown => exact fun u mem => (Inventory.unresolvedIff.mp mem).2
  case noted => exact ⟨fun root => walkNotes inv root.simpleName rootTriggersRooted, fun d _ => chainOfNotes inv d⟩
  case complete =>
    intro none c made s skipped
    have explained : Explained inv s := by
      rcases made with extracted | dispatched | ⟨root, rfl⟩
      · obtain ⟨root, _, rfl⟩ := List.mem_map.mp extracted
        exact fromRoot root s skipped
      · obtain ⟨d, listed, rfl⟩ := List.mem_map.mp dispatched
        exact ofDispatch d listed s skipped
      · exact fromRoot root s skipped
    cases explained with
    | reported listed named field =>
      rw [none] at listed
      cases listed
    | withoutEvent listed none skipped => exact ⟨_, listed, none, skipped⟩

def lostInventory : Inventory where
  controllers := [⟨⟨"Shop", "Shop"⟩, []⟩]
  commands := [⟨"Order", "Order"⟩]
  relationships :=
    [⟨"Shop", "Post", "Order", "", "MethodToCommand"⟩, ⟨"Shop", "Post", "Return", "", "MethodToCommand"⟩,
      ⟨"Order", "", "Cart", "place", "CommandToAggregateMethod"⟩]

theorem lostCartSkipped :
    (lostInventory.chainFrom ⟨"Shop", "Post"⟩).skipped =
        [⟨"Cart", ⟨"Order", ""⟩⟩, ⟨"Return", ⟨"Shop", "Post"⟩⟩] ∧
      Explained lostInventory ⟨"Cart", ⟨"Order", ""⟩⟩ := by
  have skipped : (lostInventory.chainFrom ⟨"Shop", "Post"⟩).skipped =
      [⟨"Cart", ⟨"Order", ""⟩⟩, ⟨"Return", ⟨"Shop", "Post"⟩⟩] := by cbv
  have cart : (⟨"Cart", ⟨"Order", ""⟩⟩ : Skip) ∈ (lostInventory.chainFrom ⟨"Shop", "Post"⟩).skipped := by
    rw [skipped]
    exact List.mem_cons_self
  exact ⟨skipped, (chainSkipsReported lostInventory).built ⟨"Shop", "Post"⟩ _ (Account.skippedInChain.mpr cart)⟩

end FlowAtlas
