import FlowAtlas.Inventory.Merge
import FlowAtlas.Proofs.Chain.Unfolding
/-! Repeated relationships. A repeat comes up when the trigger it makes has been settled, so it visits and
draws nothing; roots and dispatches are selections, which no repeat enters. Chains are the same without the
repeats, and so they are after a merge. -/
namespace FlowAtlas

open Selection (Thinned)

section

variable {keys : List Key} {t u : Trigger} {trail : Trail}

theorem revisitKeepsSettled (settled : Settled keys u trail) (t : Trigger) : Settled keys u (trail.revisit t) := by
  constructor
  case visited => simpa using settled.visited
  case closed =>
    intro reached closes
    rw [Trail.nodesRevisit] at reached
    exact (Trail.edgesRevisit t trail).subset (settled.closed reached closes)

theorem enterKeepsSettled (settled : Settled keys u trail) (fresh : t.target ∉ trail.nodes)
    (known : t.target ∈ keys) : Settled keys u (trail.enter t) := by
  constructor
  case visited =>
    intro listed
    rw [Trail.nodesEnter fresh]
    exact List.mem_append_left _ (settled.visited listed)
  case closed =>
    intro reached closes
    apply (Trail.edgesEnter t trail).subset
    rw [Trail.nodesEnter fresh, List.mem_append, List.mem_singleton] at reached
    rcases reached with old | same
    · exact settled.closed old closes
    · exact settled.closed (settled.visited (same ▸ known)) closes

theorem skipKeepsSettled (settled : Settled keys u trail) (s : Skip) : Settled keys u (trail.skip s) :=
  ⟨settled.visited, settled.closed⟩

theorem revisitSettles (visited : t.target ∈ trail.nodes) : Settled keys t (trail.revisit t) := by
  constructor
  case visited => simp [visited]
  case closed => exact fun _ closes => Trail.memRevisit.mpr (Or.inr ⟨closes, rfl⟩)

theorem enterSettles (fresh : t.target ∉ trail.nodes) : Settled keys t (trail.enter t) := by
  constructor
  case visited => simp [Trail.nodesEnter fresh]
  case closed => exact fun _ _ => Trail.memEnter.mpr (Or.inr rfl)

theorem skipSettles (fresh : t.target ∉ trail.nodes) (unknown : t.target ∉ keys) (s : Skip) :
    Settled keys t (trail.skip s) :=
  ⟨fun known => absurd known unknown, fun reached => absurd reached fresh⟩

theorem settledIdle (settled : Settled keys t trail) (visited : t.target ∈ trail.nodes) :
    trail.revisit t = trail := by
  unfold Trail.revisit
  split
  · rename_i closes
    rw [Trail.connect, if_pos (settled.closed visited closes)]
  · rfl

end

structure Trail.Agrees (a b : Trail) : Prop where
  nodes : a.nodes = b.nodes
  edges : a.edges = b.edges

namespace Trail.Agrees

variable {a b : Trail}

theorem connect (agrees : a.Agrees b) (edge : Edge) : (a.connect edge).Agrees (b.connect edge) := by
  unfold Trail.connect
  rw [agrees.edges]
  split
  · exact agrees
  · exact ⟨agrees.nodes, rfl⟩

theorem revisit (agrees : a.Agrees b) (t : Trigger) : (a.revisit t).Agrees (b.revisit t) := by
  unfold Trail.revisit
  split
  · exact agrees.connect t.edge
  · exact agrees

theorem enter (agrees : a.Agrees b) (t : Trigger) : (a.enter t).Agrees (b.enter t) := by
  have visit : (a.visit t.target).Agrees (b.visit t.target) := by
    unfold Trail.visit
    rw [agrees.nodes]
    split
    · exact agrees
    · exact ⟨rfl, agrees.edges⟩
  exact visit.connect t.edge

theorem skip (agrees : a.Agrees b) (s r : Skip) : (a.skip s).Agrees (b.skip r) := ⟨agrees.nodes, agrees.edges⟩

theorem skipLeft (agrees : a.Agrees b) (s : Skip) : (a.skip s).Agrees b := ⟨agrees.nodes, agrees.edges⟩

theorem toChain (agrees : a.Agrees b) (name : String) (root : Key) :
    (a.toChain name root).toChain = (b.toChain name root).toChain := by
  simp [Trail.toChain, agrees.nodes, agrees.edges]

end Trail.Agrees

/- The invariant: what is missing from the second agenda has been settled in the first walk, or will have
been when its turn comes. -/
theorem walkThinned {keys known : List Key} {ix other : Index} (listed : ∀ key, key ∈ keys ↔ key ∈ known)
    (steps : ∀ t : Trigger, Thinned [] (t.next ix) (t.next other)) {agenda short met : List Trigger}
    {trail twin : Trail} (settled : ∀ u ∈ met, Settled keys u trail) (thin : Thinned met agenda short)
    (agrees : trail.Agrees twin) : (walk keys ix agenda trail).Agrees (walk known other short twin) := by
  fun_induction walk keys ix agenda trail generalizing short met twin with
  | case1 trail =>
    cases thin
    rw [walk]
    exact agrees
  | case2 t rest trail visited ih =>
    cases thin with
    | keep next =>
      rw [walk, dif_pos (agrees.nodes ▸ visited)]
      apply ih _ next (agrees.revisit t)
      exact List.forall_mem_cons.mpr
        ⟨revisitSettles visited, fun u mem => revisitKeepsSettled (settled u mem) t⟩
    | drop old next =>
      have idle := settledIdle (settled t old) visited
      rw [idle] at ih ⊢
      exact ih settled next agrees
  | case3 t rest trail fresh reachable ih =>
    cases thin with
    | keep next =>
      rw [walk, dif_neg (agrees.nodes ▸ fresh), dif_pos ((listed t.target).mp reachable)]
      apply ih _ (((steps t).widen (List.nil_subset _)).append next) (agrees.enter t)
      exact List.forall_mem_cons.mpr
        ⟨enterSettles fresh, fun u mem => enterKeepsSettled (settled u mem) fresh reachable⟩
    | drop old next => exact absurd ((settled t old).visited reachable) fresh
  | case4 t rest trail fresh unknown ih =>
    cases thin with
    | keep next =>
      rw [walk, dif_neg (agrees.nodes ▸ fresh), dif_neg (fun found => unknown ((listed t.target).mpr found))]
      apply ih _ next (agrees.skip _ _)
      exact List.forall_mem_cons.mpr
        ⟨skipSettles fresh unknown _, fun u mem => skipKeepsSettled (settled u mem) _⟩
    | drop old next => exact ih (fun u mem => skipKeepsSettled (settled u mem) _) next (agrees.skipLeft _)

namespace Inventory

def relinked (inv : Inventory) (relationships : List Relationship) : Inventory :=
  { inv with relationships := relationships }

def withoutRepeats (inv : Inventory) : Inventory := inv.relinked inv.relationships.eraseDups

section

variable {inv : Inventory} {short : List Relationship}

theorem outgoingThinned (thin : Thinned [] inv.relationships short) (kind : CallKind) (source : String) :
    Thinned [] (inv.index.outgoingOf kind source) ((inv.relinked short).index.outgoingOf kind source) := by
  unfold Index.outgoingOf
  rw [outgoingScan, outgoingScan]
  exact (thin.filter _).filter _

theorem nextThinned (thin : Thinned [] inv.relationships short) (t : Trigger) :
    Thinned [] (t.next inv.index) (t.next (inv.relinked short).index) := by
  obtain ⟨source, key, role, closes⟩ := t
  cases role with
  | command => exact (outgoingThinned thin _ _).map _
  | aggregateMethod => exact ((outgoingThinned thin _ _).filter _).map _
  | domainEvent => exact .refl [] _
  | integrationEvent => exact .refl [] _
  | handler commands => exact .refl [] _
  | converter event => exact .refl [] _

theorem rootTriggersThinned (thin : Thinned [] inv.relationships short) (root : Key) :
    Thinned [] (rootTriggers inv.index root) (rootTriggers (inv.relinked short).index root) :=
  ((((outgoingThinned thin _ _).filter _).map _).append (.refl [] _)).map _

theorem keysThinned (thin : Thinned [] inv.relationships short) (key : Key) :
    key ∈ inv.keys ↔ key ∈ (inv.relinked short).keys := by
  have methods := ((thin.filter (·.isOf .commandToAggregateMethod)).map (·.target)).filter
    fun key => inv.index.isKnown key.typeName
  have all := (Thinned.refl [] (inv.elements.map fun e => (⟨e.fullName, ""⟩ : Key))).append methods
  exact all.memIff

theorem chainFromThinned (thin : Thinned [] inv.relationships short) (root : Key) :
    ((inv.relinked short).chainFrom root).toChain = (inv.chainFrom root).toChain := by
  have settled : ∀ u ∈ ([] : List Trigger), Settled inv.keys u (.start root) := by simp
  have agrees := walkThinned (keysThinned thin) (nextThinned thin) settled (rootTriggersThinned thin root)
    ⟨rfl, rfl⟩
  exact (agrees.toChain root.simpleName root).symm

theorem triggeredThinned (thin : Thinned [] inv.relationships short) (key : Key) :
    key ∈ inv.triggered ↔ key ∈ (inv.relinked short).triggered := by
  simp only [triggered, List.mem_filterMap, relinked, thin.memIff]

theorem idleHandlersThinned (thin : Thinned [] inv.relationships short) :
    (inv.relinked short).idleHandlers = inv.idleHandlers := by
  simp only [idleHandlers, ← triggeredThinned thin]
  rfl

theorem rootsThinned (thin : Thinned [] inv.relationships short) : (inv.relinked short).roots = inv.roots := by
  have senders : Thinned [] inv.senders (inv.relinked short).senders :=
    Thinned.flatMap fun c _ => (outgoingThinned thin _ _).map _
  simp only [roots, idleHandlersThinned thin, ← triggeredThinned thin]
  exact (Selection.firstsThinned ((senders.append (.refl [] _)).filter _)).symm

theorem sendingsGathered (inv : Inventory) :
    let sent := inv.relationships.filter (·.isOf .methodToCommand)
    inv.sendings = (Selection.firsts id (sent.map (·.sourceType))).map fun sender =>
      (sender, sent.filter (fun r => r.sourceType = sender)) :=
  tableGathered Relationship.sourceType _

theorem dispatchesThinned (thin : Thinned [] inv.relationships short) :
    (inv.relinked short).dispatches = inv.dispatches := by
  have sent := thin.filter (·.isOf .methodToCommand)
  have senders : Selection.firsts id ((inv.relationships.filter (·.isOf .methodToCommand)).map (·.sourceType)) =
      Selection.firsts id ((short.filter (·.isOf .methodToCommand)).map (·.sourceType)) :=
    Selection.firstsThinned (sent.map Relationship.sourceType)
  simp only [dispatches, sendingsGathered, List.flatMap_map, senders]
  apply Eq.symm
  apply Selection.firstsThinned
  refine Thinned.append (Thinned.flatMap fun sender _ => ?_) (.refl [] _)
  exact (sent.filter _).map _

theorem chainOfThinned (thin : Thinned [] inv.relationships short) (d : Dispatch) :
    ((inv.relinked short).chainOf d).toChain = (inv.chainOf d).toChain := by
  have settled : ∀ u ∈ ([] : List Trigger), Settled inv.keys u (.start d.root) := by simp
  have agrees := walkThinned (keysThinned thin) (nextThinned thin) settled (.refl [] [d.trigger]) ⟨rfl, rfl⟩
  rw [chainOfWalk, chainOfWalk]
  exact (agrees.toChain d.name d.root).symm

end

def NamesDistinct (inv : Inventory) : Prop := ∀ category, ((inv.listed category).map (·.fullName)).Nodup

theorem mergeAlone {inv : Inventory} (distinct : inv.NamesDistinct) : merge [inv] = inv.withoutRepeats := by
  have kept {α : Type} {name : α → String} {items : List α} (unique : (items.map name).Nodup) :
      items.foldl (Selection.addNew name) [] = items := Selection.addNewDistinct name unique
  apply (Inventory.mk.injEq ..).mpr
  refine ⟨kept ?_, kept ?_, kept ?_, kept ?_, kept ?_, kept ?_, kept ?_, kept ?_, Selection.firstsErases _⟩
  · simpa [listed, Function.comp_def] using distinct .controller
  · simpa [listed, Function.comp_def] using distinct .command
  · simpa [listed, Function.comp_def] using distinct .entity
  · simpa [listed, Function.comp_def] using distinct .domainEvent
  · simpa [listed, Function.comp_def] using distinct .integrationEvent
  · simpa [listed, Function.comp_def] using distinct .domainEventHandler
  · simpa [listed, Function.comp_def] using distinct .integrationEventHandler
  · simpa [listed, Function.comp_def] using distinct .integrationEventConverter

end Inventory

theorem repeatsChangeNothing (inv : Inventory) :
    inv.withoutRepeats.roots = inv.roots ∧
      inv.withoutRepeats.chains.map (·.toChain) = inv.chains.map (·.toChain) ∧
      inv.withoutRepeats.commandChains.map (·.toChain) = inv.commandChains.map (·.toChain) ∧
      (inv.NamesDistinct →
        (Inventory.merge [inv]).chains.map (·.toChain) = inv.chains.map (·.toChain) ∧
          (Inventory.merge [inv]).commandChains.map (·.toChain) = inv.commandChains.map (·.toChain)) := by
  have thin : Thinned [] inv.relationships inv.relationships.eraseDups := Selection.thinnedErase _
  have roots : inv.withoutRepeats.roots = inv.roots := Inventory.rootsThinned thin
  have chains : inv.withoutRepeats.chains.map (·.toChain) = inv.chains.map (·.toChain) := by
    simp only [Inventory.chains, roots, List.map_map]
    apply List.map_congr_left
    exact fun root _ => Inventory.chainFromThinned thin root
  have commandChains : inv.withoutRepeats.commandChains.map (·.toChain) = inv.commandChains.map (·.toChain) := by
    have dispatches : inv.withoutRepeats.dispatches = inv.dispatches := Inventory.dispatchesThinned thin
    simp only [Inventory.commandChains, dispatches, List.map_map]
    apply List.map_congr_left
    exact fun d _ => Inventory.chainOfThinned thin d
  refine ⟨roots, chains, commandChains, fun distinct => ?_⟩
  rw [Inventory.mergeAlone distinct]
  exact ⟨chains, commandChains⟩

def echoInventory : Inventory where
  controllers := [⟨⟨"Shop", "Shop"⟩, []⟩]
  commands := [⟨"Order", "Order"⟩]
  entities := [⟨⟨"Cart", "Cart"⟩, true, []⟩]
  domainEvents := [⟨"Ordered", "Ordered"⟩]
  domainEventHandlers := [⟨⟨"Mailer", "Mailer"⟩, "Ordered", ["Order"]⟩]
  relationships :=
    [⟨"Shop", "Post", "Order", "", "MethodToCommand"⟩,
      ⟨"Order", "", "Ghost", "haunt", "CommandToAggregateMethod"⟩,
      ⟨"Shop", "Post", "Order", "", "MethodToCommand"⟩,
      ⟨"Order", "", "Cart", "place", "CommandToAggregateMethod"⟩,
      ⟨"Order", "", "Ghost", "haunt", "CommandToAggregateMethod"⟩,
      ⟨"Order", "", "Cart", "place", "CommandToAggregateMethod"⟩,
      ⟨"Cart", "place", "Ordered", "", "MethodToDomainEvent"⟩,
      ⟨"Cart", "place", "Ordered", "", "MethodToDomainEvent"⟩]

theorem echoMergedChains :
    echoInventory.NamesDistinct ∧ (Inventory.merge [echoInventory]).relationships.length = 4 ∧
      (Inventory.merge [echoInventory]).chains.map (·.toChain) = echoInventory.chains.map (·.toChain) ∧
      (Inventory.merge [echoInventory]).commandChains.map (·.toChain) =
        echoInventory.commandChains.map (·.toChain) := by
  have distinct : echoInventory.NamesDistinct := by
    intro category
    cases category <;> decide
  exact ⟨distinct, by decide, (repeatsChangeNothing echoInventory).2.2.2 distinct⟩

end FlowAtlas
