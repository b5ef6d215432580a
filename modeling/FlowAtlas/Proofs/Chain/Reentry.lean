import FlowAtlas.Proofs.Chain.Unfolding
import Mathlib.Data.List.TakeWhile
/-! Edges into keys that have been visited before. Commands of the root, handlers and converters get no
second edge: such an edge stands in the chain exactly when it discovers its target. -/
namespace FlowAtlas

section

variable {inv : Inventory} {root : Key} {first entered : List Trigger} {c : Chain}

theorem rootEdge (u : Unfolds inv root first entered c) {x : Edge} (mem : x ∈ c.edges)
    (source : x.source = root) : ∃ d ∈ entered, d ∈ first ∧ x = d.edge := by
  have inner : ∀ p ∈ entered, ∀ t ∈ p.next inv.index, t.edge.source ≠ root := by
    intro p parent t next same
    exact enteredNotRoot u parent ((nextSource next).symm.trans same)
  rcases u.drawn x mem with ⟨d, entry, rfl⟩ | ⟨t, offered, closes, rfl⟩
  · refine ⟨d, entry, ?_, rfl⟩
    rcases enteredOffered u entry with start | ⟨p, parent, next⟩
    · exact start
    · exact absurd source (inner p parent d next)
  · rcases offered with start | ⟨p, parent, next⟩
    · rw [u.rooted t start] at closes
      cases closes
    · exact absurd source (inner p parent t next)

theorem openEdge (u : Unfolds inv root first entered c) {x : Edge} (mem : x ∈ c.edges)
    (label : x.label = "handles" ∨ x.label = "converts") : ∃ d ∈ entered, x = d.edge := by
  rcases u.drawn x mem with discovers | ⟨t, start | ⟨p, parent, next⟩, closes, rfl⟩
  · exact discovers
  · rw [u.rooted t start] at closes
    cases closes
  · rw [nextCloses next] at closes
    cases role : t.role <;> simp [Trigger.edge, Role.label, Role.closes, role] at label closes

theorem openEdgeIff (u : Unfolds inv root first entered c) {x : Edge}
    (label : x.label = "handles" ∨ x.label = "converts") :
    x ∈ c.edges ↔ c.discovery? x.target = some x := by
  constructor
  · intro mem
    obtain ⟨d, entry, rfl⟩ := openEdge u mem label
    exact u.discovers d entry
  · exact List.mem_of_find?_eq_some

theorem converterReached (u : Unfolds inv root first entered c) {p : Trigger} {event : String}
    (mem : p ∈ entered) (role : p.role = .converter event) :
    ∃ entry, p.target.typeName = entry.fullName ∧ entry.integrationEventType = event ∧
      inv.integrationEventConverters.find? (fun other =>
        other.fullName = entry.fullName ∧ other.domainEventType = p.source.typeName) = some entry := by
  rcases originOf u mem with start | ⟨q, parent, next⟩
  · rw [u.rooted p start] at role
    cases role
  · obtain ⟨entry, target, same, listed⟩ := converterEntry role (u.known p mem) next
    rw [← nextSource (List.mem_of_find?_eq_some next)] at listed
    exact ⟨entry, by rw [target], same, listed⟩

theorem convertedEdgeIff (u : Unfolds inv root first entered c) {v : Key} {event : String}
    (known : inv.index.isKnown event = true) :
    (⟨v, ⟨event, ""⟩, "to"⟩ : Edge) ∈ c.edges ↔ ∃ s entry,
      c.discovery? v = some ⟨s, v, "converts"⟩ ∧ inv.integrationEventConverters.find? (fun other =>
        other.fullName = v.typeName ∧ other.domainEventType = s.typeName) = some entry ∧
      entry.integrationEventType = event := by
  constructor
  · intro mem
    have offered : ∃ t, Offered inv.index first entered t ∧ (⟨v, ⟨event, ""⟩, "to"⟩ : Edge) = t.edge := by
      rcases u.drawn _ mem with ⟨d, entry, same⟩ | ⟨t, offered, _, same⟩
      · exact ⟨d, enteredOffered u entry, same⟩
      · exact ⟨t, offered, same⟩
    obtain ⟨⟨source, target, role, closes⟩, start | ⟨p, parent, next⟩, same⟩ := offered
    · have command := congrArg Trigger.role (u.rooted _ start)
      cases command
      simp [Trigger.edge, Role.label] at same
    · obtain ⟨rfl, rfl, label⟩ := Edge.mk.inj same
      have source : v = p.target := nextSource next
      have step := nextSetsOff next (Inventory.typeListed known)
      cases role <;> simp [Role.label] at label
      generalize role : p.role = given at step
      cases step
      obtain ⟨entry, name, ie, listed⟩ := converterReached u parent role
      refine ⟨p.source, entry, ?_, ?_, ie⟩
      · rw [source, u.discovers p parent, Trigger.edge, role, Role.label]
      · rwa [source, name]
  · rintro ⟨s, entry, found, listed, rfl⟩
    have mem : (⟨s, v, "converts"⟩ : Edge) ∈ c.edges := List.mem_of_find?_eq_some found
    obtain ⟨p, parent, same⟩ := openEdge u mem (Or.inr rfl)
    obtain ⟨rfl, rfl, label⟩ := Edge.mk.inj same
    cases role : p.role <;> simp [role, Role.label] at label
    obtain ⟨other, name, rfl, found⟩ := converterReached u parent role
    rw [← name, listed] at found
    cases found
    have step : SetsOff inv p.role p.target .integrationEvent ⟨entry.integrationEventType, ""⟩ :=
      role ▸ .becomes known
    exact (followedUp u parent step).2 rfl

end

theorem splitAtTarget {first : List Trigger} {t : Trigger} (mem : t ∈ first) :
    ∃ u after, u.target = t.target ∧ u ∈ first ∧
      first = first.takeWhile (fun v => v.target ≠ t.target) ++ u :: after := by
  have whole := List.takeWhile_append_dropWhile (p := fun v => decide (v.target ≠ t.target)) (l := first)
  cases rest : first.dropWhile (fun v => v.target ≠ t.target) with
  | nil =>
    have all := List.dropWhile_eq_nil_iff.mp rest t mem
    simp at all
  | cons u after =>
    have stops := List.head?_dropWhile_not (fun v => decide (v.target ≠ t.target)) first
    simp only [rest, List.head?_cons] at stops
    rw [rest] at whole
    exact ⟨u, after, by simpa using stops, by rw [← whole]; simp, whole.symm⟩

section

variable {inv : Inventory} {root : Key} {before after : List Trigger} {u : Trigger}

theorem freshDrawn (fresh : u.target ∉ (walk inv.keys inv.index before (.start root)).nodes)
    (listed : u.target ∈ inv.keys) :
    u.edge ∈ (walk inv.keys inv.index (before ++ u :: after) (.start root)).edges := by
  rw [walkAppend, walk, dif_neg fresh, dif_pos listed]
  obtain ⟨entered, run⟩ := walkRun inv.keys inv.index (u.next inv.index ++ after)
    ((walk inv.keys inv.index before (.start root)).enter u)
  exact (runKeepsEdges run).subset (Trail.memEnter.mpr (Or.inr rfl))

theorem visitedUndrawn (rooted : ∀ t ∈ before ++ u :: after, t = ⟨root, t.target, .command, false⟩)
    (absent : ∀ t ∈ before, t.target ≠ u.target) (other : u.target ≠ root)
    (visited : u.target ∈ (walk inv.keys inv.index before (.start root)).nodes) :
    u.edge ∉ (walk inv.keys inv.index (before ++ u :: after) (.start root)).edges := by
  intro drawn
  have own : u = ⟨root, u.target, .command, false⟩ := rooted u (by simp)
  have earlier : ∀ t ∈ before, t = ⟨root, t.target, .command, false⟩ :=
    fun t inside => rooted t (List.mem_append_left _ inside)
  obtain ⟨whole, long⟩ := walkUnfolds inv "" rooted
  obtain ⟨part, short⟩ := walkUnfolds inv "" earlier
  obtain ⟨e, eMem, eTarget⟩ := nodeEntered short visited other
  obtain ⟨d, dMem, _, dEdge⟩ := rootEdge long drawn (congrArg Trigger.source own)
  have kept : (walk inv.keys inv.index before (.start root)).edges <+:
      (walk inv.keys inv.index (before ++ u :: after) (.start root)).edges := by
    rw [walkAppend]
    obtain ⟨_, run⟩ := walkRun inv.keys inv.index (u :: after) (walk inv.keys inv.index before (.start root))
    exact runKeepsEdges run
  have early := kept.find?_eq_some (short.discovers e eMem)
  have late := long.discovers d dMem
  have dTarget : u.target = d.target := congrArg Edge.target dEdge
  rw [eTarget, dTarget] at early
  have same : e.edge = u.edge := (Option.some.inj (early.symm.trans late)).trans dEdge.symm
  have source : e.edge.source = root := by rw [same, own]; rfl
  obtain ⟨f, _, inside, fEdge⟩ := rootEdge short (List.mem_of_find?_eq_some (short.discovers e eMem)) source
  exact absent f inside (congrArg Edge.target (fEdge.symm.trans same))

end

theorem rootEdgeIff {inv : Inventory} {root : Key} {first : List Trigger} {t : Trigger}
    (rooted : ∀ u ∈ first, u = ⟨root, u.target, .command, false⟩) (mem : t ∈ first)
    (listed : t.target ∈ inv.keys) (other : t.target ≠ root) :
    t.edge ∈ (walk inv.keys inv.index first (.start root)).edges ↔
      t.target ∉ (walk inv.keys inv.index (first.takeWhile (fun u => u.target ≠ t.target))
        (.start root)).nodes := by
  obtain ⟨u, after, target, uMem, split⟩ := splitAtTarget mem
  have same : u = t := by rw [rooted u uMem, rooted t mem, target]
  subst same
  have absent : ∀ v ∈ first.takeWhile (fun v => v.target ≠ u.target), v.target ≠ u.target :=
    fun v inside => by simpa using List.mem_takeWhile_imp inside
  generalize first.takeWhile (fun v => v.target ≠ u.target) = before at split absent ⊢
  subst split
  constructor
  · intro drawn visited
    exact visitedUndrawn rooted absent other visited drawn
  · intro fresh
    exact freshDrawn fresh listed

def Sends (inv : Inventory) (root : Key) (command : String) : Prop :=
  (∃ r ∈ inv.relationships, r.isOf .methodToCommand = true ∧ r.sourceType = root.typeName ∧
      r.sourceMethod = root.method ∧ r.targetType = command) ∨
    ∃ commands, inv.index.handlerCommands root.typeName = some commands ∧ command ∈ commands

def Inventory.visitedBefore (inv : Inventory) (root : Key) (command : String) : List Key :=
  (walk inv.keys inv.index
    ((Inventory.rootTriggers inv.index root).takeWhile (fun t => t.target ≠ ⟨command, ""⟩)) (.start root)).nodes

theorem sentOffered {inv : Inventory} {root : Key} {command : String} (sent : Sends inv root command) :
    ⟨root, ⟨command, ""⟩, .command, false⟩ ∈ Inventory.rootTriggers inv.index root := by
  refine memRootTriggers.mpr ⟨command, rfl, ?_⟩
  rcases sent with ⟨r, listed, kind, source, within, target⟩ | handled
  · exact Or.inl ⟨r, Inventory.memOutgoingOf.mpr ⟨listed, kind, source⟩, Or.inr within, target⟩
  · exact Or.inr handled

theorem rootCommandConnected {inv : Inventory} {root : Key} {command : String} (listed : root ∈ inv.roots)
    (sent : Sends inv root command) (known : inv.index.isKnown command = true) (other : root ≠ ⟨command, ""⟩) :
    (∃ c ∈ inv.chains, c.root = root) ∧ ∀ c ∈ inv.chains, c.root = root → ⟨command, ""⟩ ∈ c.nodes ∧
      ((⟨root, ⟨command, ""⟩, "sends"⟩ : Edge) ∈ c.edges ↔ ⟨command, ""⟩ ∉ inv.visitedBefore root command) := by
  refine ⟨⟨inv.chainFrom root, List.mem_map_of_mem listed, rfl⟩, ?_⟩
  intro c mem same
  obtain ⟨own, _, rfl⟩ := List.mem_map.mp mem
  have same : own = root := same
  subst own
  have offered := sentOffered sent
  obtain ⟨entered, u⟩ := chainFromUnfolds inv root
  exact ⟨u.visited (Or.inl offered) (Inventory.typeListed known),
    rootEdgeIff rootTriggersRooted offered (Inventory.typeListed known) other.symm⟩

def mailInventory : Inventory where
  controllers := [⟨⟨"Shop", "Shop"⟩, []⟩]
  commands := [⟨"Order", "Order"⟩, ⟨"Notify", "Notify"⟩]
  entities := [⟨⟨"Cart", "Cart"⟩, true, []⟩]
  domainEvents := [⟨"Ordered", "Ordered"⟩]
  domainEventHandlers := [⟨⟨"Mailer", "Mailer"⟩, "Ordered", ["Notify"]⟩]
  relationships :=
    [⟨"Shop", "Post", "Order", "", "MethodToCommand"⟩,
      ⟨"Shop", "Post", "Notify", "", "MethodToCommand"⟩,
      ⟨"Order", "", "Cart", "place", "CommandToAggregateMethod"⟩,
      ⟨"Cart", "place", "Ordered", "", "MethodToDomainEvent"⟩,
      ⟨"Ordered", "", "Mailer", "", "DomainEventToHandler"⟩]

theorem firstCommandConnected :
    ⟨"Shop", "Post"⟩ ∈ mailInventory.roots ∧ Sends mailInventory ⟨"Shop", "Post"⟩ "Order" ∧
      mailInventory.index.isKnown "Order" = true ∧ (⟨"Shop", "Post"⟩ : Key) ≠ ⟨"Order", ""⟩ ∧
      ∀ c ∈ mailInventory.chains, c.root = ⟨"Shop", "Post"⟩ →
        (⟨⟨"Shop", "Post"⟩, ⟨"Order", ""⟩, "sends"⟩ : Edge) ∈ c.edges := by
  have listed : ⟨"Shop", "Post"⟩ ∈ mailInventory.roots := by decide
  have sent : Sends mailInventory ⟨"Shop", "Post"⟩ "Order" :=
    Or.inl ⟨⟨"Shop", "Post", "Order", "", "MethodToCommand"⟩, by decide, by decide, rfl, rfl, rfl⟩
  have before : mailInventory.visitedBefore ⟨"Shop", "Post"⟩ "Order" = [⟨"Shop", "Post"⟩] := by cbv
  refine ⟨listed, sent, by decide, by decide, fun c mem root => ?_⟩
  have connected := (rootCommandConnected listed sent (by decide) (by decide)).2 c mem root
  exact connected.2.mpr (by rw [before]; decide)

theorem secondCommandUnconnected :
    ⟨"Shop", "Post"⟩ ∈ mailInventory.roots ∧ Sends mailInventory ⟨"Shop", "Post"⟩ "Notify" ∧
      mailInventory.index.isKnown "Notify" = true ∧ (⟨"Shop", "Post"⟩ : Key) ≠ ⟨"Notify", ""⟩ ∧
      (⟨⟨"Shop", "Post"⟩, ⟨"Notify", ""⟩, "sends"⟩ : Edge) ∉ (mailInventory.chainFrom ⟨"Shop", "Post"⟩).edges := by
  have edges : (mailInventory.chainFrom ⟨"Shop", "Post"⟩).edges =
      [⟨⟨"Shop", "Post"⟩, ⟨"Order", ""⟩, "sends"⟩, ⟨⟨"Order", ""⟩, ⟨"Cart", "place"⟩, "execute"⟩,
        ⟨⟨"Cart", "place"⟩, ⟨"Ordered", ""⟩, "publishes"⟩, ⟨⟨"Ordered", ""⟩, ⟨"Mailer", ""⟩, "handles"⟩,
        ⟨⟨"Mailer", ""⟩, ⟨"Notify", ""⟩, "sends"⟩] := by cbv
  refine ⟨by decide, Or.inl ?_, by decide, by decide, by rw [edges]; decide⟩
  exact ⟨⟨"Shop", "Post", "Notify", "", "MethodToCommand"⟩, by decide, by decide, rfl, rfl, rfl⟩

structure Chain.DrawnOnDiscovery (c : Chain) (x : Edge) : Prop where
  node : x.source ≠ c.root → x.target ∈ c.nodes
  drawn : x ∈ c.edges ↔ c.discovery? x.target = some x
  otherwise : x.source ≠ c.root → x ∉ c.edges →
    x.target = c.root ∨ ∃ y, c.discovery? x.target = some y ∧ y ≠ x

structure EventsConnected (inv : Inventory) (c : Chain) : Prop where
  published : ∀ e x, c.discovery? e = some x → x.label = "publishes" →
    ∀ h ∈ inv.domainEventHandlers, h.handledEventType = e.typeName →
      c.DrawnOnDiscovery ⟨e, ⟨h.fullName, ""⟩, "handles"⟩
  converted : ∀ e x, c.discovery? e = some x → x.label = "publishes" →
    ∀ v ∈ inv.integrationEventConverters, v.domainEventType = e.typeName →
      c.DrawnOnDiscovery ⟨e, ⟨v.fullName, ""⟩, "converts"⟩
  becomes : ∀ v ∈ inv.integrationEventConverters, inv.index.isKnown v.integrationEventType = true →
    ((⟨⟨v.fullName, ""⟩, ⟨v.integrationEventType, ""⟩, "to"⟩ : Edge) ∈ c.edges ↔ ∃ s entry,
      c.discovery? ⟨v.fullName, ""⟩ = some ⟨s, ⟨v.fullName, ""⟩, "converts"⟩ ∧
      inv.integrationEventConverters.find? (fun other =>
        other.fullName = v.fullName ∧ other.domainEventType = s.typeName) = some entry ∧
      entry.integrationEventType = v.integrationEventType)
  received : ∀ e x, c.discovery? e = some x → x.label = "to" →
    ∀ h ∈ inv.integrationEventHandlers, h.handledEventType = e.typeName →
      c.DrawnOnDiscovery ⟨e, ⟨h.fullName, ""⟩, "handles"⟩

theorem openEdgeDrawn {inv : Inventory} {root : Key} {first entered : List Trigger} {c : Chain}
    (u : Unfolds inv root first entered c) {x : Edge} (label : x.label = "handles" ∨ x.label = "converts")
    (node : x.source ≠ root → x.target ∈ c.nodes) : c.DrawnOnDiscovery x := by
  refine ⟨fun other => node (u.anchored ▸ other), openEdgeIff u label, fun other missing => ?_⟩
  rw [u.anchored] at other ⊢
  rcases (memNodes u).mp (node other) with same | ⟨d, mem, target⟩
  · exact Or.inl same
  · have found := u.discovers d mem
    rw [target] at found
    exact Or.inr ⟨d.edge, found, fun same => missing ((openEdgeIff u label).mpr (same ▸ found))⟩

theorem eventsConnected (inv : Inventory) (root : Key) : EventsConnected inv (inv.chainFrom root).toChain := by
  obtain ⟨entered, u⟩ := chainFromUnfolds inv root
  constructor
  case published =>
    intro e x found label h listed handles
    apply openEdgeDrawn u (Or.inl rfl)
    intro other
    have step : SetsOff inv .domainEvent e (.handler h.commands) ⟨h.fullName, ""⟩ := .handled listed handles
    exact (discoveredFollowed u other found step label rfl).1
  case converted =>
    intro e x found label v listed converts
    apply openEdgeDrawn u (Or.inr rfl)
    intro other
    have step : SetsOff inv .domainEvent e (.converter v.integrationEventType) ⟨v.fullName, ""⟩ := .converted listed converts
    exact (discoveredFollowed u other found step label rfl).1
  case becomes =>
    intro v _ known
    exact convertedEdgeIff u known
  case received =>
    intro e x found label h listed handles
    apply openEdgeDrawn u (Or.inl rfl)
    intro other
    have step : SetsOff inv .integrationEvent e (.handler h.commands) ⟨h.fullName, ""⟩ := .received listed handles
    exact (discoveredFollowed u other found step label rfl).1

def auditInventory : Inventory where
  controllers := [⟨⟨"Shop", "Shop"⟩, []⟩]
  commands := [⟨"Cycle", "Cycle"⟩]
  entities := [⟨⟨"Door", "Door"⟩, true, []⟩]
  domainEvents := [⟨"Opened", "Opened"⟩, ⟨"Closed", "Closed"⟩]
  domainEventHandlers := [⟨⟨"Audit", "Audit"⟩, "Opened", []⟩, ⟨⟨"Audit", "Audit"⟩, "Closed", []⟩]
  relationships :=
    [⟨"Shop", "Post", "Cycle", "", "MethodToCommand"⟩,
      ⟨"Cycle", "", "Door", "cycle", "CommandToAggregateMethod"⟩,
      ⟨"Door", "cycle", "Opened", "", "MethodToDomainEvent"⟩,
      ⟨"Door", "cycle", "Closed", "", "MethodToDomainEvent"⟩]

theorem secondEventUnconnected :
    (auditInventory.chainFrom ⟨"Shop", "Post"⟩).discovery? ⟨"Closed", ""⟩ =
        some ⟨⟨"Door", "cycle"⟩, ⟨"Closed", ""⟩, "publishes"⟩ ∧
      ⟨⟨"Audit", "Audit"⟩, "Closed", []⟩ ∈ auditInventory.domainEventHandlers ∧
      (⟨⟨"Closed", ""⟩, ⟨"Audit", ""⟩, "handles"⟩ : Edge) ∉
        (auditInventory.chainFrom ⟨"Shop", "Post"⟩).edges := by
  have edges : (auditInventory.chainFrom ⟨"Shop", "Post"⟩).edges =
      [⟨⟨"Shop", "Post"⟩, ⟨"Cycle", ""⟩, "sends"⟩, ⟨⟨"Cycle", ""⟩, ⟨"Door", "cycle"⟩, "execute"⟩,
        ⟨⟨"Door", "cycle"⟩, ⟨"Opened", ""⟩, "publishes"⟩, ⟨⟨"Opened", ""⟩, ⟨"Audit", ""⟩, "handles"⟩,
        ⟨⟨"Door", "cycle"⟩, ⟨"Closed", ""⟩, "publishes"⟩] := by cbv
  refine ⟨?_, by decide, by rw [edges]; decide⟩
  rw [Chain.discovery?, edges]
  decide

end FlowAtlas
