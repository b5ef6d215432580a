import FlowAtlas.Proofs.Chain.Unfolding
/-! Why an edge stands in a chain: for each of the six labels, the relationship or the entry of the inventory
that it is drawn for. Names may clash and roles may meet in one key; no edge is drawn for less. -/
namespace FlowAtlas

inductive Justified (inv : Inventory) (root : Key) : Edge → Prop
  | sentByMethod {r} (listed : r ∈ inv.relationships) (kind : r.isOf .methodToCommand = true)
      (source : r.sourceType = root.typeName) (within : root.method = "" ∨ r.sourceMethod = root.method) :
      Justified inv root ⟨root, ⟨r.targetType, ""⟩, "sends"⟩
  | sentByRoot {commands command} (handler : inv.index.handlerCommands root.typeName = some commands)
      (listed : command ∈ commands) : Justified inv root ⟨root, ⟨command, ""⟩, "sends"⟩
  | sentByHandler {h command} (listed : h ∈ inv.handlers) (sends : command ∈ h.commands) :
      Justified inv root ⟨⟨h.fullName, ""⟩, ⟨command, ""⟩, "sends"⟩
  | executes {r} (listed : r ∈ inv.relationships) (kind : r.isOf .commandToAggregateMethod = true) :
      Justified inv root ⟨⟨r.sourceType, ""⟩, ⟨r.targetType, r.targetMethod⟩, "execute"⟩
  | publishes {r} (listed : r ∈ inv.relationships) (kind : r.isOf .methodToDomainEvent = true) :
      Justified inv root ⟨⟨r.sourceType, r.sourceMethod⟩, ⟨r.targetType, ""⟩, "publishes"⟩
  | handles {h} (listed : h ∈ inv.handlers) :
      Justified inv root ⟨⟨h.handledEventType, ""⟩, ⟨h.fullName, ""⟩, "handles"⟩
  | converts {v} (listed : v ∈ inv.integrationEventConverters) :
      Justified inv root ⟨⟨v.domainEventType, ""⟩, ⟨v.fullName, ""⟩, "converts"⟩
  | becomes {v} (listed : v ∈ inv.integrationEventConverters) :
      Justified inv root ⟨⟨v.fullName, ""⟩, ⟨v.integrationEventType, ""⟩, "to"⟩

def ReachedAs (inv : Inventory) (key : Key) : Role → Prop
  | .command | .domainEvent | .integrationEvent => key.method = ""
  | .aggregateMethod => True
  | .handler commands => ∃ h ∈ inv.handlers, key = ⟨h.fullName, ""⟩ ∧ h.commands = commands
  | .converter event => ∃ v ∈ inv.integrationEventConverters, key = ⟨v.fullName, ""⟩ ∧ v.integrationEventType = event

theorem firstJustified {inv : Inventory} {root : Key} {t : Trigger}
    (mem : t ∈ Inventory.rootTriggers inv.index root) :
    ReachedAs inv t.target t.role ∧ Justified inv root t.edge := by
  obtain ⟨command, rfl, ⟨r, out, within, rfl⟩ | ⟨commands, handler, listed⟩⟩ := memRootTriggers.mp mem
  · obtain ⟨listed, kind, source⟩ := Inventory.memOutgoingOf.mp out
    exact ⟨rfl, .sentByMethod listed kind source within⟩
  · exact ⟨rfl, .sentByRoot handler listed⟩

/- One step keeps it. The target need not be listed: an edge may close at a root that no collection has. -/
theorem nextJustified {inv : Inventory} {root : Key} {d t : Trigger} (reached : ReachedAs inv d.target d.role)
    (mem : t ∈ d.next inv.index) : ReachedAs inv t.target t.role ∧ Justified inv root t.edge := by
  obtain ⟨source, ⟨name, method⟩, role, closes⟩ := d
  cases role <;> simp only [Trigger.next, List.mem_append, List.mem_map, List.mem_singleton] at mem
  case command =>
    obtain ⟨r, out, rfl⟩ := mem
    obtain ⟨listed, kind, rfl⟩ := Inventory.memOutgoingOf.mp out
    obtain rfl : method = "" := reached
    exact ⟨trivial, .executes listed kind⟩
  case aggregateMethod =>
    obtain ⟨r, out, rfl⟩ := mem
    obtain ⟨out, within⟩ := List.mem_filter.mp out
    obtain ⟨listed, kind, rfl⟩ := Inventory.memOutgoingOf.mp out
    obtain rfl : r.sourceMethod = method := of_decide_eq_true within
    exact ⟨rfl, .publishes listed kind⟩
  case domainEvent =>
    obtain rfl : method = "" := reached
    rcases mem with ⟨h, mem, rfl⟩ | ⟨v, mem, rfl⟩
    · rw [Inventory.domainHandlersScan, List.mem_filter] at mem
      obtain rfl : h.handledEventType = name := of_decide_eq_true mem.2
      have listed : h ∈ inv.handlers := List.mem_append_left _ mem.1
      exact ⟨⟨h, listed, rfl, rfl⟩, .handles listed⟩
    · rw [Inventory.convertersScan, List.mem_filter] at mem
      obtain rfl : v.domainEventType = name := of_decide_eq_true mem.2
      exact ⟨⟨v, mem.1, rfl, rfl⟩, .converts mem.1⟩
  case integrationEvent =>
    obtain rfl : method = "" := reached
    obtain ⟨h, mem, rfl⟩ := mem
    rw [Inventory.integrationHandlersScan, List.mem_filter] at mem
    obtain rfl : h.handledEventType = name := of_decide_eq_true mem.2
    have listed : h ∈ inv.handlers := List.mem_append_right _ mem.1
    exact ⟨⟨h, listed, rfl, rfl⟩, .handles listed⟩
  case handler commands =>
    obtain ⟨h, listed, same, rfl⟩ := reached
    cases same
    obtain ⟨c, sends, rfl⟩ := mem
    exact ⟨rfl, .sentByHandler listed sends⟩
  case converter event =>
    obtain ⟨v, listed, same, rfl⟩ := reached
    cases same
    subst mem
    exact ⟨rfl, .becomes listed⟩

section

variable {inv : Inventory} {root : Key} {entered : List Trigger} {c : Chain}

theorem enteredReached (u : Unfolds inv root (Inventory.rootTriggers inv.index root) entered c) :
    ∀ d ∈ entered, ReachedAs inv d.target d.role := by
  apply enteredInduction u (motive := fun d => ReachedAs inv d.target d.role)
  · intro d _ offered
    exact (firstJustified offered).1
  · intro p _ parent d _ next
    exact (@nextJustified inv root p d parent next).1

theorem offeredJustified (u : Unfolds inv root (Inventory.rootTriggers inv.index root) entered c) {t : Trigger}
    (offered : Offered inv.index (Inventory.rootTriggers inv.index root) entered t) :
    Justified inv root t.edge := by
  rcases offered with start | ⟨p, parent, next⟩
  · exact (firstJustified start).2
  · exact (nextJustified (enteredReached u p parent) next).2

theorem edgeJustified (u : Unfolds inv root (Inventory.rootTriggers inv.index root) entered c) {x : Edge}
    (mem : x ∈ c.edges) : Justified inv root x := by
  rcases u.drawn x mem with ⟨d, entry, rfl⟩ | ⟨t, offered, _, rfl⟩
  · exact offeredJustified u (enteredOffered u entry)
  · exact offeredJustified u offered

theorem nodeKnown {first : List Trigger} (u : Unfolds inv root first entered c) {n : Key} (mem : n ∈ c.nodes) :
    n = root ∨ inv.index.isKnown n.typeName = true := by
  rcases (memNodes u).mp mem with same | ⟨d, entry, rfl⟩
  · exact Or.inl same
  · exact Or.inr (Inventory.keyKnown (u.known d entry))

end

theorem chainEdgesJustified (inv : Inventory) (root : Key) : ∀ x ∈ (inv.chainFrom root).edges,
    Justified inv root x ∧ (x.target = root ∨ inv.index.isKnown x.target.typeName = true) := by
  intro x mem
  obtain ⟨entered, u⟩ := chainFromUnfolds inv root
  exact ⟨edgeJustified u mem, nodeKnown u (u.grounded x mem)⟩

def stockInventory : Inventory where
  controllers := [⟨⟨"Shop", "Shop"⟩, []⟩]
  commands := [⟨"Order", "Order"⟩]
  entities := [⟨⟨"Cart", "Cart"⟩, true, []⟩]
  domainEvents := [⟨"Ordered", "Ordered"⟩]
  integrationEvents := [⟨"Sold", "Sold"⟩]
  integrationEventHandlers := [⟨⟨"Stock", "Stock"⟩, "Sold", []⟩]
  integrationEventConverters := [⟨⟨"Export", "Export"⟩, "Ordered", "Sold"⟩]
  relationships :=
    [⟨"Shop", "Post", "Order", "", "MethodToCommand"⟩,
      ⟨"Order", "", "Cart", "place", "CommandToAggregateMethod"⟩,
      ⟨"Cart", "place", "Ordered", "", "MethodToDomainEvent"⟩]

theorem soldEdgeJustified :
    (⟨⟨"Export", ""⟩, ⟨"Sold", ""⟩, "to"⟩ : Edge) ∈ (stockInventory.chainFrom ⟨"Shop", "Post"⟩).edges ∧
      Justified stockInventory ⟨"Shop", "Post"⟩ ⟨⟨"Export", ""⟩, ⟨"Sold", ""⟩, "to"⟩ ∧
      ((⟨"Sold", ""⟩ : Key) = ⟨"Shop", "Post"⟩ ∨ stockInventory.index.isKnown "Sold" = true) := by
  have edges : (stockInventory.chainFrom ⟨"Shop", "Post"⟩).edges =
      [⟨⟨"Shop", "Post"⟩, ⟨"Order", ""⟩, "sends"⟩, ⟨⟨"Order", ""⟩, ⟨"Cart", "place"⟩, "execute"⟩,
        ⟨⟨"Cart", "place"⟩, ⟨"Ordered", ""⟩, "publishes"⟩, ⟨⟨"Ordered", ""⟩, ⟨"Export", ""⟩, "converts"⟩,
        ⟨⟨"Export", ""⟩, ⟨"Sold", ""⟩, "to"⟩, ⟨⟨"Sold", ""⟩, ⟨"Stock", ""⟩, "handles"⟩] := by cbv
  have drawn : (⟨⟨"Export", ""⟩, ⟨"Sold", ""⟩, "to"⟩ : Edge) ∈
      (stockInventory.chainFrom ⟨"Shop", "Post"⟩).edges := by
    rw [edges]
    decide
  exact ⟨drawn, chainEdgesJustified stockInventory ⟨"Shop", "Post"⟩ _ drawn⟩

end FlowAtlas
