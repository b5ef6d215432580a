import FlowAtlas.Proofs.Chain.Unfolding
/-! What leaves the commands, methods and handlers of a chain. Whatever had been visited when they were
expanded, and however names clash, every step that the inventory lists for them is drawn. -/
namespace FlowAtlas

/-- Each node but the root is judged in the role in which its first edge reaches it; a handler sends the
commands of its first entry for the event that reaches it. -/
structure OutgoingComplete (inv : Inventory) (c : Chain) : Prop where
  commands : ∀ n x, n ≠ c.root → c.discovery? n = some x → x.label = "sends" →
    ∀ r ∈ inv.relationships, r.isOf .commandToAggregateMethod = true → r.sourceType = n.typeName →
      inv.index.isKnown r.targetType = true → (⟨n, r.target, "execute"⟩ : Edge) ∈ c.edges
  methods : ∀ n x, n ≠ c.root → c.discovery? n = some x → x.label = "execute" →
    ∀ r ∈ inv.relationships, r.isOf .methodToDomainEvent = true → r.sourceType = n.typeName →
      r.sourceMethod = n.method → inv.index.isKnown r.targetType = true →
        (⟨n, ⟨r.targetType, ""⟩, "publishes"⟩ : Edge) ∈ c.edges
  handlers : ∀ n x, n ≠ c.root → c.discovery? n = some x → x.label = "handles" → ∃ y h,
    c.discovery? x.source = some y ∧ n = ⟨h.fullName, ""⟩ ∧
    ((y.label = "publishes" ∧ inv.domainEventHandlers.find? (fun other =>
        other.fullName = h.fullName ∧ other.handledEventType = x.source.typeName) = some h) ∨
      (y.label = "to" ∧ inv.integrationEventHandlers.find? (fun other =>
        other.fullName = h.fullName ∧ other.handledEventType = x.source.typeName) = some h)) ∧
    ∀ command ∈ h.commands, inv.index.isKnown command = true →
      (⟨n, ⟨command, ""⟩, "sends"⟩ : Edge) ∈ c.edges

theorem unfoldedOutgoing {inv : Inventory} {root : Key} {first entered : List Trigger} {c : Chain}
    (u : Unfolds inv root first entered c) : OutgoingComplete inv c := by
  constructor
  case commands =>
    intro n x other found label r listed kind source known
    have step : SetsOff inv .command n .aggregateMethod r.target := .executes listed kind source known
    exact (discoveredFollowed u (u.anchored ▸ other) found step label rfl).2 rfl
  case methods =>
    intro n x other found label r listed kind source within known
    have step : SetsOff inv .aggregateMethod n .domainEvent ⟨r.targetType, ""⟩ :=
      .publishes listed kind source within known
    exact (discoveredFollowed u (u.anchored ▸ other) found step label rfl).2 rfl
  case handlers =>
    intro n x other found label
    obtain ⟨d, mem, rfl, rfl⟩ := discoveryEntered u (u.anchored ▸ other) found
    cases role : d.role <;> simp [Trigger.edge, Role.label, role] at label
    rename_i commands
    rcases originOf u mem with start | ⟨p, parent, next⟩
    · rw [u.rooted d start] at role
      cases role
    · obtain ⟨h, target, rfl, entry⟩ := handlerEntry role (u.known d mem) next
      have source : d.source = p.target := nextSource (List.mem_of_find?_eq_some next)
      refine ⟨p.edge, h, ?_, target, ?_, ?_⟩
      · rw [Trigger.edge, source]
        exact u.discovers p parent
      · simp only [Trigger.edge, source]
        rcases entry with ⟨domain, first⟩ | ⟨integration, first⟩
        · exact Or.inl ⟨by rw [domain, Role.label], first⟩
        · exact Or.inr ⟨by rw [integration, Role.label], first⟩
      · intro command listed known
        have step : SetsOff inv d.role d.target .command ⟨command, ""⟩ := role ▸ .sends listed known
        exact (followedUp u mem step).2 rfl

theorem outgoingEdgesComplete (inv : Inventory) :
    (∀ root, OutgoingComplete inv (inv.chainFrom root).toChain) ∧
      ∀ c ∈ inv.commandChains, OutgoingComplete inv c.toChain := by
  constructor
  · intro root
    obtain ⟨entered, u⟩ := chainFromUnfolds inv root
    exact unfoldedOutgoing u
  · intro c mem
    obtain ⟨d, _, rfl⟩ := List.mem_map.mp mem
    obtain ⟨entered, u⟩ := chainOfUnfolds inv d
    exact unfoldedOutgoing u

def renewalInventory : Inventory where
  controllers := [⟨⟨"Shop", "Shop"⟩, []⟩]
  commands := [⟨"Order", "Order"⟩, ⟨"Renew", "Renew"⟩]
  entities := [⟨⟨"Cart", "Cart"⟩, true, []⟩]
  relationships :=
    [⟨"Shop", "Post", "Order", "", "MethodToCommand"⟩, ⟨"Shop", "Post", "Renew", "", "MethodToCommand"⟩,
      ⟨"Order", "", "Cart", "place", "CommandToAggregateMethod"⟩,
      ⟨"Renew", "", "Cart", "place", "CommandToAggregateMethod"⟩]

/- The method has been visited by then, so this edge discovers nothing. -/
theorem renewalExecutes : (⟨⟨"Renew", ""⟩, ⟨"Cart", "place"⟩, "execute"⟩ : Edge) ∈
    (renewalInventory.chainFrom ⟨"Shop", "Post"⟩).edges := by
  have discovered : (renewalInventory.chainFrom ⟨"Shop", "Post"⟩).discovery? ⟨"Renew", ""⟩ =
      some ⟨⟨"Shop", "Post"⟩, ⟨"Renew", ""⟩, "sends"⟩ := by cbv
  have complete := (outgoingEdgesComplete renewalInventory).1 ⟨"Shop", "Post"⟩
  have other : (⟨"Renew", ""⟩ : Key) ≠ ⟨"Shop", "Post"⟩ := by decide
  exact complete.commands ⟨"Renew", ""⟩ _ other discovered rfl
    ⟨"Renew", "", "Cart", "place", "CommandToAggregateMethod"⟩ (by decide) (by decide) rfl (by decide)

end FlowAtlas
