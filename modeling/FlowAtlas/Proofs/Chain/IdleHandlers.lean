import FlowAtlas.Proofs.Chain.Justified
import FlowAtlas.Proofs.Chain.Reentry
import FlowAtlas.Proofs.Chain.Rooted
/-! Handlers that are roots, and handlers that chains show being set off. Roots are told by relationships alone;
a walk enters what is listed for an event. The two agree where each handler of an event that some chain reaches
is marked by a relationship too. -/
namespace FlowAtlas

def Inventory.handlerRoots (inv : Inventory) : List Key := inv.roots.filter (· ∈ inv.idleHandlers)

def Inventory.MarksHandlers (inv : Inventory) : Prop :=
  ∀ h ∈ inv.handlers, ∀ c ∈ inv.chains, (⟨h.handledEventType, ""⟩ : Key) ∈ c.nodes →
    (⟨h.fullName, ""⟩ : Key) ∈ inv.triggered

structure Unmarked (inv : Inventory) (c : Chain) (x : Edge) : Prop where
  reached : x.source ∈ c.nodes
  discovers : c.discovery? x.target = some x
  listed : ∃ h ∈ inv.handlers, x.source = ⟨h.handledEventType, ""⟩ ∧ x.target = ⟨h.fullName, ""⟩
  unmarked : x.target ∉ inv.triggered

section

variable {inv : Inventory}

theorem handlerRootUntriggered {k : Key} (mem : k ∈ inv.handlerRoots) :
    (⟨k.typeName, ""⟩ : Key) ∉ inv.triggered := by
  have idle : k ∈ inv.idleHandlers := of_decide_eq_true (List.mem_filter.mp mem).2
  obtain ⟨h, kept, rfl⟩ := List.mem_map.mp idle
  exact of_decide_eq_true (List.mem_filter.mp kept).2

theorem handledListed {root : Key} {x : Edge} (justified : Justified inv root x) (label : x.label = "handles") :
    ∃ h ∈ inv.handlers, x.source = ⟨h.handledEventType, ""⟩ ∧ x.target = ⟨h.fullName, ""⟩ := by
  cases justified with
  | handles listed => exact ⟨_, listed, rfl, rfl⟩
  | _ => simp at label

theorem handledUnmarked {root : Key} {x : Edge} (mem : x ∈ (inv.chainFrom root).edges)
    (label : x.label = "handles") (untriggered : x.target ∉ inv.triggered) :
    Unmarked inv (inv.chainFrom root).toChain x := by
  obtain ⟨entered, u⟩ := chainFromUnfolds inv root
  constructor
  case reached => exact edgeSource u mem
  case discovers => exact (openEdgeIff u (Or.inl label)).mp mem
  case listed => exact handledListed (edgeJustified u mem) label
  case unmarked => exact untriggered

end

theorem handlerRootsUnmarked (inv : Inventory) :
    (∀ k ∈ inv.handlerRoots, ∀ c ∈ inv.chains, ∀ x ∈ c.edges, x.label = "handles" →
      x.target = ⟨k.typeName, ""⟩ → Unmarked inv c.toChain x) ∧
    (inv.MarksHandlers → ∀ k ∈ inv.handlerRoots, ∀ c ∈ inv.chains, ∀ x ∈ c.edges, x.label = "handles" →
      x.target ≠ ⟨k.typeName, ""⟩) := by
  have shown : ∀ k ∈ inv.handlerRoots, ∀ c ∈ inv.chains, ∀ x ∈ c.edges, x.label = "handles" →
      x.target = ⟨k.typeName, ""⟩ → Unmarked inv c.toChain x := by
    intro k handlerRoot c mem x drawn label target
    obtain ⟨root, _, rfl⟩ := List.mem_map.mp mem
    exact handledUnmarked drawn label (target ▸ handlerRootUntriggered handlerRoot)
  refine ⟨shown, ?_⟩
  intro marks k handlerRoot c mem x drawn label target
  have unmarked := shown k handlerRoot c mem x drawn label target
  obtain ⟨h, listed, source, handler⟩ := unmarked.listed
  have reached : (⟨h.handledEventType, ""⟩ : Key) ∈ c.nodes := source ▸ unmarked.reached
  exact unmarked.unmarked (handler ▸ marks h listed c mem reached)

def nightlyInventory : Inventory where
  controllers := [⟨⟨"Shop", "Shop"⟩, []⟩]
  commands := [⟨"Order", "Order"⟩, ⟨"Clean", "Clean"⟩]
  entities := [⟨⟨"Cart", "Cart"⟩, true, []⟩]
  domainEvents := [⟨"Ordered", "Ordered"⟩]
  domainEventHandlers :=
    [⟨⟨"Mailer", "Mailer"⟩, "Ordered", []⟩, ⟨⟨"Nightly", "Nightly"⟩, "Tick", ["Clean"]⟩]
  relationships :=
    [⟨"Shop", "Post", "Order", "", "MethodToCommand"⟩,
      ⟨"Order", "", "Cart", "place", "CommandToAggregateMethod"⟩,
      ⟨"Cart", "place", "Ordered", "", "MethodToDomainEvent"⟩,
      ⟨"Ordered", "", "Mailer", "", "DomainEventToHandler"⟩]

theorem nightlyMarks : nightlyInventory.MarksHandlers := by
  intro h listed c mem reached
  simp only [Inventory.handlers, nightlyInventory, List.append_nil, List.mem_cons, List.not_mem_nil,
    or_false] at listed
  rcases listed with rfl | rfl
  · decide
  -- The clock is neither a root nor listed, so no chain gets to it.
  · obtain ⟨root, start, rfl⟩ := List.mem_map.mp mem
    obtain ⟨entered, u⟩ := chainFromUnfolds nightlyInventory root
    rcases nodeKnown u reached with rfl | known
    · exact absurd start (by decide)
    · exact absurd known (by decide)

def mailerInventory : Inventory where
  controllers := [⟨⟨"Shop", "Shop"⟩, []⟩]
  commands := [⟨"Order", "Order"⟩]
  entities := [⟨⟨"Cart", "Cart"⟩, true, []⟩]
  domainEvents := [⟨"Ordered", "Ordered"⟩]
  domainEventHandlers := [⟨⟨"Mailer", "Mailer"⟩, "Ordered", []⟩]
  relationships :=
    [⟨"Shop", "Post", "Order", "", "MethodToCommand"⟩,
      ⟨"Order", "", "Cart", "place", "CommandToAggregateMethod"⟩,
      ⟨"Cart", "place", "Ordered", "", "MethodToDomainEvent"⟩]

theorem mailerHandles : (⟨⟨"Ordered", ""⟩, ⟨"Mailer", ""⟩, "handles"⟩ : Edge) ∈
    (mailerInventory.chainFrom ⟨"Shop", "Post"⟩).edges := by
  have edges : (mailerInventory.chainFrom ⟨"Shop", "Post"⟩).edges =
      [⟨⟨"Shop", "Post"⟩, ⟨"Order", ""⟩, "sends"⟩, ⟨⟨"Order", ""⟩, ⟨"Cart", "place"⟩, "execute"⟩,
        ⟨⟨"Cart", "place"⟩, ⟨"Ordered", ""⟩, "publishes"⟩, ⟨⟨"Ordered", ""⟩, ⟨"Mailer", ""⟩, "handles"⟩] := by cbv
  rw [edges]
  decide

theorem shopChains : mailerInventory.chainFrom ⟨"Shop", "Post"⟩ ∈ mailerInventory.chains :=
  List.mem_map_of_mem (by decide)

theorem nightlyAndMailerRoots :
    Unmarked mailerInventory (mailerInventory.chainFrom ⟨"Shop", "Post"⟩).toChain
      ⟨⟨"Ordered", ""⟩, ⟨"Mailer", ""⟩, "handles"⟩ ∧
    (⟨"Nightly", "Handle"⟩ : Key) ∈ nightlyInventory.handlerRoots ∧ nightlyInventory.MarksHandlers ∧
    ∀ k ∈ nightlyInventory.handlerRoots, ∀ c ∈ nightlyInventory.chains, ∀ x ∈ c.edges, x.label = "handles" →
      x.target ≠ ⟨k.typeName, ""⟩ := by
  refine ⟨?_, by decide, nightlyMarks, (handlerRootsUnmarked nightlyInventory).2 nightlyMarks⟩
  exact (handlerRootsUnmarked mailerInventory).1 ⟨"Mailer", "Handle"⟩ (by decide) _ shopChains _ mailerHandles rfl rfl

theorem mailerRootShown : (⟨"Mailer", "Handle"⟩ : Key) ∈ mailerInventory.handlerRoots ∧
    ∃ c ∈ mailerInventory.chains, (⟨⟨"Ordered", ""⟩, ⟨"Mailer", ""⟩, "handles"⟩ : Edge) ∈ c.edges :=
  ⟨by decide, _, shopChains, mailerHandles⟩

end FlowAtlas
