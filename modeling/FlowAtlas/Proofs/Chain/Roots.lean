import FlowAtlas.Chain.Extract
import FlowAtlas.Proofs.Inventory.Scan
import FlowAtlas.Proofs.Text.Parts
/-! Where chains start. The call types of the relationships say which keys are led to; the roots are the entry points
to which none leads, once each, controllers before handlers. -/
namespace FlowAtlas

/-- The keys that some relationship leads to. A call type is free text: one kind is told by the whole of it, the
others by what it holds. -/
inductive LedTo (inv : Inventory) : Key → Prop
  | executed {r} (listed : r ∈ inv.relationships) (kind : r.callType = "CommandToAggregateMethod") :
      LedTo inv ⟨r.targetType, r.targetMethod⟩
  | marked {r mark} (listed : r ∈ inv.relationships) (other : r.callType ≠ "CommandToAggregateMethod")
      (known : mark ∈ ["EventToHandler", "ToIntegrationEvent", "ToDomainEvent"])
      (holds : mark.toList <:+: r.callType.toList) : LedTo inv ⟨r.targetType, ""⟩

inductive EntryPoint (inv : Inventory) : Key → Prop
  | sender {c r} (controller : c ∈ inv.controllers) (listed : r ∈ inv.relationships)
      (kind : r.callType = "MethodToCommand") (source : r.sourceType = c.fullName)
      (free : ¬ LedTo inv ⟨c.fullName, r.sourceMethod⟩) : EntryPoint inv ⟨c.fullName, r.sourceMethod⟩
  | handler {h} (listed : h ∈ inv.handlers) (free : ¬ LedTo inv ⟨h.fullName, "Handle"⟩)
      (idle : ¬ LedTo inv ⟨h.fullName, ""⟩) : EntryPoint inv ⟨h.fullName, "Handle"⟩

section

variable {inv : Inventory} {k : Key}

theorem triggeredBy {r : Relationship} : r.triggered? = some k ↔
    (r.callType = "CommandToAggregateMethod" ∧ k = ⟨r.targetType, r.targetMethod⟩) ∨
      (r.callType ≠ "CommandToAggregateMethod" ∧ k = ⟨r.targetType, ""⟩ ∧
        ∃ mark ∈ ["EventToHandler", "ToIntegrationEvent", "ToDomainEvent"], mark.toList <:+: r.callType.toList) := by
  have executes : r.isOf .commandToAggregateMethod = true ↔ r.callType = "CommandToAggregateMethod" := beq_iff_eq
  have holds : triggerMarks.any (containsText r.callType) = true ↔
      ∃ mark ∈ ["EventToHandler", "ToIntegrationEvent", "ToDomainEvent"],
        mark.toList <:+: r.callType.toList := by
    simp only [triggerMarks, List.any_eq_true, Text.containsIff]
  rw [Relationship.triggered?, ← holds, Ne, ← executes]
  by_cases kind : r.isOf .commandToAggregateMethod = true
  · rw [if_pos kind, Option.some.injEq, Relationship.target]
    constructor
    · rintro rfl
      exact Or.inl ⟨kind, rfl⟩
    · rintro (⟨_, rfl⟩ | ⟨other, _⟩)
      · rfl
      · exact absurd kind other
  · by_cases marked : triggerMarks.any (containsText r.callType) = true
    · rw [if_neg kind, if_pos marked, Option.some.injEq]
      constructor
      · rintro rfl
        exact Or.inr ⟨kind, rfl, marked⟩
      · rintro (⟨same, _⟩ | ⟨_, rfl, _⟩)
        · exact absurd same kind
        · rfl
    · rw [if_neg kind, if_neg marked]
      simp [kind, marked]

theorem triggeredIff : k ∈ inv.triggered ↔ LedTo inv k := by
  rw [Inventory.triggered, List.mem_filterMap]
  constructor
  · rintro ⟨r, listed, found⟩
    rcases triggeredBy.mp found with ⟨kind, rfl⟩ | ⟨other, rfl, mark, known, holds⟩
    · exact .executed listed kind
    · exact .marked listed other known holds
  · intro led
    cases led with
    | @executed r listed kind => exact ⟨r, listed, triggeredBy.mpr (Or.inl ⟨kind, rfl⟩)⟩
    | @marked r mark listed other known holds =>
      exact ⟨r, listed, triggeredBy.mpr (Or.inr ⟨other, rfl, mark, known, holds⟩)⟩

end

instance (inv : Inventory) (k : Key) : Decidable (LedTo inv k) := decidable_of_iff (k ∈ inv.triggered) triggeredIff

namespace Inventory

def freeSenders (inv : Inventory) : List Key :=
  inv.controllers.flatMap fun c =>
    (inv.relationships.filter fun r => r.callType = "MethodToCommand" ∧ r.sourceType = c.fullName ∧
      ¬ LedTo inv ⟨c.fullName, r.sourceMethod⟩).map fun r => ⟨c.fullName, r.sourceMethod⟩

def freeHandlers (inv : Inventory) : List Key :=
  ((inv.domainEventHandlers ++ inv.integrationEventHandlers).filter fun h =>
    ¬ LedTo inv ⟨h.fullName, "Handle"⟩ ∧ ¬ LedTo inv ⟨h.fullName, ""⟩).map fun h => ⟨h.fullName, "Handle"⟩

theorem sendersFree (inv : Inventory) : inv.senders.filter (· ∉ inv.triggered) = inv.freeSenders := by
  rw [senders, freeSenders, List.filter_flatMap]
  apply List.flatMap_congr
  intro c _
  rw [List.filter_map, Index.outgoingOf, outgoingScan, List.filter_filter, List.filter_filter]
  congr 1
  apply List.filter_congr
  intro r _
  have kind : r.isOf .methodToCommand = true ↔ r.callType = "MethodToCommand" := beq_iff_eq
  rw [Bool.eq_iff_iff]
  simp only [Function.comp, Bool.and_eq_true, decide_eq_true_eq, triggeredIff, kind]
  exact and_assoc.trans and_rotate

theorem handlersFree (inv : Inventory) : inv.idleHandlers.filter (· ∉ inv.triggered) = inv.freeHandlers := by
  rw [idleHandlers, freeHandlers, List.filter_map, List.filter_filter, handlers]
  congr 1
  apply List.filter_congr
  intro h _
  simp only [Function.comp, triggeredIff, entryMethod, Bool.decide_and, decide_not]

end Inventory

theorem entryPointIff {inv : Inventory} {k : Key} :
    k ∈ inv.freeSenders ++ inv.freeHandlers ↔ EntryPoint inv k := by
  rw [List.mem_append, Inventory.freeSenders, Inventory.freeHandlers, List.mem_flatMap, List.mem_map]
  constructor
  · rintro (⟨c, controller, mem⟩ | ⟨h, mem, rfl⟩)
    · obtain ⟨r, kept, rfl⟩ := List.mem_map.mp mem
      obtain ⟨listed, holds⟩ := List.mem_filter.mp kept
      obtain ⟨kind, source, free⟩ := of_decide_eq_true holds
      exact .sender controller listed kind source free
    · obtain ⟨listed, holds⟩ := List.mem_filter.mp mem
      obtain ⟨free, idle⟩ := of_decide_eq_true holds
      exact .handler listed free idle
  · intro entry
    cases entry with
    | @sender c r controller listed kind source free =>
      refine Or.inl ⟨c, controller, List.mem_map.mpr ⟨r, List.mem_filter.mpr ⟨listed, ?_⟩, rfl⟩⟩
      exact decide_eq_true ⟨kind, source, free⟩
    | @handler h listed free idle =>
      exact Or.inr ⟨h, List.mem_filter.mpr ⟨listed, decide_eq_true ⟨free, idle⟩⟩, rfl⟩

theorem rootsAreEntryPoints (inv : Inventory) :
    inv.roots = (inv.freeSenders ++ inv.freeHandlers).eraseDups ∧ inv.roots.Nodup ∧
      ∀ k, (k ∈ inv.roots ↔ EntryPoint inv k) ∧ (inv.roots.count k = 1 ↔ EntryPoint inv k) := by
  have roots : inv.roots = Selection.firsts id (inv.freeSenders ++ inv.freeHandlers) := by
    rw [Inventory.roots, List.filter_append, inv.sendersFree, inv.handlersFree]
  have distinct : inv.roots.Nodup := roots ▸ Selection.firstsNodup _
  have members (k : Key) : k ∈ inv.roots ↔ EntryPoint inv k := by
    rw [roots, Selection.firstsMem, entryPointIff]
  refine ⟨roots.trans (Selection.firstsErases _), distinct, fun k => ⟨members k, ?_⟩⟩
  rw [← members k]
  exact ⟨fun once => List.count_pos_iff.mp (by omega), List.count_eq_one_of_mem distinct⟩

end FlowAtlas
