import FlowAtlas.FlowGraph.Reach
import FlowAtlas.Proofs.FlowGraph.Projection
import FlowAtlas.Proofs.Inventory.Unresolved
import Mathlib.Algebra.GroupWithZero.Nat
/-! The edges that the flow graph of an inventory skips, against the report of unresolved references. A relationship
with two unknown ends is two entries of the report and one skipped edge; a handler is always known, so each of its
unknown commands is one of both. -/
namespace FlowAtlas

theorem countEither {α : Type} (p q : α → Bool) (items : List α) :
    items.countP (fun x => p x || q x) + items.countP (fun x => p x && q x) = items.countP p + items.countP q := by
  induction items with
  | nil => rfl
  | cons x rest ih =>
    simp only [List.countP_cons]
    cases p x <;> cases q x <;> simp <;> omega

theorem countBoth {α : Type} (p q : α → Bool) (items : List α) :
    items.countP (fun x => p x && q x) ≤ items.countP p ∧ items.countP (fun x => p x && q x) ≤ items.countP q :=
  ⟨List.countP_mono_left fun _ _ both => (Bool.and_eq_true_iff.mp both).1,
    List.countP_mono_left fun _ _ both => (Bool.and_eq_true_iff.mp both).2⟩

namespace Inventory

variable (inv : Inventory)

theorem handlerCommandsLength : inv.handlerCommands.length = (inv.handlers.map (·.commands.length)).sum := by
  simp [handlerCommands, List.length_flatMap]

theorem flowEdgesTried : inv.flowGraph.edges.length + inv.flowGraph.skipped.length =
    inv.relationships.length + inv.handlerCommands.length := by
  have tried : inv.flowEdges.length = inv.relationships.length + inv.handlerCommands.length := by simp [flowEdges]
  rw [flowEdgesKept, flowEdgesSkipped, ← tried]
  exact (List.length_eq_length_filter_add _).symm

theorem flowEdgesSkippedCount : inv.flowGraph.skipped.length =
    inv.relationships.countP (fun r => !inv.index.isKnown r.sourceType || !inv.index.isKnown r.targetType) +
      inv.handlerCommands.countP (fun (_, c) => !inv.index.isKnown c) := by
  have commands : inv.handlerCommands.countP (fun (h, c) => !(inv.index.isKnown h && inv.index.isKnown c)) =
      inv.handlerCommands.countP (fun (_, c) => !inv.index.isKnown c) := by
    apply List.countP_congr
    rintro ⟨name, c⟩ mem
    obtain ⟨h, listed, within⟩ := List.mem_flatMap.mp mem
    obtain ⟨_, _, same⟩ := List.mem_map.mp within
    cases same
    simp [handlerKnown listed]
  rw [← commands, flowEdgesSkipped, ← List.countP_eq_length_filter, flowEdges, List.countP_append, List.countP_map,
    List.countP_map]
  simp [Function.comp_def]

theorem unresolvedCount (field : ReferenceField) :
    inv.unresolvedReferences.countP (·.field = field) = (inv.unresolvedOf field).length :=
  List.countP_eq_length_filter

theorem unresolvedSourceCount : inv.unresolvedReferences.countP (·.field = .sourceType) =
    inv.relationships.countP fun r => !inv.index.isKnown r.sourceType := by
  rw [unresolvedCount, unresolvedSources, List.length_map, List.countP_eq_length_filter]

theorem unresolvedTargetCount : inv.unresolvedReferences.countP (·.field = .targetType) =
    inv.relationships.countP fun r => !inv.index.isKnown r.targetType := by
  rw [unresolvedCount, unresolvedTargets, List.length_map, List.countP_eq_length_filter]

theorem unresolvedCommandCount : inv.unresolvedReferences.countP (·.field = .commands) =
    inv.handlerCommands.countP fun (_, c) => !inv.index.isKnown c := by
  rw [unresolvedCount, unresolvedCommands, List.length_map, List.countP_eq_length_filter]

/- Added rather than taken away, so that the count of skipped edges stands alone. -/
theorem skippedAgainstReport : inv.flowGraph.skipped.length +
      inv.relationships.countP (fun r => !inv.index.isKnown r.sourceType && !inv.index.isKnown r.targetType) =
    inv.unresolvedReferences.countP (·.field = .sourceType) + inv.unresolvedReferences.countP (·.field = .targetType) +
      inv.unresolvedReferences.countP (·.field = .commands) := by
  have either := countEither (fun r : Relationship => !inv.index.isKnown r.sourceType)
    (fun r => !inv.index.isKnown r.targetType) inv.relationships
  rw [flowEdgesSkippedCount, unresolvedSourceCount, unresolvedTargetCount, unresolvedCommandCount]
  omega

theorem noneSkipped : inv.flowGraph.skipped.length = 0 ↔
    inv.unresolvedReferences.countP (·.field = .sourceType) = 0 ∧
      inv.unresolvedReferences.countP (·.field = .targetType) = 0 ∧
      inv.unresolvedReferences.countP (·.field = .commands) = 0 := by
  have tally := inv.skippedAgainstReport
  have sources := inv.unresolvedSourceCount
  have targets := inv.unresolvedTargetCount
  have both := countBoth (fun r : Relationship => !inv.index.isKnown r.sourceType)
    (fun r => !inv.index.isKnown r.targetType) inv.relationships
  omega

end Inventory

structure Tallied (inv : Inventory) : Prop where
  tried : inv.flowGraph.summary.edges + inv.flowGraph.summary.skipped =
    inv.relationships.length + (inv.handlers.map (·.commands.length)).sum
  skipped : (inv.flowGraph.summary.skipped : Int) =
    inv.unresolvedReferences.countP (·.field = .sourceType) + inv.unresolvedReferences.countP (·.field = .targetType) -
      inv.relationships.countP (fun r => !inv.index.isKnown r.sourceType && !inv.index.isKnown r.targetType) +
      inv.unresolvedReferences.countP (·.field = .commands)
  complete : (∀ u ∈ inv.unresolvedReferences, u.field ≠ .sourceType ∧ u.field ≠ .targetType ∧ u.field ≠ .commands) ↔
    inv.flowGraph.summary.skipped = 0

theorem flowGraphTallied (inv : Inventory) : Tallied inv := by
  constructor
  case tried =>
    rw [← inv.handlerCommandsLength]
    exact inv.flowEdgesTried
  case skipped =>
    have tally := inv.skippedAgainstReport
    have length : inv.flowGraph.summary.skipped = inv.flowGraph.skipped.length := rfl
    omega
  case complete =>
    have length : inv.flowGraph.summary.skipped = inv.flowGraph.skipped.length := rfl
    rw [length, inv.noneSkipped]
    simp only [List.countP_eq_zero, decide_eq_true_eq, ← forall₂_and]

end FlowAtlas
