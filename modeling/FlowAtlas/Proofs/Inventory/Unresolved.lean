import FlowAtlas.Proofs.Inventory.Scan
/-! The report of unresolved references. It holds the references to unlisted names and nothing else, and of each
field that must name something there are as many entries as items whose field names no element. -/
namespace FlowAtlas

def Relationship.caption (r : Relationship) : String := r.callType ++ ":" ++ r.sourceType ++ "->" ++ r.targetType

inductive Refers (inv : Inventory) : UnresolvedReference → Prop
  | source {r} (listed : r ∈ inv.relationships) : Refers inv ⟨r.caption, .sourceType, r.sourceType⟩
  | target {r} (listed : r ∈ inv.relationships) : Refers inv ⟨r.caption, .targetType, r.targetType⟩
  | handled {h} (listed : h ∈ inv.handlers) (given : h.handledEventType ≠ "") :
      Refers inv ⟨h.fullName, .handledEventType, h.handledEventType⟩
  | command {h c} (listed : h ∈ inv.handlers) (sends : c ∈ h.commands) : Refers inv ⟨h.fullName, .commands, c⟩
  | domainEvent {v} (listed : v ∈ inv.integrationEventConverters) (given : v.domainEventType ≠ "") :
      Refers inv ⟨v.fullName, .domainEventType, v.domainEventType⟩
  | integrationEvent {v} (listed : v ∈ inv.integrationEventConverters) (given : v.integrationEventType ≠ "") :
      Refers inv ⟨v.fullName, .integrationEventType, v.integrationEventType⟩

namespace Inventory

section

variable {ix : Index} {referrer name : String} {field : ReferenceField} {u : UnresolvedReference}

theorem memUnresolved : u ∈ unresolved ix referrer field name ↔ u = ⟨referrer, field, name⟩ ∧ ix.isKnown name = false := by
  unfold unresolved
  split <;> rename_i known <;> simp [known]

theorem memUnresolvedOptional : u ∈ unresolvedOptional ix referrer field name ↔
    name ≠ "" ∧ u = ⟨referrer, field, name⟩ ∧ ix.isKnown name = false := by
  unfold unresolvedOptional
  split <;> rename_i given <;> simp [given, memUnresolved]

end

theorem unresolvedIff {inv : Inventory} {u : UnresolvedReference} :
    u ∈ inv.unresolvedReferences ↔ Refers inv u ∧ inv.index.isKnown u.name = false := by
  simp only [unresolvedReferences, List.mem_append, List.mem_flatMap, memUnresolved, memUnresolvedOptional]
  constructor
  · rintro ((⟨r, listed, ⟨rfl, unknown⟩ | ⟨rfl, unknown⟩⟩ | ⟨h, listed, ⟨given, rfl, unknown⟩ | ⟨c, sends, rfl, unknown⟩⟩) |
      ⟨v, listed, ⟨given, rfl, unknown⟩ | ⟨given, rfl, unknown⟩⟩)
    · exact ⟨.source listed, unknown⟩
    · exact ⟨.target listed, unknown⟩
    · exact ⟨.handled listed given, unknown⟩
    · exact ⟨.command listed sends, unknown⟩
    · exact ⟨.domainEvent listed given, unknown⟩
    · exact ⟨.integrationEvent listed given, unknown⟩
  · rintro ⟨refers, unknown⟩
    cases refers with
    | source listed => exact Or.inl (Or.inl ⟨_, listed, Or.inl ⟨rfl, unknown⟩⟩)
    | target listed => exact Or.inl (Or.inl ⟨_, listed, Or.inr ⟨rfl, unknown⟩⟩)
    | handled listed given => exact Or.inl (Or.inr ⟨_, listed, Or.inl ⟨given, rfl, unknown⟩⟩)
    | command listed sends => exact Or.inl (Or.inr ⟨_, listed, Or.inr ⟨_, sends, rfl, unknown⟩⟩)
    | domainEvent listed given => exact Or.inr ⟨_, listed, Or.inl ⟨given, rfl, unknown⟩⟩
    | integrationEvent listed given => exact Or.inr ⟨_, listed, Or.inr ⟨given, rfl, unknown⟩⟩

def unresolvedOf (inv : Inventory) (field : ReferenceField) : List UnresolvedReference :=
  inv.unresolvedReferences.filter (·.field = field)

section

variable {ix : Index} {referrer name : String} {field other : ReferenceField}

@[simp] theorem unresolvedKept :
    (unresolved ix referrer field name).filter (·.field = field) = unresolved ix referrer field name := by
  rw [List.filter_eq_self]
  intro u mem
  rw [(memUnresolved.mp mem).1]
  exact decide_eq_true rfl

@[simp] theorem unresolvedLeft (apart : field ≠ other) : (unresolved ix referrer field name).filter (·.field = other) = [] := by
  rw [List.filter_eq_nil_iff]
  intro u mem same
  rw [(memUnresolved.mp mem).1] at same
  exact apart (of_decide_eq_true same)

@[simp] theorem unresolvedOptionalLeft (apart : field ≠ other) :
    (unresolvedOptional ix referrer field name).filter (·.field = other) = [] := by
  unfold unresolvedOptional
  split
  · rfl
  · exact unresolvedLeft apart

theorem unresolvedGathered {α : Type} (ix : Index) (field : ReferenceField) (referrer name : α → String) (items : List α) :
    items.flatMap (fun x => unresolved ix (referrer x) field (name x)) =
      (items.filter fun x => !ix.isKnown (name x)).map fun x => ⟨referrer x, field, name x⟩ := by
  induction items with
  | nil => rfl
  | cons x rest ih =>
    rw [List.flatMap_cons, ih, unresolved]
    split <;> rename_i known <;> simp [known]

end

variable (inv : Inventory)

theorem unresolvedSources : inv.unresolvedOf .sourceType =
    (inv.relationships.filter fun r => !inv.index.isKnown r.sourceType).map fun r =>
      ⟨r.caption, .sourceType, r.sourceType⟩ := by
  rw [← unresolvedGathered inv.index .sourceType Relationship.caption (·.sourceType)]
  simp [unresolvedOf, unresolvedReferences, List.filter_flatMap, Relationship.caption]

theorem unresolvedTargets : inv.unresolvedOf .targetType =
    (inv.relationships.filter fun r => !inv.index.isKnown r.targetType).map fun r =>
      ⟨r.caption, .targetType, r.targetType⟩ := by
  rw [← unresolvedGathered inv.index .targetType Relationship.caption (·.targetType)]
  simp [unresolvedOf, unresolvedReferences, List.filter_flatMap, Relationship.caption]

theorem unresolvedCommands : inv.unresolvedOf .commands =
    (inv.handlerCommands.filter fun (_, c) => !inv.index.isKnown c).map fun (h, c) => ⟨h, .commands, c⟩ := by
  rw [← unresolvedGathered inv.index .commands Prod.fst Prod.snd]
  have none {α : Type} (items : List α) : (items.flatMap fun _ => ([] : List UnresolvedReference)) = [] :=
    List.flatMap_eq_nil_iff.mpr fun _ _ => rfl
  simp [unresolvedOf, unresolvedReferences, List.filter_flatMap, handlerCommands, List.flatMap_assoc, List.flatMap_map,
    none]

end Inventory

end FlowAtlas
