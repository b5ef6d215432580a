import FlowAtlas.Inventory.Merge
import FlowAtlas.Proofs.Inventory.Scan
/-! Merging is first-wins concatenation. To absorb an inventory that is itself a merge is to absorb its parts one by
one, so it makes no difference how inventories are bracketed, and a name keeps the first category that any part lists
it under. -/
namespace FlowAtlas.Inventory

open Selection (addNew firsts unrepeated)

theorem absorbAssoc (a b c : Inventory) : absorb a (absorb b c) = absorb (absorb a b) c := by
  simp only [absorb, Selection.addAdded]

theorem absorbTwice (a b : Inventory) : absorb (absorb a b) b = absorb a b := by
  simp only [absorb, Selection.addAllTwice]

theorem absorbEmpty (a : Inventory) : absorb a {} = a := rfl

theorem mergeSnoc (invs : List Inventory) (inv : Inventory) : merge (invs ++ [inv]) = absorb (merge invs) inv := by
  rw [merge, List.foldl_append]
  rfl

theorem absorbMerge (a : Inventory) (invs : List Inventory) : absorb a (merge invs) = invs.foldl absorb a := by
  induction invs using List.reverseRecOn with
  | nil => exact absorbEmpty a
  | append_singleton invs inv ih => rw [mergeSnoc, absorbAssoc, ih, List.foldl_append, List.foldl_cons, List.foldl_nil]

theorem mergeAppend (xs ys : List Inventory) : merge (xs ++ ys) = absorb (merge xs) (merge ys) := by
  rw [absorbMerge, merge, List.foldl_append, merge]

theorem mergeMerge (xs : List Inventory) : merge [merge xs] = merge xs := absorbMerge {} xs

theorem mergeParts (xs ys : List Inventory) : merge [merge xs, merge ys] = merge (xs ++ ys) := by
  calc merge [merge xs, merge ys] = absorb (merge [merge xs]) (merge ys) := rfl
    _ = absorb (merge xs) (merge ys) := by rw [mergeMerge]
    _ = merge (xs ++ ys) := (mergeAppend xs ys).symm

theorem mergeTwice (a : Inventory) : merge [a, a] = merge [a] := absorbTwice {} a

theorem mergeEmpty (xs ys : List Inventory) : merge (xs ++ {} :: ys) = merge (xs ++ ys) := by
  have first : merge ({} :: ys) = merge ys := rfl
  rw [mergeAppend, first, mergeAppend]

theorem emptyIff (inv : Inventory) : inv.isEmpty = true ↔ inv = {} := by
  obtain ⟨controllers, commands, entities, domainEvents, integrationEvents, domainHandlers, integrationHandlers,
    converters, relationships⟩ := inv
  simp [isEmpty, elements, listed, Category.all, and_assoc, and_comm, and_left_comm]

section

variable {α β : Type} [DecidableEq β]

theorem partGathered (part : Inventory → List α) (mark : α → β) (start : part {} = [])
    (step : ∀ acc inv, part (absorb acc inv) = (part inv).foldl (addNew mark) (part acc)) (invs : List Inventory) :
    part (merge invs) = unrepeated mark (invs.flatMap part) := by
  rw [← Selection.firstsUnrepeated, firsts]
  induction invs using List.reverseRecOn with
  | nil => exact start
  | append_singleton invs inv ih =>
    rw [mergeSnoc, step, ih, List.flatMap_append, List.foldl_append, List.flatMap_cons, List.flatMap_nil,
      List.append_nil]

end

def namesOf (inv : Inventory) (c : Category) : List String := (inv.listed c).map (·.fullName)

theorem absorbNames (c : Category) (acc inv : Inventory) :
    (absorb acc inv).namesOf c = (inv.namesOf c).foldl (addNew id) (acc.namesOf c) := by
  cases c <;> simp [namesOf, listed, absorb, Function.comp_def, Selection.addAllMarks]

theorem mergeNames (invs : List Inventory) (c : Category) (name : String) :
    name ∈ (merge invs).namesOf c ↔ ∃ inv ∈ invs, name ∈ inv.namesOf c := by
  have start : ({} : Inventory).namesOf c = [] := by cases c <;> rfl
  rw [partGathered (·.namesOf c) id start (absorbNames c), ← Selection.firstsUnrepeated, Selection.firstsMem,
    List.mem_flatMap]

theorem categoryFirst (inv : Inventory) (name : String) :
    inv.index.categoryOf name = Category.all.find? fun c => name ∈ inv.namesOf c := by
  rw [categoryScan, elements]
  induction Category.all with
  | nil => rfl
  | cons c rest ih =>
    rw [List.flatMap_cons, List.find?_append, List.find?_cons]
    cases found : (inv.listed c).find? fun e => e.fullName = name with
    | none =>
      have absent : name ∉ inv.namesOf c := by simpa [namesOf] using found
      simpa [absent] using ih
    | some e =>
      have mem := List.mem_of_find?_eq_some found
      have named : e.fullName = name := by simpa using List.find?_some found
      have present : name ∈ inv.namesOf c := named ▸ List.mem_map_of_mem mem
      simp [present, listedCategory mem]

theorem mergeCategory (invs : List Inventory) (name : String) : (merge invs).index.categoryOf name =
    Category.all.find? fun c => invs.any fun inv => (inv.listed c).any fun e => e.fullName = name := by
  rw [categoryFirst]
  congr 1
  funext c
  rw [Bool.eq_iff_iff, decide_eq_true_eq, mergeNames]
  simp [namesOf]

def relationshipFields (r : Relationship) : String × String × String × String × String :=
  (r.sourceType, r.sourceMethod, r.targetType, r.targetMethod, r.callType)

theorem fieldsInjective : Function.Injective relationshipFields := by
  rintro ⟨_, _, _, _, _⟩ ⟨_, _, _, _, _⟩ same
  cases same
  rfl

structure Joined (invs : List Inventory) (merged : Inventory) : Prop where
  controllers : merged.controllers = unrepeated (·.fullName) (invs.flatMap (·.controllers))
  commands : merged.commands = unrepeated (·.fullName) (invs.flatMap (·.commands))
  entities : merged.entities = unrepeated (·.fullName) (invs.flatMap (·.entities))
  domainEvents : merged.domainEvents = unrepeated (·.fullName) (invs.flatMap (·.domainEvents))
  integrationEvents : merged.integrationEvents = unrepeated (·.fullName) (invs.flatMap (·.integrationEvents))
  domainEventHandlers : merged.domainEventHandlers = unrepeated (·.fullName) (invs.flatMap (·.domainEventHandlers))
  integrationEventHandlers :
    merged.integrationEventHandlers = unrepeated (·.fullName) (invs.flatMap (·.integrationEventHandlers))
  integrationEventConverters :
    merged.integrationEventConverters = unrepeated (·.fullName) (invs.flatMap (·.integrationEventConverters))
  relationships : merged.relationships = unrepeated relationshipFields (invs.flatMap (·.relationships))
  category : ∀ name, merged.index.categoryOf name =
    Category.all.find? fun c => invs.any fun inv => (inv.listed c).any fun e => e.fullName = name

theorem mergeJoined (invs : List Inventory) : Joined invs (merge invs) := by
  constructor
  case controllers => exact partGathered (·.controllers) (·.fullName) rfl (fun _ _ => rfl) invs
  case commands => exact partGathered (·.commands) (·.fullName) rfl (fun _ _ => rfl) invs
  case entities => exact partGathered (·.entities) (·.fullName) rfl (fun _ _ => rfl) invs
  case domainEvents => exact partGathered (·.domainEvents) (·.fullName) rfl (fun _ _ => rfl) invs
  case integrationEvents => exact partGathered (·.integrationEvents) (·.fullName) rfl (fun _ _ => rfl) invs
  case domainEventHandlers => exact partGathered (·.domainEventHandlers) (·.fullName) rfl (fun _ _ => rfl) invs
  case integrationEventHandlers =>
    exact partGathered (·.integrationEventHandlers) (·.fullName) rfl (fun _ _ => rfl) invs
  case integrationEventConverters =>
    exact partGathered (·.integrationEventConverters) (·.fullName) rfl (fun _ _ => rfl) invs
  case relationships =>
    refine partGathered (·.relationships) relationshipFields rfl (fun acc inv => ?_) invs
    rw [Selection.addNewInjective fieldsInjective]
    rfl
  case category => exact mergeCategory invs

structure FirstWins (merged : List Inventory → Inventory) : Prop where
  joined : ∀ invs, Joined invs (merged invs)
  parts : ∀ xs ys, merged [merged xs, merged ys] = merged (xs ++ ys)
  whole : ∀ xs, merged [merged xs] = merged xs
  twice : ∀ inv, merged [inv, inv] = merged [inv]
  empty : ∀ xs ys, merged (xs ++ ({} : Inventory) :: ys) = merged (xs ++ ys)
  nothing : ∀ inv : Inventory, inv.isEmpty = true ↔ inv = {}

theorem mergeFirstWins : FirstWins merge := by
  constructor
  case joined => exact mergeJoined
  case parts => exact mergeParts
  case whole => exact mergeMerge
  case twice => exact mergeTwice
  case empty => exact mergeEmpty
  case nothing => exact emptyIff

end FlowAtlas.Inventory
