import FlowAtlas.Proofs.Inventory.Akin
import Mathlib.Logic.Relation
/-! Whether a document is accepted, and what is wrong with it, does not depend on the spelling and the order of
its keys, nor on keys that spell no field. -/
namespace FlowAtlas

open Schema (FieldName Fault)

inductive FieldsOnce : Spot → Json → Prop
  | null {spot} : FieldsOnce spot .null
  | bool {spot b} : FieldsOnce spot (.bool b)
  | int {spot i} : FieldsOnce spot (.int i)
  | float {spot x} : FieldsOnce spot (.float x)
  | text {spot s} : FieldsOnce spot (.text s)
  | array {spot : Spot} {items} (each : ∀ v ∈ items, FieldsOnce spot.item v) : FieldsOnce spot (.array items)
  | object {spot : Spot} {fields} (once : ∀ f ∈ spot.fields, (f.1.entries fields).length ≤ 1)
      (values : ∀ f ∈ spot.fields, ∀ e ∈ f.1.entries fields, FieldsOnce f.2 e.2) :
      FieldsOnce spot (.object fields)

/-- One change to a document: to a key of one of its objects, to the order of the keys, or within a value. A key
that spells a field becomes any other that does, such as one of its three spellings (`Spelling.spells`). Inside a
value whose key spells no field anything can be done, by taking it out and putting it back changed. -/
inductive Edited : Spot → Json → Json → Prop
  | respelled {spot : Spot} {f} (field : f ∈ spot.fields) {key other : String} (spelled : f.1.SpelledBy key)
      (spells : f.1.SpelledBy other) (before : List (String × Json)) (v : Json) (after : List (String × Json)) :
      Edited spot (.object (before ++ (key, v) :: after)) (.object (before ++ (other, v) :: after))
  | reordered {spot : Spot} {fields others} (same : fields.Perm others) : Edited spot (.object fields) (.object others)
  | added {spot : Spot} {key : String} (extra : ∀ f ∈ spot.fields, ¬ f.1.SpelledBy key)
      (before : List (String × Json)) (v : Json) (after : List (String × Json)) :
      Edited spot (.object (before ++ after)) (.object (before ++ (key, v) :: after))
  | removed {spot : Spot} {key : String} (extra : ∀ f ∈ spot.fields, ¬ f.1.SpelledBy key)
      (before : List (String × Json)) (v : Json) (after : List (String × Json)) :
      Edited spot (.object (before ++ (key, v) :: after)) (.object (before ++ after))
  | value {spot : Spot} {f} (field : f ∈ spot.fields) {key : String} (spelled : f.1.SpelledBy key) {v w : Json}
      (edited : Edited f.2 v w) (before after : List (String × Json)) :
      Edited spot (.object (before ++ (key, v) :: after)) (.object (before ++ (key, w) :: after))
  | item {spot : Spot} {v w : Json} (edited : Edited spot.item v w) (before after : List Json) :
      Edited spot (.array (before ++ v :: after)) (.array (before ++ w :: after))

section

variable {f : FieldName} {fields others : List (String × Json)} {R : String × Json → String × Json → Prop}

theorem changedEntry (refl : ∀ e, R e e) {e e' : String × Json} (spelled : f.SpelledBy e.1 ↔ f.SpelledBy e'.1)
    (related : f.SpelledBy e.1 → R e e') (before after : List (String × Json)) :
    List.Forall₂ R (f.entries (before ++ e :: after)) (f.entries (before ++ e' :: after)) := by
  have same : ∀ fields : List (String × Json), List.Forall₂ R (f.entries fields) (f.entries fields) :=
    fun fields => List.forall₂_same.mpr fun e _ => refl e
  unfold FieldName.entries at same ⊢
  rw [List.filter_append, List.filter_append]
  refine List.rel_append (same before) ?_
  by_cases spells : f.SpelledBy e.1
  · rw [List.filter_cons_of_pos (by simpa using spells), List.filter_cons_of_pos (by simpa using spelled.mp spells)]
    exact .cons (related spells) (same after)
  · rw [List.filter_cons_of_neg (by simpa using spells),
      List.filter_cons_of_neg (by simpa using mt spelled.mpr spells)]
    exact same after

theorem extraEntry {key : String} (extra : ¬ f.SpelledBy key) (before : List (String × Json)) (v : Json)
    (after : List (String × Json)) : f.entries (before ++ (key, v) :: after) = f.entries (before ++ after) := by
  simp [FieldName.entries, extra]

theorem reorderedEntry (same : fields.Perm others) (once : (f.entries fields).length ≤ 1) :
    f.entries fields = f.entries others := by
  have entries : (f.entries fields).Perm (f.entries others) := same.filter _
  cases found : f.entries fields with
  | nil =>
    rw [found] at entries
    exact entries.nil_eq
  | cons e rest =>
    rw [found] at once entries
    have single : rest = [] := List.length_eq_zero_iff.mp (Nat.le_zero.mp (Nat.le_of_succ_le_succ once))
    subst rest
    exact List.singleton_perm.mp entries

theorem pairedEntries {α : Type} {R : α → α → Prop} {entries others : List α} (pairs : List.Forall₂ R entries others)
    (once : entries.length ≤ 1) :
    entries = [] ∧ others = [] ∨ ∃ e e', entries = [e] ∧ others = [e'] ∧ R e e' := by
  cases pairs with
  | nil => exact .inl ⟨rfl, rfl⟩
  | cons here later =>
    cases later with
    | nil => exact .inr ⟨_, _, rfl, rfl, here⟩
    | cons => simp at once

end

def Kept (spot : Spot) (v w : Json) : Prop :=
  FieldsOnce spot v → FieldsOnce spot w ∧ Akin spot v.lowerKeys w.lowerKeys

namespace Kept

variable {spot : Spot} {v w : Json} {fields others : List (String × Json)}

theorem refl (v : Json) : Kept spot v v := fun apart => ⟨apart, .same _⟩

/- What is found of a field is its only entry, before and after; so entries that correspond field by field will do. -/
theorem object (entries : (∀ f ∈ spot.fields, (f.1.entries fields).length ≤ 1) → ∀ f ∈ spot.fields,
      List.Forall₂ (fun e e' => Kept f.2 e.2 e'.2) (f.1.entries fields) (f.1.entries others)) :
    Kept spot (.object fields) (.object others) := by
  intro apart
  cases apart with
  | object once values =>
    have pairs := entries once
    have onceOthers : ∀ f ∈ spot.fields, (f.1.entries others).length ≤ 1 :=
      fun f field => (pairs f field).length_eq ▸ once f field
    constructor
    · refine .object onceOthers ?_
      intro f field e' mem
      have values := values f field
      obtain ⟨_, none⟩ | ⟨e, e₁, here, there, kept⟩ := pairedEntries (pairs f field) (once f field)
      · rw [none] at mem
        cases mem
      · rw [there, List.mem_singleton] at mem
        subst mem
        exact (kept (values e (here ▸ List.mem_singleton_self e))).1
    · refine .object ?_ ?_
      · intro f field
        rw [f.1.foundEntry (once f field), f.1.foundEntry (onceOthers f field), Option.isSome_map, Option.isSome_map]
        obtain ⟨here, there⟩ | ⟨e, e₁, here, there, _⟩ := pairedEntries (pairs f field) (once f field)
        · rw [here, there]
        · rw [here, there]
          rfl
      · intro f field e found e' found'
        rw [f.1.foundEntry (once f field)] at found
        rw [f.1.foundEntry (onceOthers f field)] at found'
        have values := values f field
        obtain ⟨here, there⟩ | ⟨e₀, e₁, here, there, kept⟩ := pairedEntries (pairs f field) (once f field)
        · rw [here] at found
          cases found
        · rw [here] at found
          rw [there] at found'
          cases found
          cases found'
          exact (kept (values e₀ (here ▸ List.mem_singleton_self e₀))).2

theorem sameEntries (same : (∀ f ∈ spot.fields, (f.1.entries fields).length ≤ 1) →
      ∀ f ∈ spot.fields, f.1.entries fields = f.1.entries others) :
    Kept spot (.object fields) (.object others) := by
  apply object
  intro once f field
  rw [← same once f field]
  exact List.forall₂_same.mpr fun e _ => refl e.2

theorem item (kept : Kept spot.item v w) (before after : List Json) :
    Kept spot (.array (before ++ v :: after)) (.array (before ++ w :: after)) := by
  intro apart
  cases apart with
  | array each =>
    obtain ⟨apart, akin⟩ := kept (each v (by simp))
    constructor
    · refine .array ?_
      intro x mem
      rcases List.mem_append.mp mem with mem | mem
      · exact each x (List.mem_append_left _ mem)
      · rcases List.mem_cons.mp mem with rfl | mem
        · exact apart
        · exact each x (List.mem_append_right _ (List.mem_cons_of_mem _ mem))
    · simp only [Json.lowerKeys, Json.lowerKeysItems, List.map_append, List.map_cons]
      exact akin.array _ _

end Kept

theorem Edited.kept {spot : Spot} {v w : Json} (edited : Edited spot v w) : Kept spot v w := by
  induction edited with
  | respelled field spelled spells before v after =>
    apply Kept.object
    intro _ g mem
    refine changedEntry (fun e => .refl e.2) ⟨fun one => ?_, fun one => ?_⟩ (fun _ => .refl v) before after
    · rwa [Spot.spelledOnce mem field one spelled]
    · rwa [Spot.spelledOnce mem field one spells]
  | reordered same => exact Kept.sameEntries fun once g mem => reorderedEntry same (once g mem)
  | added extra before v after => exact Kept.sameEntries fun _ g mem => (extraEntry (extra g mem) before v after).symm
  | removed extra before v after => exact Kept.sameEntries fun _ g mem => extraEntry (extra g mem) before v after
  | value field spelled edited before after ih =>
    apply Kept.object
    intro _ g mem
    refine changedEntry (fun e => .refl e.2) ?_ (fun one => ?_) before after
    · exact Iff.rfl
    · rw [Spot.spelledOnce mem field one spelled]
      exact ih
  | item edited before after ih => exact ih.item before after

def DocumentFault.faults : DocumentFault → List Fault
  | notObject _ => []
  | invalid issues => issues.map (·.fault)

theorem DocumentFault.messageCounts {issues others : List Schema.Issue}
    (same : (invalid issues).faults = (invalid others).faults) : (invalid issues).message = (invalid others).message := by
  have shown : ∀ issues, (invalid issues).message =
      "Invalid analysis result: " ++ toString issues.length ++ " validation error(s)" := fun _ => rfl
  have count : issues.length = others.length := by
    simpa [faults] using congrArg List.length same
  rw [shown, shown, count]

namespace Inventory

def verdict (document : Json) : Except (String × List Fault) Inventory :=
  (ofJson document).mapError fun fault => (fault.message, fault.faults)

theorem sameVerdict {d e : Json} (akin : Akin .document d.lowerKeys e.lowerKeys) : verdict d = verdict e := by
  unfold verdict ofJson
  generalize d.lowerKeys = v at akin
  generalize e.lowerKeys = w at akin
  cases akin with
  | same v => rfl
  | array => rfl
  | @object _ fields others present values =>
    have alike := fieldsAlike (Akin.agree present values)
    simp only
    generalize checkFields fields = one at alike
    generalize checkFields others = other at alike
    cases alike with
    | good inv => rfl
    | refused same =>
      have faults : (DocumentFault.invalid _).faults = (DocumentFault.invalid _).faults := same
      simp only [Except.mapError]
      rw [faults, DocumentFault.messageCounts faults]

theorem editsKept {d e : Json} (apart : FieldsOnce .document d) (edits : Relation.ReflTransGen (Edited .document) d e) :
    FieldsOnce .document e ∧ verdict d = verdict e := by
  induction edits with
  | refl => exact ⟨apart, rfl⟩
  | tail _ edited ih =>
    obtain ⟨apart, akin⟩ := edited.kept ih.1
    exact ⟨apart, ih.2.trans (sameVerdict akin)⟩

theorem verdictOk {d : Json} {inv : Inventory} : verdict d = .ok inv ↔ ofJson d = .ok inv := by
  unfold verdict
  cases ofJson d <;> simp [Except.mapError]

theorem spellingIrrelevant {d e : Json} (apart : FieldsOnce .document d)
    (edits : Relation.ReflTransGen (Edited .document) d e) :
    (∀ inv, ofJson d = .ok inv ↔ ofJson e = .ok inv) ∧
      ∀ fault other, ofJson d = .error fault → ofJson e = .error other →
        fault.faults = other.faults ∧ fault.message = other.message := by
  have same := (editsKept apart edits).2
  constructor
  · intro inv
    rw [← verdictOk, ← verdictOk, same]
  · intro fault other refused likewise
    unfold verdict at same
    rw [refused, likewise] at same
    obtain ⟨message, faults⟩ := Prod.mk.inj (Except.error.inj same)
    exact ⟨faults, message⟩

def capitalised (methods : Json) : Json :=
  .object [("Controllers", .array [.object [("FullName", .text "Shop.Cart"), ("Methods", methods), ("name", .text "Cart")]]),
    ("version", .int 2)]

def respelled (methods : Json) : Json :=
  .object [("controllers", .array [.object [("name", .text "Cart"), ("full_name", .text "Shop.Cart"), ("methods", methods)]])]

theorem controllersField : (Field.controllers, Spot.collection .controller) ∈ Spot.document.fields := by decide

theorem capitalisedApart {methods : Json} (plain : FieldsOnce .plain methods) :
    FieldsOnce .document (capitalised methods) := by
  have document : ∀ f ∈ Spot.document.fields,
      (["Controllers", "version"].countP fun key => f.1.SpelledBy key) ≤ 1 := by decide +kernel
  have controller : ∀ f ∈ (Spot.row .controller).fields,
      (["FullName", "Methods", "name"].countP fun key => f.1.SpelledBy key) ≤ 1 := by decide +kernel
  have capital : Field.controllers.SpelledBy "Controllers" := by decide +kernel
  refine .object (fun f field => ?_) (fun f field e mem => ?_)
  · rw [FieldName.entriesCount]
    exact document f field
  · obtain ⟨mem, spelled⟩ := FieldName.entriesMem.mp mem
    rcases List.mem_pair.mp mem with rfl | rfl
    · rw [Spot.spelledOnce field controllersField spelled capital]
      refine .array (List.forall_mem_singleton.mpr (.object (fun f field => ?_) (fun f field e mem => ?_)))
      · rw [FieldName.entriesCount]
        exact controller f field
      · obtain ⟨name, _, rfl⟩ := List.mem_map.mp field
        rcases List.mem_cons.mp (FieldName.entriesMem.mp mem).1 with rfl | mem
        · exact .text
        · rcases List.mem_pair.mp mem with rfl | rfl
          · exact plain
          · exact .text
    · exact .int

theorem capitalisedRespelled (methods : Json) :
    Relation.ReflTransGen (Edited .document) (capitalised methods) (respelled methods) := by
  have extra : ∀ f ∈ Spot.document.fields, ¬ f.1.SpelledBy "version" := by decide +kernel
  have capital : Field.controllers.SpelledBy "Controllers" := by decide +kernel
  have small : Field.controllers.SpelledBy "controllers" := by decide +kernel
  have fullName : Field.fullName.SpelledBy "FullName" ∧ Field.fullName.SpelledBy "full_name" := by decide +kernel
  have label : Field.methods.SpelledBy "Methods" ∧ Field.methods.SpelledBy "methods" := by decide +kernel
  have inRow {v w : Json} (edited : Edited (.row .controller) v w) :
      Edited .document (.object [("controllers", .array [v])]) (.object [("controllers", .array [w])]) :=
    .value controllersField small (@Edited.item (.collection .controller) v w edited [] []) [] []
  have field {f : FieldName} (mem : f ∈ Row.controller.fields) : (f, Spot.plain) ∈ (Spot.row .controller).fields :=
    List.mem_map_of_mem mem
  refine .head (.removed extra [_] (.int 2) []) ?_
  refine .head (.respelled controllersField capital small [] _ []) ?_
  refine .head (inRow (.respelled (field (by decide)) fullName.1 fullName.2 [] _ _)) ?_
  refine .head (inRow (.respelled (field (by decide)) label.1 label.2 [_] methods [_])) ?_
  exact .single (inRow (.reordered (@List.perm_append_comm _ [_, _] [_])))

theorem respelledRead :
    ofJson (respelled (.texts ["Get"])) = .ok { controllers := [⟨⟨"Cart", "Shop.Cart"⟩, ["Get"]⟩] } ∧
      ∀ fault, ofJson (respelled (.text "Get")) = .error fault →
        fault.faults = [.notList] ∧ fault.message = "Invalid analysis result: 1 validation error(s)" := by
  constructor
  · have texts : FieldsOnce .plain (.texts ["Get"]) := .array (List.forall_mem_singleton.mpr .text)
    exact ((spellingIrrelevant (capitalisedApart texts) (capitalisedRespelled _)).1 _).mp rfl
  · intro fault refused
    have same := (spellingIrrelevant (capitalisedApart .text) (capitalisedRespelled (.text "Get"))).2 _ fault rfl refused
    exact ⟨same.1.symm, same.2.symm⟩

end Inventory

end FlowAtlas
