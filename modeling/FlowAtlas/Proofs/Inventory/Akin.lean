import FlowAtlas.Proofs.Inventory.Spelling
import FlowAtlas.Proofs.Schema.Alike
/-! Documents that no check of an inventory tells apart: wherever one of them has a field, the other has it too,
and what the two find there differs only in what is not read. -/
namespace FlowAtlas

open Schema (Checked FieldName listOf)
open Schema.Checked (Alike)

/-- Nothing that is read at this spot tells the two values apart; their keys have small first letters. -/
inductive Akin : Spot → Json → Json → Prop
  | same {spot} (v : Json) : Akin spot v v
  | array {spot : Spot} {v w : Json} (akin : Akin spot.item v w) (before after : List Json) :
      Akin spot (.array (before ++ v :: after)) (.array (before ++ w :: after))
  | object {spot : Spot} {fields others : List (String × Json)}
      (present : ∀ f ∈ spot.fields, (f.1.find fields).isSome = (f.1.find others).isSome)
      (values : ∀ f ∈ spot.fields, ∀ e, f.1.find fields = some e → ∀ e', f.1.find others = some e' → Akin f.2 e.2 e'.2) :
      Akin spot (.object fields) (.object others)

def Agree (spot : Spot) (fields others : List (String × Json)) : Prop :=
  ∀ f ∈ spot.fields, Schema.Found (Akin f.2) (f.1.find fields) (f.1.find others)

namespace Agree

variable {row : Row} {fields others : List (String × Json)} {name : FieldName} {α : Type} {check : Json → Checked α}

theorem required (agree : Agree (.row row) fields others) (field : name ∈ row.fields)
    (each : ∀ v w, Akin .plain v w → Alike (check v) (check w)) :
    Alike (Schema.required name check fields) (Schema.required name check others) :=
  Schema.requiredAlike (agree (name, .plain) (List.mem_map_of_mem field)) each

theorem optional (agree : Agree (.row row) fields others) (field : name ∈ row.fields) (default : α)
    (each : ∀ v w, Akin .plain v w → Alike (check v) (check w)) :
    Alike (Schema.optional name default check fields) (Schema.optional name default check others) :=
  Schema.optionalAlike default (agree (name, .plain) (List.mem_map_of_mem field)) each

end Agree

namespace Akin

variable {spot : Spot} {α : Type}

-- The constructor cannot say this itself: the relation would stand inside `Found` at a spot that varies.
theorem agree {fields others : List (String × Json)}
    (present : ∀ f ∈ spot.fields, (f.1.find fields).isSome = (f.1.find others).isSome)
    (values : ∀ f ∈ spot.fields, ∀ e, f.1.find fields = some e → ∀ e', f.1.find others = some e' → Akin f.2 e.2 e'.2) :
    Agree spot fields others := by
  intro f field
  have together := present f field
  have related := values f field
  generalize f.1.find fields = one at together related
  generalize f.1.find others = other at together related
  cases one with
  | none =>
    cases other with
    | none => exact .missing
    | some e' => cases together
  | some e =>
    cases other with
    | none => cases together
    | some e' => exact .present (related e rfl e' rfl)

theorem plainAlike {check : Json → Checked α} (lists : ∀ items others, Alike (check (.array items)) (check (.array others)))
    (objects : ∀ fields others, Alike (check (.object fields)) (check (.object others))) (v w : Json)
    (akin : Akin spot v w) : Alike (check v) (check w) := by
  cases akin with
  | same v => exact .refl _
  | array => exact lists _ _
  | object => exact objects _ _

theorem textAlike (v w : Json) (akin : Akin spot v w) : Alike (Schema.text v) (Schema.text w) :=
  plainAlike (fun _ _ => .refused rfl) (fun _ _ => .refused rfl) v w akin

theorem boolAlike (v w : Json) (akin : Akin spot v w) : Alike (Schema.bool v) (Schema.bool w) :=
  plainAlike (fun _ _ => .refused rfl) (fun _ _ => .refused rfl) v w akin

theorem listAlike {check : Json → Checked α} (each : ∀ v w, Akin spot.item v w → Alike (check v) (check w))
    (v w : Json) (akin : Akin spot v w) : Alike (listOf check v) (listOf check w) := by
  cases akin with
  | same v => exact .refl _
  | object => exact .refused rfl
  | array akin before after =>
    refine Alike.items each ?_ 0
    exact List.rel_append (List.forall₂_same.mpr fun v _ => .same v)
      (.cons akin (List.forall₂_same.mpr fun v _ => .same v))

theorem textsAlike (v w : Json) (akin : Akin .plain v w) :
    Alike (listOf Schema.text v) (listOf Schema.text w) := by
  have each : ∀ v w, Akin Spot.plain.item v w → Alike (Schema.text v) (Schema.text w) := textAlike
  exact listAlike each v w akin

theorem objectAlike {expected : String} {check : List (String × Json) → Checked α}
    (each : ∀ fields others, Agree spot fields others → Alike (check fields) (check others))
    (v w : Json) (akin : Akin spot v w) :
    Alike (Schema.object expected check v) (Schema.object expected check w) := by
  cases akin with
  | same v => exact .refl _
  | array => exact .refused rfl
  | object present values => exact each _ _ (agree present values)

end Akin

open Akin (textAlike boolAlike listAlike textsAlike objectAlike)

theorem Element.fieldsAlike {row : Row} {fields others : List (String × Json)} (agree : Agree (.row row) fields others)
    (name : Field.name ∈ row.fields) (fullName : Field.fullName ∈ row.fields) :
    Alike (Element.checkFields fields) (Element.checkFields others) :=
  ((agree.required name textAlike).map Element.mk).seq (agree.required fullName textAlike)

theorem Element.checkAlike (expected : String) :
    ∀ v w, Akin (.row .element) v w → Alike (Element.check expected v) (Element.check expected w) :=
  objectAlike fun _ _ agree => Element.fieldsAlike agree (by decide) (by decide)

theorem Controller.checkAlike : ∀ v w, Akin (.row .controller) v w → Alike (Controller.check v) (Controller.check w) := by
  apply objectAlike
  intro fields others agree
  exact ((Element.fieldsAlike agree (by decide) (by decide)).map Controller.mk).seq
    (agree.optional (by decide) [] textsAlike)

theorem Entity.checkAlike : ∀ v w, Akin (.row .entity) v w → Alike (Entity.check v) (Entity.check w) := by
  apply objectAlike
  intro fields others agree
  exact (((Element.fieldsAlike agree (by decide) (by decide)).map Entity.mk).seq
    (agree.optional (by decide) false boolAlike)).seq
    (agree.optional (by decide) [] textsAlike)

theorem Handler.checkAlike (expected : String) :
    ∀ v w, Akin (.row .handler) v w → Alike (Handler.check expected v) (Handler.check expected w) := by
  apply objectAlike
  intro fields others agree
  exact (((Element.fieldsAlike agree (by decide) (by decide)).map Handler.mk).seq
    (agree.optional (by decide) "" textAlike)).seq
    (agree.optional (by decide) [] textsAlike)

theorem Converter.checkAlike : ∀ v w, Akin (.row .converter) v w → Alike (Converter.check v) (Converter.check w) := by
  apply objectAlike
  intro fields others agree
  exact (((Element.fieldsAlike agree (by decide) (by decide)).map Converter.mk).seq
    (agree.optional (by decide) "" textAlike)).seq
    (agree.optional (by decide) "" textAlike)

theorem Relationship.checkAlike :
    ∀ v w, Akin (.row .relationship) v w → Alike (Relationship.check v) (Relationship.check w) := by
  apply objectAlike
  intro fields others agree
  exact (((((agree.required (by decide) textAlike).map Relationship.mk).seq
    (agree.optional (by decide) "" textAlike)).seq
    (agree.required (by decide) textAlike)).seq
    (agree.optional (by decide) "" textAlike)).seq
    (agree.required (by decide) textAlike)

theorem Agree.collection {fields others : List (String × Json)} {name : FieldName} {row : Row} {α : Type}
    {check : Json → Checked α} (agree : Agree .document fields others)
    (field : (name, .collection row) ∈ Spot.document.fields)
    (each : ∀ v w, Akin (.row row) v w → Alike (check v) (check w)) :
    Alike (Schema.optional name [] (listOf check) fields) (Schema.optional name [] (listOf check) others) :=
  Schema.optionalAlike [] (agree _ field) (listAlike each)

theorem Inventory.fieldsAlike {fields others : List (String × Json)} (agree : Agree .document fields others) :
    Alike (Inventory.checkFields fields) (Inventory.checkFields others) :=
  (((((((((agree.collection (by decide) Controller.checkAlike).map Inventory.mk).seq
    (agree.collection (by decide) (Element.checkAlike _))).seq
    (agree.collection (by decide) Entity.checkAlike)).seq
    (agree.collection (by decide) (Element.checkAlike _))).seq
    (agree.collection (by decide) (Element.checkAlike _))).seq
    (agree.collection (by decide) (Handler.checkAlike _))).seq
    (agree.collection (by decide) (Handler.checkAlike _))).seq
    (agree.collection (by decide) Converter.checkAlike)).seq
    (agree.collection (by decide) Relationship.checkAlike)

end FlowAtlas
