import FlowAtlas.Schema.View
import Mathlib.Data.List.Forall2
/-! Checks that differ in the places of their issues only. All ways of putting checks together keep two checks
alike when their parts are. -/
namespace FlowAtlas.Schema

variable {α β γ : Type}

namespace Checked

inductive Alike : Checked α → Checked α → Prop
  | good (value : α) : Alike (.good value) (.good value)
  | refused {issues others : List Issue} (same : issues.map (·.fault) = others.map (·.fault)) :
      Alike (.refused issues) (.refused others)

namespace Alike

variable {a b : Checked α}

theorem refl (a : Checked α) : Alike a a := by
  cases a with
  | good value => exact .good value
  | refused issues => exact .refused rfl

theorem map (f : α → β) (alike : Alike a b) : Alike (f <$> a) (f <$> b) := by
  cases alike with
  | good value => exact .good (f value)
  | refused same => exact .refused same

theorem seq {f g : Checked (α → β)} (first : Alike f g) (second : Alike a b) : Alike (f <*> a) (g <*> b) := by
  cases first with
  | good f =>
    cases second with
    | good value => exact .good (f value)
    | refused same => exact .refused same
  | refused same =>
    cases second with
    | good value => exact .refused same
    | refused more =>
      apply refused
      rw [List.map_append, List.map_append, same, more]

theorem within (one other : Step) (alike : Alike a b) : Alike (a.within one) (b.within other) := by
  cases alike with
  | good value => exact .good value
  | refused same =>
    apply refused
    rw [List.map_map, List.map_map]
    exact same

theorem items {R : α → α → Prop} {check : α → Checked β} (each : ∀ v w, R v w → Alike (check v) (check w))
    {values others : List α} (pairs : List.Forall₂ R values others) (first : Nat) :
    Alike (Checked.items check first values) (Checked.items check first others) := by
  induction pairs generalizing first with
  | nil => exact .good []
  | cons here later ih => exact (((each _ _ here).within _ _).map List.cons).seq (ih (first + 1))

end Alike

end Checked

open Checked (Alike)

inductive Found (R : α → α → Prop) : Option (String × α) → Option (String × α) → Prop
  | missing : Found R none none
  | present {key other : String} {value another : α} (related : R value another) :
      Found R (some (key, value)) (some (other, another))

section

variable {R : α → α → Prop} {name : FieldName} {check : α → Checked β} {fields others : List (String × α)}

theorem requiredAlike (found : Found R (name.find fields) (name.find others))
    (each : ∀ v w, R v w → Alike (check v) (check w)) :
    Alike (required name check fields) (required name check others) := by
  unfold required
  generalize name.find fields = one at found
  generalize name.find others = other at found
  cases found with
  | missing => exact .refused rfl
  | present related => exact (each _ _ related).within _ _

theorem optionalAlike (default : β) (found : Found R (name.find fields) (name.find others))
    (each : ∀ v w, R v w → Alike (check v) (check w)) :
    Alike (optional name default check fields) (optional name default check others) := by
  unfold optional
  generalize name.find fields = one at found
  generalize name.find others = other at found
  cases found with
  | missing => exact .good default
  | present related => exact (each _ _ related).within _ _

end

end FlowAtlas.Schema
