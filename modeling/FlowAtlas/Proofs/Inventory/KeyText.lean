import FlowAtlas.Inventory.Key
import FlowAtlas.Proofs.Text.Parts
import Mathlib.Data.String.Basic
/-! Keys and their texts. The separator is one character twice, so a type that ends in a colon moves the place at
which the text is cut, and a separator with nothing behind it is lost. -/
namespace FlowAtlas

namespace Text

structure FirstAt (part s : List Char) (place : Nat) : Prop where
  here : part <+: s.drop place
  earlier : ∀ before < place, ¬ part <+: s.drop before

section

variable {sep s before after : List Char}

theorem FirstAt.unique {place other : Nat} (one : FirstAt sep s place) (two : FirstAt sep s other) :
    place = other := by
  rcases Nat.lt_trichotomy place other with less | same | more
  · exact absurd one.here (two.earlier place less)
  · exact same
  · exact absurd two.here (one.earlier other more)

theorem splitFirstAt (cut : splitFirst sep s = some (before, after)) : FirstAt sep s before.length := by
  induction s generalizing before with
  | nil =>
    simp only [splitFirst, List.isEmpty_iff, Option.ite_none_right_eq_some] at cut
    obtain ⟨rfl, same⟩ := cut
    cases same
    exact ⟨List.nil_prefix, by simp⟩
  | cons c rest ih =>
    rw [splitFirst] at cut
    split at cut
    · rename_i starts
      cases cut
      exact ⟨List.isPrefixOf_iff_prefix.mp starts, by simp⟩
    · rename_i later
      rw [List.isPrefixOf_iff_prefix] at later
      obtain ⟨⟨head, tail⟩, found, same⟩ := Option.map_eq_some_iff.mp cut
      cases same
      have first := ih found
      refine ⟨first.here, fun place less => ?_⟩
      cases place with
      | zero => exact later
      | succ place => exact first.earlier place (Nat.lt_of_succ_lt_succ less)

theorem clearDouble (c : Char) (text : List Char) : Clear [c, c] text ↔ ¬ [c, c] <:+: text ∧ ¬ [c] <:+ text := by
  have ends : [c, c] <:+ text ++ [c] ↔ [c] <:+ text := by
    rw [List.suffix_concat_iff]
    constructor
    · rintro (none | ⟨first, split, suffix⟩)
      · cases none
      · obtain ⟨rfl, _⟩ := List.append_inj' (show [c] ++ [c] = first ++ [c] from split) rfl
        exact suffix
    · exact fun suffix => Or.inr ⟨[c], rfl, suffix⟩
  rw [Clear, List.dropLast_cons_cons, List.dropLast_singleton, List.infix_concat_iff, ends, not_or, and_comm]

end

end Text

namespace Key

variable {s : String} {before after : List Char}

theorem parseCut (cut : Text.splitFirst separator.toList s.toList = some (before, after)) :
    parse s = ⟨String.ofList before, String.ofList after⟩ := by
  rw [parse, cut]

theorem parseWhole (missing : Text.splitFirst separator.toList s.toList = none) : parse s = ⟨s, ""⟩ := by
  rw [parse, missing]

theorem textWhole (typeName : String) : text ⟨typeName, ""⟩ = typeName := if_pos rfl

theorem textJoined {method : String} (named : method ≠ "") (typeName : String) :
    (text ⟨typeName, method⟩).toList = typeName.toList ++ separator.toList ++ method.toList := by
  rw [text, if_neg named, String.toList_append, String.toList_append]

theorem separatorSome : separator.toList ≠ [] := by decide

theorem joinsCut (cut : Text.splitFirst separator.toList s.toList = some (before, after)) :
    s = String.ofList before ++ separator ++ String.ofList after := by
  rw [← String.toList_inj, Text.splitJoins cut]
  simp

theorem wholeReadBack (typeName : String) :
    parse (text ⟨typeName, ""⟩) = ⟨typeName, ""⟩ ↔ ¬ separator.toList <:+: typeName.toList := by
  rw [textWhole, ← Text.splitMissing separatorSome]
  constructor
  · intro same
    by_contra cut
    obtain ⟨⟨before, after⟩, cut⟩ := Option.ne_none_iff_exists'.mp cut
    rw [parseCut cut, Key.mk.injEq, String.ofList_eq] at same
    have joined := congrArg List.length (Text.splitJoins cut)
    have longer := List.length_pos_iff.mpr separatorSome
    rw [List.length_append, List.length_append, same.1] at joined
    omega
  · exact parseWhole

theorem methodReadBack {method : String} (named : method ≠ "") (typeName : String) :
    parse (text ⟨typeName, method⟩) = ⟨typeName, method⟩ ↔ Text.Clear separator.toList typeName.toList := by
  rw [← Text.splitAtClear separatorSome typeName.toList method.toList, ← textJoined named]
  constructor
  · intro same
    cases cut : Text.splitFirst separator.toList (text ⟨typeName, method⟩).toList with
    | none =>
      rw [parseWhole cut, Key.mk.injEq] at same
      exact absurd same.2.symm named
    | some parts =>
      rw [parseCut cut, Key.mk.injEq, String.ofList_eq, String.ofList_eq] at same
      rw [← same.1, ← same.2]
  · intro cut
    rw [parseCut cut, String.ofList_toList, String.ofList_toList]

theorem textReadBack (s : String) : (parse s).text = s ↔
    ¬ ∃ place, Text.FirstAt separator.toList s.toList place ∧ place + 2 = s.length := by
  cases cut : Text.splitFirst separator.toList s.toList with
  | none =>
    rw [parseWhole cut, textWhole]
    refine iff_of_true rfl ?_
    rintro ⟨place, first, -⟩
    exact (Text.splitMissing separatorSome).mp cut (first.here.isInfix.trans (List.drop_suffix _ _).isInfix)
  | some parts =>
    obtain ⟨before, after⟩ := parts
    have first := Text.splitFirstAt cut
    have joined := congrArg String.length (joinsCut cut)
    rw [String.length_append, String.length_append, String.length_ofList, String.length_ofList] at joined
    have two : separator.length = 2 := rfl
    rw [parseCut cut]
    by_cases last : after = []
    · subst last
      rw [List.length_nil] at joined
      refine iff_of_false (fun same => ?_) (not_not.mpr ⟨before.length, first, by omega⟩)
      have shorter := congrArg String.length ((textWhole _).symm.trans same)
      rw [String.length_ofList] at shorter
      omega
    · have named : String.ofList after ≠ "" := by
        rwa [Ne, String.ofList_eq_empty_iff]
      refine iff_of_true ?_ ?_
      · rw [text, if_neg named, ← joinsCut cut]
      · rintro ⟨place, other, ends⟩
        have same := first.unique other
        have more := List.length_pos_iff.mpr last
        omega

theorem keysReadBack :
    (∀ typeName method, parse (text ⟨typeName, method⟩) = ⟨typeName, method⟩ ↔
      ¬ separator.toList <:+: typeName.toList ∧ (method ≠ "" → ¬ [':'] <:+ typeName.toList)) ∧
    ∀ s, (parse s).text = s ↔
      ¬ ∃ place, Text.FirstAt separator.toList s.toList place ∧ place + 2 = s.length := by
  refine ⟨fun typeName method => ?_, textReadBack⟩
  by_cases named : method = ""
  · subst named
    simpa using wholeReadBack typeName
  · have doubled : separator.toList = [':', ':'] := rfl
    rw [methodReadBack named, doubled, Text.clearDouble]
    simp [named]

example : parse (text ⟨"Shop:", "Post"⟩) = ⟨"Shop", ":Post"⟩ := by decide

end Key

end FlowAtlas
