import FlowAtlas.Text.Segment
import Mathlib.Data.List.DropRight
import Mathlib.Data.List.Infix
/-! Texts taken apart again: at the first separator, at the last one, and at line ends. -/
namespace FlowAtlas.Text

theorem occursInIff {part s : List Char} : occursIn part s = true ↔ part <:+: s := by
  induction s with
  | nil => simp [occursIn]
  | cons c rest ih => rw [occursIn, Bool.or_eq_true, ih, List.isPrefixOf_iff_prefix, List.infix_cons_iff]

theorem containsIff {text part : String} : containsText text part = true ↔ part.toList <:+: text.toList :=
  occursInIff

section

variable {sep : Char}

theorem afterLastFree {s : List Char} (free : sep ∉ s) : afterLast sep s = s := by
  refine List.rtakeWhile_eq_self_iff.mpr ?_
  intro c mem
  simpa using fun same : c = sep => free (same ▸ mem)

theorem afterLastCut (before : List Char) {after : List Char} (free : sep ∉ after) :
    afterLast sep (before ++ sep :: after) = after := by
  have none : ∀ c ∈ after.reverse, decide (c ≠ sep) = true := by
    intro c mem
    simpa using fun same : c = sep => free (same ▸ List.mem_reverse.mp mem)
  rw [afterLast, List.reverse_append, List.reverse_cons, List.append_assoc, List.takeWhile_append_of_pos none]
  simp

theorem cutAtLast {s : List Char} (mem : sep ∈ s) : ∃ before after, s = before ++ sep :: after ∧ sep ∉ after := by
  obtain ⟨after, before, split, free⟩ := List.eq_append_cons_of_mem (List.mem_reverse.mpr mem)
  refine ⟨before.reverse, after.reverse, ?_, by simpa using free⟩
  rw [← List.reverse_reverse s, split]
  simp

theorem afterLastShorter (before : List Char) {s : List Char} (mem : sep ∈ s) :
    (afterLast sep (before ++ s)).length < s.length := by
  obtain ⟨first, after, rfl, free⟩ := cutAtLast mem
  rw [← List.append_assoc, afterLastCut _ free, List.length_append, List.length_cons]
  omega

end

/-- The separator does not begin within the text, so a text that goes on with it is cut just there. -/
def Clear (sep text : List Char) : Prop := ¬ sep <:+: text ++ sep.dropLast

instance (sep text : List Char) : Decidable (Clear sep text) := inferInstanceAs (Decidable (¬ _))

section

variable {sep : List Char}

theorem clearEmpty (nonempty : sep ≠ []) : Clear sep [] := by
  intro inside
  have short := inside.length_le
  have some := List.length_pos_iff.mpr nonempty
  rw [List.nil_append, List.length_dropLast] at short
  omega

/- One character is dropped from the separator, so what starts with the text's first one ends inside. -/
theorem startsWithin (c : Char) (rest after : List Char) :
    sep <+: c :: (rest ++ sep ++ after) ↔ sep <+: c :: (rest ++ sep.dropLast) := by
  have whole : c :: (rest ++ sep.dropLast) <+: c :: (rest ++ sep ++ after) := by
    rw [List.append_assoc, List.cons_prefix_cons, List.prefix_append_right_inj]
    exact ⟨rfl, (List.dropLast_prefix sep).trans (List.prefix_append sep after)⟩
  constructor
  · intro starts
    apply List.prefix_of_prefix_length_le starts whole
    rw [List.length_cons, List.length_append, List.length_dropLast]
    omega
  · intro starts
    exact starts.trans whole

theorem clearCons (c : Char) (rest : List Char) :
    Clear sep (c :: rest) ↔ ¬ sep <+: c :: (rest ++ sep.dropLast) ∧ Clear sep rest := by
  rw [Clear, Clear, List.cons_append, List.infix_cons_iff, not_or]

theorem splitAtClear (nonempty : sep ≠ []) (text after : List Char) :
    splitFirst sep (text ++ sep ++ after) = some (text, after) ↔ Clear sep text := by
  induction text with
  | nil =>
    obtain ⟨c, rest, rfl⟩ := List.exists_cons_of_ne_nil nonempty
    have starts : (c :: rest).isPrefixOf (c :: (rest ++ after)) = true := by
      rw [List.isPrefixOf_iff_prefix]
      exact List.prefix_append (c :: rest) after
    have cut : splitFirst (c :: rest) ([] ++ (c :: rest) ++ after) = some ([], after) := by
      simp [splitFirst, starts]
    exact iff_of_true cut (clearEmpty nonempty)
  | cons c rest ih =>
    rw [clearCons, ← startsWithin c rest after, ← ih, List.cons_append, List.cons_append, splitFirst]
    generalize rest ++ sep ++ after = whole
    by_cases starts : sep <+: c :: whole
    · simp [starts]
    · simp [starts]

theorem splitJoins {s before after : List Char} (cut : splitFirst sep s = some (before, after)) :
    s = before ++ sep ++ after := by
  induction s generalizing before with
  | nil =>
    simp only [splitFirst, List.isEmpty_iff, Option.ite_none_right_eq_some] at cut
    obtain ⟨rfl, same⟩ := cut
    cases same
    rfl
  | cons c rest ih =>
    rw [splitFirst] at cut
    split at cut
    · rename_i starts
      obtain ⟨more, same⟩ := List.isPrefixOf_iff_prefix.mp starts
      cases cut
      rw [← same, List.drop_left, List.nil_append]
    · obtain ⟨⟨head, tail⟩, found, same⟩ := Option.map_eq_some_iff.mp cut
      cases same
      rw [ih found, List.cons_append, List.cons_append]

theorem cutAtClear (nonempty : sep ≠ []) (text after : List Char) :
    (splitFirst sep (text ++ sep ++ after)).map (·.1) = some text ↔ Clear sep text := by
  rw [← splitAtClear nonempty text after, Option.map_eq_some_iff]
  constructor
  · rintro ⟨⟨before, rest⟩, cut, rfl⟩
    obtain rfl := List.append_cancel_left (splitJoins cut)
    exact cut
  · intro cut
    exact ⟨_, cut, rfl⟩

theorem splitMissing {s : List Char} (some : sep ≠ []) : splitFirst sep s = none ↔ ¬ sep <:+: s := by
  induction s with
  | nil => simp [splitFirst, some]
  | cons c rest ih =>
    rw [splitFirst, List.infix_cons_iff, not_or, ← ih, ← List.isPrefixOf_iff_prefix]
    split <;> simp [*]

theorem clearChar (c : Char) (text : List Char) : Clear [c] text ↔ c ∉ text := by
  rw [Clear, List.dropLast_singleton, List.append_nil, List.singleton_infix_iff]

end

def OneLine (s : String) : Prop := '\n' ∉ s.toList ∧ '\r' ∉ s.toList

instance (s : String) : Decidable (OneLine s) := inferInstanceAs (Decidable (_ ∧ _))

theorem OneLine.append {s t : String} (first : OneLine s) (second : OneLine t) : OneLine (s ++ t) := by
  constructor
  · rw [String.toList_append, List.mem_append, not_or]
    exact ⟨first.1, second.1⟩
  · rw [String.toList_append, List.mem_append, not_or]
    exact ⟨first.2, second.2⟩

theorem digitsOnly (n : Nat) : ∀ c ∈ (toString n).toList, c.isDigit = true := by
  intro c mem
  rw [Nat.toString_eq_repr, Nat.toList_repr] at mem
  exact Nat.isDigit_of_mem_toDigits (by decide) (by decide) mem

theorem numberInjective {m n : Nat} (same : toString m = toString n) : m = n := by
  have digits := congrArg String.toList same
  simp only [Nat.toString_eq_repr, Nat.toList_repr] at digits
  rw [← Nat.ofDigitChars_ten_toDigits (n := m), digits, Nat.ofDigitChars_ten_toDigits]

theorem signFree (m n : Nat) : toString m ≠ "-" ++ toString n := by
  intro same
  have sign : '-' ∈ (toString m).toList := by
    rw [same, String.toList_append]
    exact List.mem_append_left _ (by decide)
  cases digitsOnly m _ sign

theorem integerInjective {i j : Int} (same : toString i = toString j) : i = j := by
  cases i with
  | ofNat m =>
    cases j with
    | ofNat n => exact congrArg Int.ofNat (numberInjective same)
    | negSucc n => exact absurd same (signFree m (n + 1))
  | negSucc m =>
    cases j with
    | ofNat n => exact absurd same.symm (signFree n (m + 1))
    | negSucc n =>
      have digits : toString (m + 1) = toString (n + 1) := (String.append_right_inj "-").mp same
      rw [Nat.succ.inj (numberInjective digits)]

theorem OneLine.number (n : Nat) : OneLine (toString n) := by
  constructor
  · intro mem
    cases digitsOnly n _ mem
  · intro mem
    cases digitsOnly n _ mem

theorem OneLine.integer (i : Int) : OneLine (toString i) := by
  cases i with
  | ofNat n => exact .number n
  | negSucc n => exact .append (s := "-") (by decide) (.number (n + 1))

theorem OneLine.joined {parts : List String} (each : ∀ p ∈ parts, OneLine p) : OneLine (joinTexts "," parts) := by
  induction parts with
  | nil => decide
  | cons p rest ih =>
    obtain ⟨here, later⟩ := List.forall_mem_cons.mp each
    cases rest with
    | nil => simpa [joinTexts] using here
    | cons q more =>
      rw [joinTexts, String.intercalate_cons_cons]
      exact (here.append (by decide)).append (ih later)

/- A line feed after each line: the last piece of the split is empty. -/
theorem linesSplit {lines : List String} (some : lines ≠ []) (each : ∀ l ∈ lines, OneLine l) :
    (joinTexts "\n" lines ++ "\n").toList.splitOn '\n' = lines.map (·.toList) ++ [[]] := by
  have joined : (joinTexts "\n" lines ++ "\n").toList = ['\n'].intercalate (lines.map (·.toList) ++ [[]]) := by
    rw [joinTexts, String.toList_append, String.toList_intercalate]
    induction lines with
    | nil => exact absurd rfl some
    | cons l rest ih =>
      cases rest with
      | nil => simp
      | cons k more =>
        have later := ih (by simp) (fun x mem => each x (List.mem_cons_of_mem l mem))
        simp only [List.map_cons, List.cons_append, List.intercalate_cons_cons, List.append_assoc] at later ⊢
        rw [later]
        rfl
  rw [joined]
  apply List.splitOn_intercalate
  · intro line mem
    rcases List.mem_append.mp mem with inside | last
    · obtain ⟨l, listed, rfl⟩ := List.mem_map.mp inside
      exact (each l listed).1
    · rw [List.mem_singleton.mp last]
      exact List.not_mem_nil
  · simp

end FlowAtlas.Text
