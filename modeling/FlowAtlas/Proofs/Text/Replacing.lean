import FlowAtlas.Proofs.Text.Parts
/-! Parts of a text replaced. A character is replaced wherever it stands, as the search from one occurrence to the
next does it. A table whose rows are carried out one after another is one substitution on single characters, as long
as no row puts in what a later row takes out again. -/
namespace FlowAtlas.Text

inductive Replaces (part by_ : List Char) : List Char → List Char → Prop where
  | none {s} (missing : splitFirst part s = none) : Replaces part by_ s s
  | next {s before after t} (cut : splitFirst part s = some (before, after)) (rest : Replaces part by_ after t) :
      Replaces part by_ s (before ++ by_ ++ t)

inductive Passes : List (Char × String) → List Char → List Char → Prop where
  | done {s} : Passes [] s s
  | row {c by_ rows s t u} (first : Replaces [c] by_.toList s t) (later : Passes rows t u) :
      Passes ((c, by_) :: rows) s u

def standsFor (rows : List (Char × String)) (c : Char) : List Char :=
  match rows.lookup c with
  | some by_ => by_.toList
  | none => [c]

def Settled (rows : List (Char × String)) : Prop := rows.Pairwise fun row later => later.1 ∉ row.2.toList

instance (rows : List (Char × String)) : Decidable (Settled rows) := inferInstanceAs (Decidable (List.Pairwise _ _))

theorem flatMapAlone {f : Char → List Char} {s : List Char} (alone : ∀ c ∈ s, f c = [c]) : s.flatMap f = s :=
  (List.flatMap_congr alone).trans (List.flatMap_singleton' s)

section

variable {c : Char} {by_ s t : List Char}

theorem replaceCharFree (free : c ∉ s) : replaceChar c by_ s = s := by
  apply flatMapAlone
  intro d mem
  rw [if_neg]
  rintro rfl
  exact free mem

theorem replaceCharCut {before after : List Char} (cut : splitFirst [c] s = some (before, after)) :
    replaceChar c by_ s = before ++ by_ ++ replaceChar c by_ after := by
  obtain rfl := splitJoins cut
  have free : c ∉ before := (clearChar c before).mp ((splitAtClear (by simp) before after).mp cut)
  have first : replaceChar c by_ before = before := replaceCharFree free
  have here : replaceChar c by_ [c] = by_ := by simp [replaceChar]
  calc replaceChar c by_ (before ++ [c] ++ after)
    _ = replaceChar c by_ before ++ replaceChar c by_ [c] ++ replaceChar c by_ after := by
      rw [replaceChar, List.flatMap_append, List.flatMap_append]
      rfl
    _ = before ++ by_ ++ replaceChar c by_ after := by rw [first, here]

theorem splitAbsent : splitFirst [c] s = none ↔ c ∉ s := by
  rw [splitMissing (by simp), List.singleton_infix_iff]

theorem replacesSound (replaced : Replaces [c] by_ s t) : t = replaceChar c by_ s := by
  induction replaced with
  | none missing => exact (replaceCharFree (splitAbsent.mp missing)).symm
  | next cut _ ih => rw [replaceCharCut cut, ih]

theorem replacesComplete (s : List Char) : Replaces [c] by_ s (replaceChar c by_ s) := by
  cases cut : splitFirst [c] s with
  | none =>
    rw [replaceCharFree (splitAbsent.mp cut)]
    exact .none cut
  | some parts =>
    obtain ⟨before, after⟩ := parts
    have shorter : after.length < s.length := by
      rw [splitJoins cut]
      simp
      omega
    rw [replaceCharCut cut]
    exact .next cut (replacesComplete after)
termination_by s.length

theorem replacesChar : Replaces [c] by_ s t ↔ t = replaceChar c by_ s :=
  ⟨replacesSound, fun same => same ▸ replacesComplete s⟩

end

section

variable {rows : List (Char × String)}

theorem passesFold {s t : List Char} :
    Passes rows s t ↔ t = rows.foldl (fun s (c, by_) => replaceChar c by_.toList s) s := by
  induction rows generalizing s with
  | nil =>
    constructor
    · rintro ⟨⟩
      rfl
    · rintro rfl
      exact .done
  | cons row rest ih =>
    rw [List.foldl_cons, ← ih]
    constructor
    · rintro (_ | ⟨first, later⟩)
      obtain rfl := replacesChar.mp first
      exact later
    · exact .row (replacesChar.mpr rfl)

theorem standsForOther {c : Char} (other : ∀ row ∈ rows, row.1 ≠ c) : standsFor rows c = [c] := by
  have none : rows.lookup c = none := List.lookup_eq_none_iff.mpr fun row mem => by simpa using (other row mem).symm
  rw [standsFor, none]

theorem standsForFirst {c : Char} {by_ : String} (kept : ∀ row ∈ rows, row.1 ∉ by_.toList) (d : Char) :
    (if d = c then by_.toList else [d]).flatMap (standsFor rows) = standsFor ((c, by_) :: rows) d := by
  by_cases same : d = c
  · subst same
    have first : standsFor ((d, by_) :: rows) d = by_.toList := by simp [standsFor]
    rw [if_pos rfl, first]
    apply flatMapAlone
    intro e mem
    apply standsForOther
    rintro row listed rfl
    exact kept row listed mem
  · have missed : (d == c) = false := by simpa using same
    rw [if_neg same, List.flatMap_singleton, standsFor, standsFor, List.lookup_cons, missed]

/- By the table: each row meets only characters of the text itself, since no row before has put in one of its own. -/
theorem replacedAtOnce (settled : Settled rows) (s : List Char) :
    rows.foldl (fun s (c, by_) => replaceChar c by_.toList s) s = s.flatMap (standsFor rows) := by
  induction rows generalizing s with
  | nil => exact (flatMapAlone fun _ _ => rfl).symm
  | cons row rest ih =>
    obtain ⟨c, by_⟩ := row
    obtain ⟨kept, later⟩ := List.pairwise_cons.mp settled
    calc ((c, by_) :: rest).foldl (fun s (c, by_) => replaceChar c by_.toList s) s
      _ = (replaceChar c by_.toList s).flatMap (standsFor rest) := ih later _
      _ = s.flatMap fun d => (if d = c then by_.toList else [d]).flatMap (standsFor rest) := List.flatMap_assoc
      _ = s.flatMap (standsFor ((c, by_) :: rest)) := List.flatMap_congr fun d _ => standsForFirst kept d

example : ¬ Settled [('a', "b"), ('b', "c")] ∧ Passes [('a', "b"), ('b', "c")] ['a'] ['c'] ∧
    ['a'].flatMap (standsFor [('a', "b"), ('b', "c")]) = ['b'] :=
  ⟨by decide, passesFold.mpr (by decide), by decide⟩

end

end FlowAtlas.Text
