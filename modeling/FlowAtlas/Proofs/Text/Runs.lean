import FlowAtlas.Text.Segment
import Mathlib.Data.List.Infix
import Mathlib.Data.String.Basic
/-! Runs of characters inside texts. A run lies on one side of a character that it does not hold; and where every
character of a text stands for itself or gives way to others that the run does not hold, the run stays where it is. -/
namespace FlowAtlas.Text

section

variable {run s t : List Char}

theorem prefixApart {c : Char} (absent : c ∉ run) : run <+: s ++ c :: t ↔ run <+: s := by
  induction run generalizing s with
  | nil => simp
  | cons k run ih =>
    rw [List.mem_cons, not_or] at absent
    cases s with
    | nil => simp [List.cons_prefix_cons, Ne.symm absent.1]
    | cons d s => rw [List.cons_append, List.cons_prefix_cons, List.cons_prefix_cons, ih absent.2]

theorem infixApart {c : Char} (absent : c ∉ run) (some : run ≠ []) :
    run <:+: s ++ c :: t ↔ run <:+: s ∨ run <:+: t := by
  induction s with
  | nil =>
    have starts : ¬ run <+: c :: t := by
      intro starts
      have none := (prefixApart (s := []) absent).mp starts
      exact some (List.prefix_nil.mp none)
    rw [List.nil_append, List.infix_cons_iff, List.infix_nil]
    simp [starts, some]
  | cons d s ih =>
    have starts : run <+: d :: (s ++ c :: t) ↔ run <+: d :: s := prefixApart (s := d :: s) absent
    rw [List.cons_append, List.infix_cons_iff, List.infix_cons_iff, ih, starts, or_assoc]

theorem infixAfter {block : List Char} (some : run ≠ []) (other : ∀ c ∈ block, run.head? ≠ .some c) :
    run <:+: block ++ s ↔ run <:+: s := by
  induction block with
  | nil => rfl
  | cons d rest ih =>
    obtain ⟨here, later⟩ := List.forall_mem_cons.mp other
    obtain ⟨k, more, rfl⟩ := List.exists_cons_of_ne_nil some
    have apart : k ≠ d := fun same => here (congrArg _ same)
    rw [List.cons_append, List.infix_cons_iff, List.cons_prefix_cons, ih later]
    simp [apart]

theorem joinedInfix {c : Char} (absent : c ∉ run) (some : run ≠ []) (lines : List String) :
    run <:+: (joinTexts (String.singleton c) lines).toList ↔ ∃ l ∈ lines, run <:+: l.toList := by
  induction lines with
  | nil => simp [joinTexts, some]
  | cons l rest ih =>
    cases rest with
    | nil => simp [joinTexts]
    | cons next more =>
      have split : (joinTexts (String.singleton c) (l :: next :: more)).toList =
          l.toList ++ c :: (joinTexts (String.singleton c) (next :: more)).toList := by
        rw [joinTexts, String.intercalate_cons_cons, String.toList_append, String.toList_append]
        simp [joinTexts]
      rw [split, infixApart absent some, ih]
      simp

end

def Expands (kept : Char → Bool) (expand : Char → List Char) (c : Char) : Prop :=
  expand c = [c] ∨ kept c = false ∧ expand c ≠ [] ∧ ∀ d ∈ expand c, kept d = false

section

variable {kept : Char → Bool} {expand : Char → List Char} {run s tail : List Char}

theorem expandedPrefix (all : ∀ c ∈ run, kept c = true) (each : ∀ c ∈ s, Expands kept expand c) :
    run <+: s.flatMap expand ++ tail ↔ run <+: s ++ tail := by
  induction s generalizing run with
  | nil => rfl
  | cons c rest ih =>
    obtain ⟨here, later⟩ := List.forall_mem_cons.mp each
    cases run with
    | nil => simp
    | cons k more =>
      obtain ⟨first, others⟩ := List.forall_mem_cons.mp all
      rcases here with same | ⟨lost, some, gone⟩
      · rw [List.flatMap_cons, same, List.append_assoc, List.singleton_append, List.cons_append,
          List.cons_prefix_cons, List.cons_prefix_cons, ih others later]
      · obtain ⟨d, after, shape⟩ := List.exists_cons_of_ne_nil some
        have apart : ∀ e, kept e = false → k ≠ e := by
          rintro e none rfl
          rw [first] at none
          cases none
        have replaced := apart d (gone d (shape ▸ List.mem_cons_self))
        simp only [List.flatMap_cons, shape, List.cons_append, List.cons_prefix_cons, apart c lost, replaced, false_and]

theorem expandedInfix (some : run ≠ []) (all : ∀ c ∈ run, kept c = true) (each : ∀ c ∈ s, Expands kept expand c) :
    run <:+: s.flatMap expand ++ tail ↔ run <:+: s ++ tail := by
  induction s with
  | nil => rfl
  | cons c rest ih =>
    have starts : run <+: (c :: rest).flatMap expand ++ tail ↔ run <+: c :: rest ++ tail := expandedPrefix all each
    obtain ⟨here, later⟩ := List.forall_mem_cons.mp each
    rcases here with same | ⟨lost, -, gone⟩
    · rw [List.flatMap_cons, same, List.append_assoc, List.singleton_append] at starts ⊢
      rw [List.cons_append, List.infix_cons_iff, List.infix_cons_iff, ih later, starts, List.cons_append]
    · have other : ∀ d, kept d = false → run.head? ≠ .some d := by
        intro d none first
        rw [all d (List.mem_of_head? first)] at none
        cases none
      have single : run <:+: [c] ++ (rest ++ tail) ↔ run <:+: rest ++ tail :=
        infixAfter some fun d mem => other d (List.mem_singleton.mp mem ▸ lost)
      rw [List.flatMap_cons, List.append_assoc, infixAfter some fun d mem => other d (gone d mem), ih later]
      exact single.symm

end

end FlowAtlas.Text
