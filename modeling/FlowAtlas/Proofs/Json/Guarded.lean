import Mathlib.Data.List.Infix
import FlowAtlas.Json.Reader
import FlowAtlas.Json.Writer
/-! The backslash between `<` and `/`. It leaves no closing tag in any text, stays inside the strings of a written
document, and a string that is read again has lost it. -/
namespace FlowAtlas.Json

theorem guardEmpty : guardClosing [] = [] := rfl

theorem guardPair (rest : List Char) : guardClosing ('<' :: '/' :: rest) = '<' :: '\\' :: '/' :: guardClosing rest :=
  rfl

theorem guardOther {c : Char} (other : c ≠ '<') (rest : List Char) :
    guardClosing (c :: rest) = c :: guardClosing rest := by
  rw [guardClosing]
  intro more same
  exact absurd same other

theorem guardAngle {rest : List Char} (apart : rest.head? ≠ some '/') :
    guardClosing ('<' :: rest) = '<' :: guardClosing rest := by
  rw [guardClosing]
  rintro more - rfl
  exact apart rfl

theorem guardHead (s : List Char) : (guardClosing s).head? = s.head? := by
  fun_cases guardClosing s <;> rfl

theorem guardMem {c : Char} {s : List Char} (mem : c ∈ guardClosing s) : c = '\\' ∨ c ∈ s := by
  fun_induction guardClosing s with
  | case1 rest ih =>
    simp only [List.mem_cons] at mem ⊢
    tauto
  | case2 x rest _ ih =>
    simp only [List.mem_cons] at mem ⊢
    tauto
  | case3 => cases mem

theorem guardUnclosed (s : List Char) : ¬ ['<', '/'] <:+: guardClosing s := by
  fun_induction guardClosing s with
  | case1 rest ih => simpa [List.infix_cons_iff] using ih
  | case2 x rest single ih =>
    rw [List.infix_cons_iff, List.cons_prefix_cons]
    rintro (⟨rfl, starts⟩ | later)
    · have head := guardHead rest
      cases rest with
      | nil => simp [guardEmpty] at starts
      | cons y more =>
        obtain ⟨tail, same⟩ := starts
        rw [← same] at head
        exact single more rfl (by simpa using head.symm)
    · exact ih later
  | case3 => simp

/- The guard looks at two neighbours only, so a text may be cut before any other character. -/
theorem guardApart {c : Char} (slash : c ≠ '/') (angle : c ≠ '<') (before after : List Char) :
    guardClosing (before ++ c :: after) = guardClosing before ++ c :: guardClosing after := by
  fun_induction guardClosing before with
  | case1 rest ih => simp only [List.cons_append, guardPair, ih]
  | case2 x rest single ih =>
    rw [List.cons_append, List.cons_append, ← ih]
    by_cases open_ : x = '<'
    · subst open_
      apply guardAngle
      cases rest with
      | nil => simpa using slash
      | cons y more =>
        intro same
        exact single more rfl (by simpa using same)
    · exact guardOther open_ _
  | case3 => exact guardOther angle after

theorem guardFree {before : List Char} (free : '<' ∉ before) (after : List Char) :
    guardClosing (before ++ after) = before ++ guardClosing after := by
  induction before with
  | nil => rfl
  | cons c rest ih =>
    rw [List.mem_cons, not_or] at free
    rw [List.cons_append, guardOther (Ne.symm free.1), ih free.2, List.cons_append]

def Printed (s : List Char) : Prop := ∀ c ∈ s, 0x20 ≤ c.toNat

instance (s : List Char) : Decidable (Printed s) := List.decidableBAll _ s

def escapeLetters : List Char := "\"\\nrtbfu0123456789abcdef".toList

theorem lettersPrinted {s : List Char} (letters : s ⊆ escapeLetters) : Printed s :=
  fun c mem => (show Printed escapeLetters by decide) c (letters mem)

theorem shortShape {c e : Char} (short : shortEscape? c = some e) :
    simpleEscape? e = some c ∧ e ≠ 'u' ∧ e ∈ escapeLetters := by
  unfold shortEscape? at short
  split at short <;> cases short <;> decide

theorem unitShape : ∀ n < 0x20, ∃ a b c d, Text.hexDigits 4 n = [a, b, c, d] ∧ hex4? a b c d = some n ∧
    [a, b, c, d] ⊆ escapeLetters := by
  intro n small
  refine ⟨_, _, _, _, rfl, ?_⟩
  revert n
  decide

theorem plainShape {c : Char} (long : shortEscape? c = none) : c ≠ '"' ∧ c ≠ '\\' := by
  constructor <;> rintro rfl <;> cases long

theorem escapeShape (c : Char) : (escapeRaw c = [c] ∧ 0x20 ≤ c.toNat) ∨
    ∃ tail, escapeRaw c = '\\' :: tail ∧ tail ⊆ escapeLetters := by
  unfold escapeRaw
  split
  · rename_i e short
    exact Or.inr ⟨[e], rfl, by simpa using (shortShape short).2.2⟩
  · split
    · rename_i small
      obtain ⟨a, b, x, y, digits, -, letters⟩ := unitShape c.toNat small
      rw [unitEscape, digits]
      exact Or.inr ⟨_, rfl, List.cons_subset.mpr ⟨by decide, letters⟩⟩
    · rename_i plain
      exact Or.inl ⟨rfl, Nat.le_of_not_lt plain⟩

theorem escapePrinted (c : Char) : Printed (escapeRaw c) := by
  rcases escapeShape c with ⟨same, plain⟩ | ⟨tail, same, letters⟩
  · rw [same]
    simpa [Printed] using plain
  · rw [same]
    exact List.forall_mem_cons.mpr ⟨by decide, lettersPrinted letters⟩

theorem escapeAngle {c : Char} (other : c ≠ '<') : '<' ∉ escapeRaw c := by
  rcases escapeShape c with ⟨same, -⟩ | ⟨tail, same, letters⟩
  · rw [same, List.mem_singleton]
    exact other.symm
  · rw [same, List.mem_cons, not_or]
    exact ⟨by decide, fun angle => absurd (letters angle) (by decide)⟩

theorem escapeHead {c : Char} {tail : List Char} (slash : (escapeRaw c ++ tail).head? = some '/') : c = '/' := by
  rcases escapeShape c with ⟨same, -⟩ | ⟨rest, same, -⟩
  · rw [same] at slash
    exact Option.some.inj slash
  · rw [same] at slash
    cases slash

/- Escaping moves neither an angle nor the slash behind it, so the guard acts as on the text itself. -/
theorem guardEscaped {c : Char} {rest : List Char} (single : ∀ more, c = '<' → rest = '/' :: more → False) :
    guardClosing (escapeRaw c ++ rest.flatMap escapeRaw) = escapeRaw c ++ guardClosing (rest.flatMap escapeRaw) := by
  by_cases angle : c = '<'
  · subst angle
    apply guardAngle
    cases rest with
    | nil => simp
    | cons y more =>
      intro slash
      rw [List.flatMap_cons] at slash
      obtain rfl := escapeHead slash
      exact single more rfl rfl
  · exact guardFree (escapeAngle angle) _

theorem readSimple {e c : Char} (unit : e ≠ 'u') (simple : simpleEscape? e = some c) (opened : Nat)
    (done tail : List Char) : readString opened done ('\\' :: e :: tail) = readString opened (c :: done) tail := by
  rw [readString]
  · simp only [simple]
  · intro same
    exact unit same

theorem readUnit {c a b x y : Char} (value : hex4? a b x y = some c.toNat) (small : c.toNat < 0x20) (opened : Nat)
    (done : List Char) (d : Char) (rest : List Char) :
    readString opened done ('\\' :: 'u' :: a :: b :: x :: y :: d :: rest) =
      readString opened (c :: done) (d :: rest) := by
  have unit : unicodeEscape (a :: b :: x :: y :: d :: rest) = .ok (c, d :: rest) := by
    have high : ¬ (0xD800 ≤ c.toNat ∧ c.toNat ≤ 0xDBFF) := by omega
    have valid : c.toNat.isValidChar := c.valid
    simp only [unicodeEscape, value, if_neg high, if_pos valid, Char.ofNat_toNat]
  rw [readString]
  split
  · rename_i stop refused
    rw [unit] at refused
    cases refused
  · rename_i c' after read
    rw [unit] at read
    cases read
    rfl

theorem readEscaped (opened : Nat) (done : List Char) (c : Char) {tail : List Char} (more : tail ≠ []) :
    readString opened done (escapeRaw c ++ tail) = readString opened (c :: done) tail := by
  unfold escapeRaw
  split
  · rename_i e short
    obtain ⟨simple, unit, -⟩ := shortShape short
    exact readSimple unit simple opened done tail
  · rename_i long
    split
    · rename_i small
      obtain ⟨a, b, x, y, digits, value, -⟩ := unitShape c.toNat small
      obtain ⟨d, rest, rfl⟩ := List.exists_cons_of_ne_nil more
      rw [unitEscape, digits]
      exact readUnit value small opened done d rest
    · rename_i plain
      obtain ⟨quote, slash⟩ := plainShape long
      rw [List.singleton_append, readString, if_neg plain]
      · exact quote
      all_goals
        intros
        exact slash ‹c = '\\'›

theorem readGuarded (opened : Nat) (done s tail : List Char) :
    readString opened done (guardClosing (s.flatMap escapeRaw) ++ '"' :: tail) = .ok (done.reverse ++ s, tail) := by
  fun_induction guardClosing s generalizing done with
  | case1 rest ih =>
    have cut : guardClosing (('<' :: '/' :: rest).flatMap escapeRaw) =
        escapeRaw '<' ++ '\\' :: '/' :: guardClosing (rest.flatMap escapeRaw) := rfl
    rw [cut, List.append_assoc, readEscaped opened done '<' (by simp), List.cons_append, List.cons_append,
      readSimple (by decide) rfl, ih]
    simp
  | case2 c rest single ih =>
    rw [List.flatMap_cons, guardEscaped single, List.append_assoc, readEscaped opened done c (by simp), ih]
    simp
  | case3 =>
    rw [List.flatMap_nil, guardEmpty, List.nil_append, readString, List.append_nil]

end FlowAtlas.Json
