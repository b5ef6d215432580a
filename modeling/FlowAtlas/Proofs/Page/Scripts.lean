import FlowAtlas.Proofs.Json.Occurrence
import FlowAtlas.Text.LowerCase
/-! Where a script element ends. Its content goes on to a closing tag; but once the tag of a script is met in a comment,
the next closing tag belongs to the content too, unless the comment ends before. These are the script data states of
HTML, told by what the rest of a page starts with. -/
namespace FlowAtlas.Page

open Json (commentOpening)

inductive ScriptState
  | plain
  | commented
  | nested
  deriving DecidableEq, Repr

def commentEnd : List Char := "-->".toList

def openingTag : List Char := "<script".toList

def closingTag : List Char := "</script".toList

def nameEnds : List Char := ['\t', '\n', '\x0c', ' ', '/', '>']

def startsTag (tag s : List Char) : Bool := nameEnds.any fun c => (tag ++ [c]).isPrefixOf (Text.lowerAscii s)

namespace ScriptState

def turn (state : ScriptState) (s : List Char) : ScriptState :=
  match state with
  | plain => if commentOpening.isPrefixOf s then commented else plain
  | commented => if commentEnd.isPrefixOf s then plain else if startsTag openingTag s then nested else commented
  | nested => if commentEnd.isPrefixOf s then plain else if startsTag closingTag s then commented else nested

def after (state : ScriptState) : List Char → ScriptState
  | [] => state
  | c :: rest => (state.turn (c :: rest)).after rest

def ending (state : ScriptState) : List Char → Option (List Char)
  | [] => none
  | c :: rest =>
    if state ≠ nested ∧ startsTag closingTag (c :: rest) = true then some (c :: rest)
    else (state.turn (c :: rest)).ending rest

end ScriptState

def HoldsTag (s : List Char) : Prop := ∃ t, t <:+ s ∧ startsTag openingTag t = true

/-- From some point on a comment is open that does not end and holds the tag of a script. -/
def LeftOpen (s : List Char) : Prop :=
  ∃ t, t <:+ s ∧ commentOpening <+: t ∧ ¬ commentEnd <:+: t ∧ HoldsTag t

section

variable {c : Char} {s t tag : List Char}

theorem lowerMark {d : Char} (mark : d.isLower = false) (same : c.toLower = d) : c = d := by
  unfold Char.toLower at same
  split at same
  · rename_i upper
    subst same
    rcases Bool.and_eq_false_iff.mp mark with below | above
    · exact absurd upper.1 (by grind)
    · exact absurd upper.2 (by grind)
  · exact same

theorem tagPrefix (starts : startsTag tag s = true) : tag <+: Text.lowerAscii s := by
  obtain ⟨d, _, whole⟩ := List.any_eq_true.mp starts
  exact (List.prefix_append tag [d]).trans (List.isPrefixOf_iff_prefix.mp whole)

theorem tagAppend (starts : startsTag tag s = true) : startsTag tag (s ++ t) = true := by
  obtain ⟨d, mem, whole⟩ := List.any_eq_true.mp starts
  refine List.any_eq_true.mpr ⟨d, mem, ?_⟩
  rw [List.isPrefixOf_iff_prefix] at whole ⊢
  rw [Text.lowerAscii, List.map_append]
  exact whole.trans (List.prefix_append _ _)

theorem openingTagHead (starts : startsTag openingTag (c :: s) = true) : c = '<' ∧ s.head? ≠ some '!' := by
  have whole : '<' :: 's' :: "cript".toList <+: Text.lowerAscii (c :: s) := tagPrefix starts
  rw [Text.lowerAscii, List.map_cons, List.cons_prefix_cons] at whole
  refine ⟨lowerMark (by decide) whole.1.symm, fun mark => ?_⟩
  obtain ⟨rest, rfl⟩ := List.head?_eq_some_iff.mp mark
  rw [List.map_cons, List.cons_prefix_cons] at whole
  exact absurd whole.2.1 (by decide)

theorem lowerAngle {t : List Char} (same : ['<', '/'] = t.map Char.toLower) : t = ['<', '/'] := by
  obtain ⟨d, rest, rfl, first, second⟩ := List.map_eq_cons_iff.mp same.symm
  obtain ⟨e, tail, rfl, next, last⟩ := List.map_eq_cons_iff.mp second
  rw [lowerMark (by decide) first, lowerMark (by decide) next, List.map_eq_nil_iff.mp last]

theorem closingTagHead (starts : startsTag closingTag s = true) : ['<', '/'] <+: s := by
  have angle : ['<', '/'] <+: s.map Char.toLower :=
    List.IsPrefix.trans ⟨"script".toList, rfl⟩ (tagPrefix starts)
  obtain ⟨t, within, same⟩ := List.prefix_map_iff.mp angle
  exact lowerAngle same ▸ within

theorem unclosedAnyCase (unclosed : ¬ ['<', '/'] <:+: s) : ¬ closingTag <:+: Text.lowerAscii s := by
  intro inside
  have angle : ['<', '/'] <:+: s.map Char.toLower :=
    List.IsInfix.trans ⟨[], "script".toList, rfl⟩ inside
  obtain ⟨t, within, same⟩ := List.infix_map_iff.mp angle
  exact unclosed (lowerAngle same ▸ within)

/- Only the first character of a mark is an angle, so none reaches from the content into the tag behind it. -/
theorem prefixBefore (k : Char) {more : List Char} (absent : '<' ∉ more) :
    k :: more <+: c :: (s ++ '<' :: t) ↔ k :: more <+: c :: s := by
  rw [List.cons_prefix_cons, List.cons_prefix_cons, Text.prefixApart absent]

theorem tagBefore (more : List Char) (absent : '<' ∉ more) :
    startsTag ('<' :: more) (c :: (s ++ '<' :: t)) = startsTag ('<' :: more) (c :: s) := by
  rw [startsTag, startsTag, Bool.eq_iff_iff, List.any_eq_true, List.any_eq_true]
  refine exists_congr fun d => and_congr_right fun mem => ?_
  have apart : '<' ∉ more ++ [d] := by
    rw [List.mem_append, List.mem_singleton, not_or]
    refine ⟨absent, ?_⟩
    rintro rfl
    exact absurd mem (by decide)
  have split : Text.lowerAscii (c :: (s ++ '<' :: t)) =
      c.toLower :: (Text.lowerAscii s ++ '<' :: Text.lowerAscii t) := by
    simp only [Text.lowerAscii, List.map_cons, List.map_append]
    rfl
  rw [List.isPrefixOf_iff_prefix, List.isPrefixOf_iff_prefix, split, List.cons_append, prefixBefore '<' apart]
  rfl

theorem ScriptState.turnBefore (state : ScriptState) : state.turn (c :: (s ++ '<' :: t)) = state.turn (c :: s) := by
  have opens : commentOpening.isPrefixOf (c :: (s ++ '<' :: t)) = commentOpening.isPrefixOf (c :: s) := by
    rw [Bool.eq_iff_iff, List.isPrefixOf_iff_prefix, List.isPrefixOf_iff_prefix]
    exact prefixBefore '<' (show '<' ∉ ['!', '-', '-'] by decide)
  have ends : commentEnd.isPrefixOf (c :: (s ++ '<' :: t)) = commentEnd.isPrefixOf (c :: s) := by
    rw [Bool.eq_iff_iff, List.isPrefixOf_iff_prefix, List.isPrefixOf_iff_prefix]
    exact prefixBefore '-' (show '<' ∉ ['-', '>'] by decide)
  have starts : startsTag openingTag (c :: (s ++ '<' :: t)) = startsTag openingTag (c :: s) :=
    tagBefore "script".toList (by decide)
  have closes : startsTag closingTag (c :: (s ++ '<' :: t)) = startsTag closingTag (c :: s) :=
    tagBefore "/script".toList (by decide)
  cases state <;> simp only [turn, opens, ends, starts, closes]

theorem ScriptState.endingAfter (state : ScriptState) (unclosed : ¬ ['<', '/'] <:+: s) :
    state.ending (s ++ '<' :: t) = (state.after s).ending ('<' :: t) := by
  induction s generalizing state with
  | nil => rfl
  | cons c s ih =>
    have stays : ¬ startsTag closingTag (c :: (s ++ '<' :: t)) = true := by
      rw [show closingTag = '<' :: "/script".toList from rfl, tagBefore _ (by decide)]
      intro closes
      exact unclosed (closingTagHead closes).isInfix
    have later : ¬ ['<', '/'] <:+: s := fun inside => unclosed (inside.trans (List.suffix_cons c s).isInfix)
    rw [List.cons_append, ending, if_neg fun closes => stays closes.2, turnBefore, after, ih _ later]

theorem ScriptState.endingSuffix (state : ScriptState) {left : List Char} (found : state.ending s = some left) :
    left <:+ s := by
  induction s generalizing state with
  | nil => cases found
  | cons c s ih =>
    rw [ending] at found
    split at found
    · cases found
      exact List.suffix_refl _
    · exact (ih _ found).trans (List.suffix_cons c s)

theorem ScriptState.endingHere (state : ScriptState) (tagged : startsTag closingTag (c :: s) = true) :
    state.ending (c :: s) = some (c :: s) ↔ state ≠ nested := by
  rw [ending]
  split
  · rename_i closes
    exact iff_of_true rfl closes.1
  · rename_i passes
    have inside : state = nested := by
      by_contra other
      exact passes ⟨other, tagged⟩
    refine iff_of_false (fun later => ?_) (not_not.mpr inside)
    have shorter := (endingSuffix _ later).length_le
    rw [List.length_cons] at shorter
    omega

theorem holdsTagCons : HoldsTag (c :: s) ↔ startsTag openingTag (c :: s) = true ∨ HoldsTag s := by
  simp only [HoldsTag, List.suffix_cons_iff, or_and_right, exists_or, exists_eq_left]

theorem leftOpenCons : LeftOpen (c :: s) ↔
    (commentOpening <+: c :: s ∧ ¬ commentEnd <:+: c :: s ∧ HoldsTag (c :: s)) ∨ LeftOpen s := by
  simp only [LeftOpen, List.suffix_cons_iff, or_and_right, exists_or, exists_eq_left]

theorem LeftOpen.opens (left : LeftOpen s) : commentOpening <:+: s := by
  obtain ⟨t, within, opens, -⟩ := left
  exact opens.isInfix.trans within.isInfix

theorem commentEndCons (going : ¬ commentEnd <+: c :: s) : commentEnd <:+: c :: s ↔ commentEnd <:+: s := by
  rw [List.infix_cons_iff]
  simp [going]

def ScriptState.Strands (state : ScriptState) (s : List Char) : Prop :=
  match state with
  | plain => LeftOpen s
  | commented => LeftOpen s ∨ ¬ commentEnd <:+: s ∧ HoldsTag s
  | nested => LeftOpen s ∨ ¬ commentEnd <:+: s

theorem openingHead (opens : commentOpening <+: c :: s) :
    ¬ commentEnd <+: c :: s ∧ ¬ startsTag openingTag (c :: s) = true := by
  obtain ⟨rest, same⟩ := opens
  cases same
  refine ⟨fun ends => ?_, fun tagged => ?_⟩
  · exact absurd (List.cons_prefix_cons.mp ends).1 (by decide)
  · exact (openingTagHead tagged).2 rfl

/- One character changes the state as it changes what the rest of the text has to hold. Without the beginning of a
closing tag a script within a comment is left only where the comment ends. -/
theorem ScriptState.strandsTurn (state : ScriptState) (unclosed : ¬ ['<', '/'] <+: c :: s) :
    (state.turn (c :: s)).Strands s ↔ state.Strands (c :: s) := by
  have closes : ¬ startsTag closingTag (c :: s) = true := fun tagged => unclosed (closingTagHead tagged)
  cases state with
  | plain =>
    by_cases opens : commentOpening <+: c :: s
    · have turned : turn plain (c :: s) = commented := by simp [turn, List.isPrefixOf_iff_prefix, opens]
      obtain ⟨going, untagged⟩ := openingHead opens
      simp only [turned, Strands, leftOpenCons, holdsTagCons, commentEndCons going]
      tauto
    · have turned : turn plain (c :: s) = plain := by simp [turn, List.isPrefixOf_iff_prefix, opens]
      simp only [turned, Strands, leftOpenCons]
      tauto
  | commented =>
    by_cases ends : commentEnd <+: c :: s
    · have turned : turn commented (c :: s) = plain := by simp [turn, List.isPrefixOf_iff_prefix, ends]
      have ended := ends.isInfix
      simp only [turned, Strands, leftOpenCons]
      tauto
    · by_cases tagged : startsTag openingTag (c :: s) = true
      · have turned : turn commented (c :: s) = nested := by simp [turn, List.isPrefixOf_iff_prefix, ends, tagged]
        simp only [turned, Strands, leftOpenCons, holdsTagCons, commentEndCons ends]
        tauto
      · have turned : turn commented (c :: s) = commented := by
          simp [turn, List.isPrefixOf_iff_prefix, ends, tagged]
        simp only [turned, Strands, leftOpenCons, holdsTagCons, commentEndCons ends]
        tauto
  | nested =>
    by_cases ends : commentEnd <+: c :: s
    · have turned : turn nested (c :: s) = plain := by simp [turn, List.isPrefixOf_iff_prefix, ends]
      have ended := ends.isInfix
      simp only [turned, Strands, leftOpenCons]
      tauto
    · have turned : turn nested (c :: s) = nested := by simp [turn, List.isPrefixOf_iff_prefix, ends, closes]
      simp only [turned, Strands, leftOpenCons, commentEndCons ends]
      tauto

theorem ScriptState.strandsAfter (state : ScriptState) (unclosed : ¬ ['<', '/'] <:+: s) :
    state.after s = nested ↔ state.Strands s := by
  induction s generalizing state with
  | nil => cases state <;> simp [after, Strands, LeftOpen, HoldsTag, startsTag, Text.lowerAscii, nameEnds, commentEnd]
  | cons c s ih =>
    rw [List.infix_cons_iff, not_or] at unclosed
    rw [after, ih _ unclosed.2, strandsTurn state unclosed.1]

theorem scriptEnds (unclosed : ¬ ['<', '/'] <:+: s) {rest : List Char}
    (tagged : startsTag closingTag ('<' :: rest) = true) :
    ScriptState.plain.ending (s ++ '<' :: rest) = some ('<' :: rest) ↔ ¬ LeftOpen s := by
  rw [ScriptState.endingAfter _ unclosed, ScriptState.endingHere _ tagged, Ne, ScriptState.strandsAfter _ unclosed]
  rfl

end

end FlowAtlas.Page
