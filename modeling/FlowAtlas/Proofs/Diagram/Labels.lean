import FlowAtlas.Diagram.Whole
import FlowAtlas.Proofs.Text.Parts
import FlowAtlas.Proofs.Text.Replacing
import FlowAtlas.Proofs.Text.Runs
/-! Escaped labels in their delimiters. Escaping acts on each character by itself; what closes a quoted label cannot
be left in it, while brackets, braces and bars pass unchanged. -/
namespace FlowAtlas.Diagram

def labelChars : Char → List Char
  | '"' => ['&', 'q', 'u', 'o', 't', ';']
  | '<' => ['&', 'l', 't', ';']
  | '>' => ['&', 'g', 't', ';']
  | '\n' => [' ']
  | '\r' => []
  | c => [c]

def replaced : List Char := ['"', '<', '>', '\n', '\r']

def replacing : List Char := replaced.flatMap labelChars

def isKept (c : Char) : Bool := c ∉ replaced && c ∉ replacing

theorem labelCharsOther {c : Char} (other : c ∉ replaced) : labelChars c = [c] := by
  simp only [replaced, List.mem_cons, List.not_mem_nil, or_false, not_or] at other
  obtain ⟨quote, less, greater, feed, back⟩ := other
  rw [labelChars] <;> assumption

theorem labelCharsRows (c : Char) : Text.standsFor labelReplacements c = labelChars c := by
  by_cases special : c ∈ replaced
  · simp only [replaced, List.mem_cons, List.not_mem_nil, or_false] at special
    rcases special with rfl | rfl | rfl | rfl | rfl <;> decide
  · rw [labelCharsOther special]
    apply Text.standsForOther
    rintro row listed rfl
    have taken : ∀ row ∈ labelReplacements, row.1 ∈ replaced := by decide
    exact special (taken row listed)

theorem escapedChars (s : String) : (escapeLabel s).toList = s.toList.flatMap labelChars := by
  rw [escapeLabel, String.toList_ofList, Text.replacedAtOnce (by decide)]
  exact List.flatMap_congr fun c _ => labelCharsRows c

theorem labelCharsFree {c d : Char} (special : d ∈ replaced) : d ∉ labelChars c := by
  by_cases other : c ∈ replaced
  · simp only [replaced, List.mem_cons, List.not_mem_nil, or_false] at special other
    rcases special with rfl | rfl | rfl | rfl | rfl <;> rcases other with rfl | rfl | rfl | rfl | rfl <;> decide
  · rw [labelCharsOther other, List.mem_singleton]
    rintro rfl
    exact other special

theorem escapedFree {d : Char} (special : d ∈ replaced) (s : String) : d ∉ (escapeLabel s).toList := by
  rw [escapedChars, List.mem_flatMap]
  rintro ⟨c, _, mem⟩
  exact labelCharsFree special mem

theorem escapedOneLine (s : String) : Text.OneLine (escapeLabel s) :=
  ⟨escapedFree (by decide) s, escapedFree (by decide) s⟩

def visible (label : String) : List Char := label.toList.filter (· ≠ '\r')

theorem replacedLost {c d : Char} (special : c ∈ replaced) (mem : d ∈ labelChars c) : isKept d = false := by
  have used : d ∈ replacing := List.mem_flatMap.mpr ⟨c, special, mem⟩
  simp [isKept, used]

theorem replacedLeaves {c : Char} (special : c ∈ replaced) (left : c ≠ '\r') : ∃ d rest, labelChars c = d :: rest := by
  simp only [replaced, List.mem_cons, List.not_mem_nil, or_false] at special
  rcases special with rfl | rfl | rfl | rfl | rfl
  case inr.inr.inr.inr => exact absurd rfl left
  all_goals exact ⟨_, _, rfl⟩

section

variable {stop tail : List Char}

theorem labelExpands {c : Char} (left : c ≠ '\r') : Text.Expands isKept labelChars c := by
  by_cases special : c ∈ replaced
  · obtain ⟨d, rest, shape⟩ := replacedLeaves special left
    have lost : isKept c = false := by simp [isKept, special]
    exact Or.inr ⟨lost, by simp [shape], fun d mem => replacedLost special mem⟩
  · exact Or.inl (labelCharsOther special)

/- A run of kept characters is in the escaped text just where it is in what the reader sees of the text. -/
theorem keptInfix (some : stop ≠ []) (kept : ∀ c ∈ stop, isKept c = true) {s : List Char} (left : '\r' ∉ s) :
    stop <:+: s.flatMap labelChars ++ tail ↔ stop <:+: s ++ tail :=
  Text.expandedInfix some kept fun _ mem => labelExpands fun same => left (same ▸ mem)

theorem visibleEscape (label : String) : (escapeLabel label).toList = (visible label).flatMap labelChars := by
  rw [escapedChars, visible]
  induction label.toList with
  | nil => rfl
  | cons c rest ih =>
    by_cases back : c = '\r'
    · subst back
      rw [List.flatMap_cons, ih]
      rfl
    · rw [List.filter_cons_of_pos (by simpa using back), List.flatMap_cons, List.flatMap_cons, ih]

theorem clearEscaped (some : stop ≠ []) (kept : ∀ c ∈ stop, isKept c = true) (label : String) :
    Text.Clear stop (escapeLabel label).toList ↔ Text.Clear stop (visible label) := by
  have gone : '\r' ∉ visible label := by simp [visible]
  rw [Text.Clear, Text.Clear, visibleEscape, keptInfix some kept gone]

end

namespace Shape

def isQuoted : Shape → Bool
  | box | rounded | slanted => true
  | plainBox | hexagon => false

def stop : Shape → List Char
  | box | rounded | slanted => ['"']
  | plainBox => plainBox.closing.toList
  | hexagon => hexagon.closing.toList

def labelIn (shape : Shape) (drawn : String) : Option (List Char) :=
  (Text.splitFirst shape.stop (drawn.toList.drop shape.opening.length)).map (·.1)

theorem stopNonempty (shape : Shape) : shape.stop ≠ [] := by
  cases shape <;> decide

theorem stopKept (shape : Shape) : shape.isQuoted = true ∨ ∀ c ∈ shape.stop, isKept c = true := by
  cases shape
  case plainBox => exact Or.inr (by simp [stop, closing, isKept, replaced, replacing, labelChars])
  case hexagon => exact Or.inr (by simp [stop, closing, isKept, replaced, replacing, labelChars])
  all_goals exact Or.inl rfl

theorem stopShape (shape : Shape) : ∃ after, shape.closing.toList = shape.stop ++ after := by
  cases shape
  case box => exact ⟨[']'], by decide⟩
  case plainBox => exact ⟨[], by decide⟩
  case hexagon => exact ⟨[], by decide⟩
  case rounded => exact ⟨[')'], by decide⟩
  case slanted => exact ⟨['/', ']'], by decide⟩

theorem stopQuote {shape : Shape} (quoted : shape.isQuoted = true) : shape.stop = ['"'] := by
  cases shape <;> first | rfl | cases quoted

theorem drawnClear (shape : Shape) (label : String) : Text.Clear shape.stop (escapeLabel label).toList ↔
    shape.isQuoted = true ∨ Text.Clear shape.stop (visible label) := by
  rcases shape.stopKept with quoted | kept
  · rw [stopQuote quoted, Text.clearChar]
    exact iff_of_true (escapedFree (by decide) label) (Or.inl quoted)
  · have bare : ¬ shape.isQuoted = true := by
      intro quoted
      rw [stopQuote quoted] at kept
      exact absurd (kept '"' List.mem_cons_self) (by decide)
    rw [clearEscaped shape.stopNonempty kept]
    simp [bare]

theorem labelInDrawn (shape : Shape) (label : String) :
    shape.labelIn (shape.draw label) = some (escapeLabel label).toList ↔
      Text.Clear shape.stop (escapeLabel label).toList := by
  obtain ⟨after, closes⟩ := shape.stopShape
  have opened : (shape.draw label).toList.drop shape.opening.length =
      (escapeLabel label).toList ++ shape.stop ++ after := by
    rw [draw, String.toList_append, String.toList_append, closes, List.append_assoc, ← String.length_toList,
      List.drop_left, List.append_assoc]
  rw [labelIn, opened]
  exact Text.cutAtClear shape.stopNonempty _ after

end Shape

def edgeLabelIn (line : String) : Option (List Char) :=
  (Text.splitFirst ['|'] line.toList).bind fun (_, rest) => (Text.splitFirst ['|'] rest).map (·.1)

theorem barsClear (label : String) : Text.Clear ['|'] (escapeLabel label).toList ↔ '|' ∉ label.toList := by
  rw [clearEscaped (by simp) (by simp [isKept, replaced, replacing, labelChars]), Text.clearChar, visible,
    List.mem_filter]
  simp

theorem edgeLabelDrawn {source arrow label : String} (target : String) (plainSource : '|' ∉ source.toList)
    (plainArrow : '|' ∉ arrow.toList) (labelled : label ≠ "") :
    edgeLabelIn (Statement.edge source arrow target label).text = some (escapeLabel label).toList ↔
      '|' ∉ label.toList := by
  have opening : Text.Clear ['|'] (indentation ++ source ++ " " ++ arrow).toList := by
    simp [Text.clearChar, indentation, plainSource, plainArrow]
  have drawn : (Statement.edge source arrow target label).text.toList =
      (indentation ++ source ++ " " ++ arrow).toList ++ ['|'] ++
        ((escapeLabel label).toList ++ ['|'] ++ (" " ++ target).toList) := by
    simp [Statement.text, labelled]
  rw [edgeLabelIn, drawn, (Text.splitAtClear (by simp) _ _).mpr opening, Option.bind_some,
    Text.cutAtClear (by simp), barsClear]

theorem labelsReadBack (label : String) :
    (∀ category root,
      (Text.Clear (Shape.of category root).stop (escapeLabel label).toList ↔
        (Shape.of category root).isQuoted = true ∨ Text.Clear (Shape.of category root).stop (visible label)) ∧
      ((Shape.of category root).labelIn ((Shape.of category root).draw label) = some (escapeLabel label).toList ↔
        Text.Clear (Shape.of category root).stop (escapeLabel label).toList)) ∧
      (Text.Clear ['|'] (escapeLabel label).toList ↔ '|' ∉ label.toList) ∧
      ∀ source arrow target, '|' ∉ source.toList → '|' ∉ arrow.toList → label ≠ "" →
        (edgeLabelIn (Statement.edge source arrow target label).text = some (escapeLabel label).toList ↔
          '|' ∉ label.toList) := by
  refine ⟨?_, barsClear label, ?_⟩
  · intro category root
    exact ⟨(Shape.of category root).drawnClear label, (Shape.of category root).labelInDrawn label⟩
  · intro source arrow target plainSource plainArrow labelled
    exact edgeLabelDrawn target plainSource plainArrow labelled

theorem quotedNameReadBack : Shape.box.labelIn "[\"Say&quot;Hi&quot;[]\"]" = some "Say&quot;Hi&quot;[]".toList ∧
    edgeLabelIn (Statement.edge "C1" "-->" "CMD2" "Post<T> Send").text = some "Post&lt;T&gt; Send".toList := by
  obtain ⟨shapes, -, -⟩ := labelsReadBack "Say\"Hi\"[]"
  obtain ⟨-, -, edges⟩ := labelsReadBack "Post<T> Send"
  obtain ⟨clear, read⟩ := shapes (some .controller) false
  constructor
  · exact read.mpr (clear.mpr (Or.inl rfl))
  · exact (edges "C1" "-->" "CMD2" (by decide) (by decide) (by decide)).mpr (by decide)

def bracketed : Inventory :=
  { controllers := [{ name := "Shop", fullName := "Shop" }]
    commands := [⟨"Buy", "Buy"⟩]
    entities := [{ name := "Cart[]", fullName := "Cart" },
      { name := "Set\x7bItem\x7d", fullName := "Set", isAggregateRoot := true }]
    relationships := [⟨"Shop", "Get|Post", "Buy", "", "MethodToCommand"⟩] }

theorem nameClosesLabel :
    ¬ Text.Clear (Shape.of (some .entity) false).stop (escapeLabel "Cart[]").toList ∧
      ¬ Text.Clear (Shape.of (some .entity) true).stop (escapeLabel "Set\x7bItem\x7d").toList ∧
      ¬ Text.Clear ['|'] (escapeLabel "Get|Post Send").toList ∧
      ["    E3[Cart[]]", "    E4\x7b\x7bSet\x7bItem\x7d\x7d\x7d", "    C1 -->|Get|Post Send| CMD2"] ⊆
        bracketed.architectureSheet.map (·.text) ∧
      Shape.plainBox.labelIn "[Cart[]]" = some "Cart[".toList ∧
      Shape.hexagon.labelIn "\x7b\x7bSet\x7bItem\x7d\x7d\x7d" = some "Set\x7bItem".toList ∧
      edgeLabelIn "    C1 -->|Get|Post Send| CMD2" = some "Get".toList := by
  refine ⟨?_, ?_, ?_, ?_, ?_, ?_, ?_⟩ <;> decide +kernel

end FlowAtlas.Diagram
