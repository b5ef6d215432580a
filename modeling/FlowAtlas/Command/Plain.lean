import FlowAtlas.Command.Step
/-! Displays as plain lines, for where markup means nothing. -/
namespace FlowAtlas.Command

def opensMarkup : List Char → Bool
  | c :: rest => (c = '/' || c.isLower) && rest.contains ']'
  | [] => false

def dropMarks (inMark : Bool) : List Char → List Char
  | [] => []
  | c :: rest =>
    if inMark then dropMarks (c ≠ ']') rest
    else if c = '[' && opensMarkup rest then dropMarks true rest
    else c :: dropMarks false rest

def withoutMarks (markup : String) : String := String.ofList (dropMarks false markup.toList)

namespace Column

def pad (c : Column) (width : Nat) (cell : String) : String :=
  let fill := String.ofList (List.replicate (width - cell.length) ' ')
  match c.side with
  | .left => cell ++ fill
  | .right => fill ++ cell

end Column

namespace Grid

def shownRows (g : Grid) : List (List String) :=
  if g.showHeader then g.columns.map (·.header) :: g.rows else g.rows

def width (g : Grid) (index : Nat) : Nat :=
  (g.shownRows.map fun row => (row.getD index "").length).foldl max 0

def line (g : Grid) (row : List String) : String :=
  joinTexts "  " (g.columns.zipIdx.map fun (c, i) => c.pad (g.width i) (row.getD i ""))

def lines (g : Grid) : List String := g.title :: g.shownRows.map g.line

end Grid

def Display.lines : Display → List String
  | panel markup => [withoutMarks markup]
  | text markup => [withoutMarks markup]
  | grid g => g.lines

end FlowAtlas.Command
