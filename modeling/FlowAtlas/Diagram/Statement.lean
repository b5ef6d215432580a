import FlowAtlas.Diagram.Style
import FlowAtlas.Table
/-! Statements of a flowchart and sheets of statements. The style classes of a sheet follow from its
nodes: each identifier has the class of its first node of a category. -/
namespace FlowAtlas.Diagram

inductive Statement
  | raw (text : String)
  | blank
  | comment (indent text : String)
  | node (indent id : String) (category : Option Category) (label : String) (aggregateRoot : Bool)
  | edge (source arrow target label : String)
  | call (source target label : String)
  | openGroup (number : Nat) (title : String)
  | closeGroup
  | classDef (style : StyleClass)
  | assign (ids : List String) (style : StyleClass)
  deriving DecidableEq, Repr

def indentation : String := "    "

namespace Statement

def text : Statement → String
  | raw text => text
  | blank => ""
  | comment indent text => indent ++ "%% " ++ text
  | node indent id category label aggregateRoot =>
    indent ++ id ++ (Shape.of category aggregateRoot).draw label
  | edge source arrow target label =>
    indentation ++ source ++ " " ++ arrow ++
      (if label = "" then " " else "|" ++ escapeLabel label ++ "| ") ++ target
  | call source target label => indentation ++ source ++ " --> |" ++ label ++ "| " ++ target
  | openGroup number title =>
    indentation ++ "subgraph SG" ++ toString number ++ " [\"" ++ escapeLabel title ++ "\"]"
  | closeGroup => indentation ++ "end"
  | classDef style => indentation ++ "classDef " ++ style.name ++ " " ++ style.definition ++ ";"
  | assign ids style => indentation ++ "class " ++ joinTexts "," ids ++ " " ++ style.name ++ ";"

def style? : Statement → Option (String × StyleClass)
  | node _ id (some category) _ _ => some (id, .ofCategory category)
  | _ => none

end Statement

abbrev Sheet := List Statement

namespace Sheet

def start (header : String) : Sheet := [.raw header, .blank]

def styles (sheet : Sheet) : List (String × StyleClass) :=
  (sheet.filterMap (·.style?)).foldl (fun table (id, style) => Table.insertNew id style table) []

def styleGroups (classes : List StyleClass) (styles : List (String × StyleClass)) :
    List (StyleClass × List String) :=
  (styles.filter fun (_, style) => style ∈ classes).foldl
    (fun table (id, style) => Table.push style id table) []

def styleBlock (heading : String) (classes : List StyleClass) (assignmentHeading : String) (sheet : Sheet) :
    Sheet :=
  let groups := styleGroups classes sheet.styles
  .comment indentation heading :: classes.map .classDef ++
    if groups.isEmpty then []
    else .blank :: (if assignmentHeading = "" then [] else [.comment indentation assignmentHeading]) ++
      groups.map fun (style, ids) => .assign ids style

/-- As `styleBlock`, with the classes given by name; an unknown name ends the block after the definitions
before it. -/
def styleBlockOf (heading : String) (names : List String) (assignmentHeading : String) (sheet : Sheet) :
    Sheet × Option String :=
  match names.find? fun name => (StyleClass.ofName? name).isNone with
  | some unknown =>
    let known := names.takeWhile fun name => (StyleClass.ofName? name).isSome
    (.comment indentation heading :: (known.filterMap StyleClass.ofName?).map .classDef, some unknown)
  | none => (styleBlock heading (names.filterMap StyleClass.ofName?) assignmentHeading sheet, none)

def text (sheet : Sheet) : String := joinTexts "\n" (sheet.map (·.text)) ++ "\n"

end Sheet

end FlowAtlas.Diagram
