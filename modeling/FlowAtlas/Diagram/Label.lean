import FlowAtlas.Text.Segment
/-! Texts inside diagrams: labels, in which what has a meaning to the diagram language is replaced, and
identifiers of classes. -/
namespace FlowAtlas.Diagram

def labelReplacements : List (Char × String) :=
  [('"', "&quot;"), ('<', "&lt;"), ('>', "&gt;"), ('\n', " "), ('\r', "")]

def escapeLabel (s : String) : String :=
  String.ofList (labelReplacements.foldl (fun s (c, by_) => Text.replaceChar c by_.toList s) s.toList)

def isReserved (c : Char) : Bool := c = '.' || c = '<' || c = '>' || c = '[' || c = ']'

def classIdentifier (name : String) : String :=
  String.ofList (name.toList.map fun c => if isReserved c then '_' else c)

end FlowAtlas.Diagram
