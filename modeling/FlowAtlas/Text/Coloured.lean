/-! Removing colours from a text: an escape, an opening bracket, parameters, further marks and the
character that ends them. -/
namespace FlowAtlas.Text

def isColourParameter (c : Char) : Bool := '0' ≤ c && c ≤ '?'

def isColourMark (c : Char) : Bool := ' ' ≤ c && c ≤ '/'

def endsColour (c : Char) : Bool := '@' ≤ c && c ≤ '~'

def colourLength : List Char → Nat
  | '[' :: rest =>
    let parameters := rest.takeWhile isColourParameter
    let afterParameters := rest.dropWhile isColourParameter
    let marks := afterParameters.takeWhile isColourMark
    if (afterParameters.dropWhile isColourMark).head?.any endsColour then
      parameters.length + marks.length + 2
    else 0
  | _ => 0

/-- `left` is how many characters of a colour are still to come. -/
def dropColours (left : Nat) : List Char → List Char
  | [] => []
  | c :: rest =>
    if 0 < left then dropColours (left - 1) rest
    else if c = '\x1b' && 0 < colourLength rest then dropColours (colourLength rest) rest
    else c :: dropColours 0 rest

end FlowAtlas.Text

namespace FlowAtlas

def withoutColours (s : String) : String := String.ofList (Text.dropColours 0 s.toList)

end FlowAtlas
