import FlowAtlas.Text.Segment
import FlowAtlas.Yaml.Node.Tag
import FlowAtlas.Yaml.Timestamp
/-! The tags that scalars without a tag of their own have by their look. -/
namespace FlowAtlas.Yaml

namespace Look

def boolWords : List String :=
  ["yes", "Yes", "YES", "no", "No", "NO", "true", "True", "TRUE", "false", "False", "FALSE", "on", "On", "ON",
    "off", "Off", "OFF"]

def nullWords : List String := ["~", "null", "Null", "NULL", ""]

def infinityWords : List String := [".inf", ".Inf", ".INF"]

def nanWords : List String := [".nan", ".NaN", ".NAN"]

def unsigned : List Char → List Char
  | '-' :: rest => rest
  | '+' :: rest => rest
  | s => s

def isDigitOrBar (c : Char) : Bool := c.isDigit || c = '_'

def isOctalOrBar (c : Char) : Bool := ('0' ≤ c && c ≤ '7') || c = '_'

def isHexOrBar (c : Char) : Bool := isDigitOrBar c || ('a' ≤ c && c ≤ 'f') || ('A' ≤ c && c ≤ 'F')

def isSixtieth : List Char → Bool
  | [c] => c.isDigit
  | [c, d] => '0' ≤ c && c ≤ '5' && d.isDigit
  | _ => false

def isDigits : List Char → Bool
  | c :: rest => c.isDigit && rest.all isDigitOrBar
  | [] => false

def isInt (s : List Char) : Bool :=
  match unsigned s with
  | '0' :: 'b' :: rest => !rest.isEmpty && rest.all fun c => c = '0' || c = '1' || c = '_'
  | '0' :: 'x' :: rest => !rest.isEmpty && rest.all isHexOrBar
  | '0' :: rest => rest.all isOctalOrBar
  | rest =>
    match Text.splitAll ':' rest with
    | first :: more => isDigits first && more.all isSixtieth
    | [] => false

def isExponent : List Char → Bool
  | [] => true
  | e :: sign :: rest =>
    (e = 'e' || e = 'E') && (sign = '-' || sign = '+') && !rest.isEmpty && rest.all Char.isDigit
  | _ => false

def isFraction (s : List Char) : Bool := isExponent (s.dropWhile isDigitOrBar)

def isSixtyFloat (s : List Char) : Bool :=
  let whole := s.takeWhile (· ≠ '.')
  let fraction := s.dropWhile (· ≠ '.')
  match Text.splitAll ':' whole with
  | first :: more => isDigits first && !more.isEmpty && more.all isSixtieth && !fraction.isEmpty &&
      (fraction.drop 1).all isDigitOrBar
  | [] => false

def isFloat (s : List Char) : Bool :=
  let rest := unsigned s
  let whole := rest.takeWhile (· ≠ '.')
  let afterWhole := rest.dropWhile (· ≠ '.')
  let plain := isDigits whole && !afterWhole.isEmpty && isFraction (afterWhole.drop 1)
  let pointed := match s with
    | '.' :: c :: more => c.isDigit && isFraction more
    | _ => false
  plain || pointed || isSixtyFloat rest || infinityWords.contains (String.ofList rest) ||
    nanWords.contains (String.ofList s)

def isTimestamp (s : List Char) : Bool :=
  match Timestamp.parse? s with
  | some t => t.time.isSome || !t.short
  | none => false

/-- A line feed at the end is not looked at, unless it is all there is. -/
def withoutLastBreak (s : List Char) : List Char :=
  if s ≠ ['\n'] && s.getLast? = some '\n' then s.dropLast else s

end Look

def Tag.ofPlain (text : String) : Tag :=
  let s := Look.withoutLastBreak text.toList
  let word := String.ofList s
  if Look.boolWords.contains word then bool
  else if Look.nullWords.contains word then null
  else if word = "<<" then merge
  else if word = "=" then value
  else if Look.isFloat s then float
  else if Look.isInt s then int
  else if Look.isTimestamp s then timestamp
  else str

end FlowAtlas.Yaml
