import FlowAtlas.Schema.Issue
import FlowAtlas.Text.Blank
import FlowAtlas.Text.Digit
import FlowAtlas.Text.Segment
/-! Integers in decimal notation, as a lenient check reads them. A text that is not one as it stands is
tidied and read again: blanks around it, a plus sign, zeros in front, a fraction of zeros and bars
between digits are left out. -/
namespace FlowAtlas.Schema.Numeral

def digitLimit : Nat := 4300

def strict (s : List Char) : Except Fault Int :=
  let (negative, rest) := match s with
    | '-' :: rest => (true, rest)
    | rest => (false, rest)
  let digits := rest.takeWhile Char.isDigit
  if rest = ['0'] then .ok 0
  else if digits.isEmpty || digits.head? = some '0' then .error .unreadableInt
  else if digitLimit < digits.length then .error .oversizedInt
  else if digits.length < rest.length then .error .unreadableInt
  else
    let n := Text.valueOf 10 digits
    .ok (if negative then -(n : Int) else n)

def isLeading (c : Char) : Bool := '1' ≤ c && c ≤ '9' || c = '-'

def afterZeros (last : Char) : List Char → Option (List Char)
  | [] => some [last]
  | c :: rest =>
    if c = '0' || c = '_' then afterZeros c rest
    else if isLeading c then some (c :: rest)
    else if c = '.' then some (last :: c :: rest)
    else none

def withoutZeros : List Char → Option (List Char)
  | [] => none
  | c :: rest => if c = '0' then afterZeros c rest else if isLeading c then some (c :: rest) else none

def withoutPlus : List Char → List Char
  | '+' :: rest => if rest.head? = some '-' then '+' :: rest else rest
  | s => s

def withoutFraction (s : List Char) : List Char :=
  match s.dropWhile (· ≠ '.') with
  | '.' :: zero :: zeros => if (zero :: zeros).all (· = '0') then s.takeWhile (· ≠ '.') else s
  | _ => s

def withoutBars (s : List Char) : List Char :=
  if s.head? = some '_' || s.getLast? = some '_' || Text.occursIn ['_', '_'] s then s
  else s.filter (· ≠ '_')

def tidied (s : List Char) : Option (List Char) :=
  (withoutZeros (withoutPlus (Text.trimBoth Text.isBlank s))).map fun s => withoutBars (withoutFraction s)

def read (s : List Char) : Except Fault Int :=
  match strict s with
  | .error .unreadableInt =>
    match tidied s with
    | some t => strict t
    | none => .error .unreadableInt
  | answer => answer

end FlowAtlas.Schema.Numeral
