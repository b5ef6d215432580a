import FlowAtlas.Number.Binary64
import FlowAtlas.Text.Digit
import FlowAtlas.Text.Segment
/-! Numbers read from texts: a sign and digits of any script, with blanks around them. -/
namespace FlowAtlas.Number

inductive IntegerFault
  | unreadable
  | tooLong (digits : Nat)
  deriving DecidableEq, Repr

def digitLimit : Nat := 4300

def signed : List Char → Bool × List Char
  | '-' :: rest => (true, rest)
  | '+' :: rest => (false, rest)
  | s => (false, s)

def baseLetters (base : Nat) : List Char :=
  if base = 2 then ['b', 'B'] else if base = 8 then ['o', 'O'] else if base = 16 then ['x', 'X'] else []

def withoutBaseName (base : Nat) : List Char → List Char
  | '0' :: c :: rest => if (baseLetters base).contains c then rest else '0' :: c :: rest
  | s => s

def integer (base : Nat) (s : List Char) : Except IntegerFault Int :=
  let (negative, rest) := signed ((s.map Text.plainChar).dropWhile Text.isAsciiBlank)
  let rest := withoutBaseName base rest
  let digits := rest.takeWhile (Text.isDigitOf base)
  if base = 10 ∧ digitLimit < digits.length then .error (.tooLong digits.length)
  else if digits.isEmpty || !(rest.drop digits.length).all Text.isAsciiBlank then .error .unreadable
  else
    let n := Text.valueOf base digits
    .ok (if negative then -(n : Int) else n)

def exponent? (s : List Char) : Option Int :=
  let (negative, digits) := signed s
  if digits.isEmpty || !digits.all Char.isDigit then none
  else
    let n := Text.valueOf 10 digits
    some (if negative then -(n : Int) else n)

def decimal? (s : List Char) : Option Binary64 :=
  let (negative, rest) := signed (Text.trimBoth Text.isAsciiBlank (s.map Text.plainChar))
  if rest = "inf".toList || rest = "infinity".toList then some (.infinite negative)
  else if rest = "nan".toList then some .nan
  else
    let whole := rest.takeWhile Char.isDigit
    let (fraction, rest) := match rest.dropWhile Char.isDigit with
      | '.' :: rest => (rest.takeWhile Char.isDigit, rest.dropWhile Char.isDigit)
      | rest => ([], rest)
    let exponent := match rest with
      | [] => some 0
      | 'e' :: rest => exponent? rest
      | _ => none
    if whole.isEmpty && fraction.isEmpty then none
    else exponent.map fun e => .ofDecimal negative (Text.valueOf 10 (whole ++ fraction)) (e - fraction.length)

end FlowAtlas.Number
