import FlowAtlas.Number.Binary64
/-! The text of a number: the fewest digits that read back, positional from 10 ^ -4 up to 10 ^ 16 and
with an exponent of two digits at least elsewhere. -/
namespace FlowAtlas.Binary64

structure Decimal where
  digits : Nat
  exponent : Int
  deriving DecidableEq, Repr

def floorAt (num den : Nat) (q : Int) : Nat :=
  if q < 0 then num * Nat.pow 10 (-q).toNat / den else num / (den * Nat.pow 10 q.toNat)

/-- Twice the distance between d · 10 ^ q and num / den, times den · 10 ^ |q|. -/
def distanceAt (num den d : Nat) (q : Int) : Nat :=
  let (n, k) := if q < 0 then (num * Nat.pow 10 (-q).toNat, den * d) else (num, den * d * Nat.pow 10 q.toNat)
  (n - k) + (k - n)

def digitCount (n : Nat) : Nat := (Nat.toDigits 10 n).length

def decimalExponent (num den : Nat) : Int :=
  let guess : Int := (digitCount num : Int) - digitCount den
  if floorAt num den guess = 0 then guess - 1 else guess

def nearer (num den low : Nat) (q : Int) : Nat :=
  let below := distanceAt num den low q
  let above := distanceAt num den (low + 1) q
  if above < below then low + 1
  else if below < above then low
  else if low % 2 = 0 then low else low + 1

/-- The grid of `count` digits holds at most two neighbours of the value; the nearer that reads back. -/
def readBackAt (num den : Nat) (value : Binary64) (count : Nat) : Option Decimal :=
  let q := decimalExponent num den - count + 1
  let low := floorAt num den q
  let fits (d : Nat) : Bool := ofDecimal false d q == value
  match fits low, fits (low + 1) with
  | true, true => some ⟨nearer num den low q, q⟩
  | true, false => some ⟨low, q⟩
  | false, true => some ⟨low + 1, q⟩
  | false, false => none

def shortest (num den : Nat) (value : Binary64) : Decimal :=
  ((List.range 17).findSome? fun i => readBackAt num den value (i + 1)).getD ⟨num, 0⟩

def zeros (n : Nat) : String := String.ofList (List.replicate n '0')

def layOut (digits : List Char) (point : Int) : String :=
  if -4 < point ∧ point ≤ 16 then
    if point ≤ 0 then "0." ++ zeros (-point).toNat ++ String.ofList digits
    else
      let whole := digits.take point.toNat
      let rest := digits.drop point.toNat
      String.ofList whole ++ zeros (point.toNat - whole.length) ++ "." ++
        (if rest.isEmpty then "0" else String.ofList rest)
  else
    let e := point - 1
    let exponent := (if e.natAbs < 10 then "0" else "") ++ toString e.natAbs
    let mantissa := match digits with
      | [] => ""
      | [d] => String.ofList [d]
      | d :: rest => String.ofList (d :: '.' :: rest)
    mantissa ++ "e" ++ (if e < 0 then "-" else "+") ++ exponent

def Decimal.trimmed (d : Decimal) : List Char × Int :=
  let all := Nat.toDigits 10 d.digits
  ((all.reverse.dropWhile (· = '0')).reverse, all.length + d.exponent)

def text : Binary64 → String
  | .nan => "nan"
  | .infinite false => "inf"
  | .infinite true => "-inf"
  | .finite negative m e =>
    let sign := if negative then "-" else ""
    if m = 0 then sign ++ "0.0"
    else
      let (num, den) := scale m 1 (-e)
      let (digits, point) := (shortest num den (.finite false m e)).trimmed
      sign ++ layOut digits point

end FlowAtlas.Binary64
