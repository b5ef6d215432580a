/-! Numbers with 53 significant bits. A decimal or a ratio is read as the nearest such number, a tie
going to the even neighbour; all arithmetic is on natural numbers. -/
namespace FlowAtlas

/-- A finite value is mantissa · 2 ^ exponent with mantissa below 2 ^ 53 and exponent at least -1074. -/
inductive Binary64
  | finite (negative : Bool) (mantissa : Nat) (exponent : Int)
  | infinite (negative : Bool)
  | nan
  deriving DecidableEq, Repr, Inhabited

namespace Binary64

def leastExponent : Int := -1074
def greatestExponent : Int := 971

def zero : Binary64 := .finite false 0 leastExponent

def roundDiv (num den : Nat) : Nat :=
  let q := num / den
  let twice := 2 * (num % den)
  if twice < den then q
  else if den < twice then q + 1
  else if q % 2 = 0 then q else q + 1

def scale (num den : Nat) (e : Int) : Nat × Nat :=
  if e < 0 then (num * Nat.pow 2 (-e).toNat, den) else (num, den * Nat.pow 2 e.toNat)

def leastFull : Nat := 0x10000000000000

def exponentFor (num den : Nat) : Int :=
  let guess := (num.log2 : Int) - den.log2 - 52
  let (n, d) := scale num den guess
  max leastExponent (if n / d < leastFull then guess - 1 else guess)

def ofRatio (negative : Bool) (num den : Nat) : Binary64 :=
  if num = 0 then .finite negative 0 leastExponent
  else
    let e := exponentFor num den
    let (n, d) := scale num den e
    let m := roundDiv n d
    let (m, e) := if m = 2 * leastFull then (leastFull, e + 1) else (m, e)
    if greatestExponent < e then .infinite negative else .finite negative m e

/-- Digits · 10 ^ exponent. Exponents beyond every finite value are settled without the power. -/
def ofDecimal (negative : Bool) (digits : Nat) (exponent : Int) : Binary64 :=
  let magnitude := exponent + (digits.log2 : Int) * 3 / 10
  if digits = 0 then .finite negative 0 leastExponent
  else if 400 < magnitude then .infinite negative
  else if magnitude < -400 then .finite negative 0 leastExponent
  else if exponent < 0 then ofRatio negative digits (Nat.pow 10 (-exponent).toNat)
  else ofRatio negative (digits * Nat.pow 10 exponent.toNat) 1

def ofInt (i : Int) : Binary64 := ofRatio (i < 0) i.natAbs 1

def toInt? : Binary64 → Option Int
  | .finite negative m e =>
    let whole : Option Nat :=
      if 0 ≤ e then some (m * Nat.pow 2 e.toNat)
      else if m % Nat.pow 2 (-e).toNat = 0 then some (m / Nat.pow 2 (-e).toNat)
      else none
    whole.map fun (n : Nat) => if negative then -(n : Int) else n
  | _ => none

def toRatio? : Binary64 → Option (Int × Nat)
  | .finite negative m e =>
    let (n, d) := scale m 1 (-e)
    some (if negative then -(n : Int) else n, d)
  | _ => none

def neg : Binary64 → Binary64
  | .finite s m e => .finite (!s) m e
  | .infinite s => .infinite (!s)
  | .nan => .nan

/-- Sum and product are exact before rounding; outside the finite values the answer is NaN or the
infinite operand. -/
def add (a b : Binary64) : Binary64 :=
  match a.toRatio?, b.toRatio? with
  | some (n, d), some (k, f) =>
    let sum := n * f + k * d
    ofRatio (sum < 0) sum.natAbs (d * f)
  | none, some _ => a
  | some _, none => b
  | none, none => if a = b then a else .nan

def mul (a b : Binary64) : Binary64 :=
  match a.toRatio?, b.toRatio? with
  | some (n, d), some (k, f) =>
    let product := n * k
    ofRatio (product < 0) product.natAbs (d * f)
  | none, some _ => a
  | some _, none => b
  | none, none => if a = b then a else .nan

def isZero : Binary64 → Bool
  | .finite _ 0 _ => true
  | _ => false

end Binary64

end FlowAtlas
