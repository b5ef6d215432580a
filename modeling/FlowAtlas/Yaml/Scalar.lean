import FlowAtlas.Number.Reading
import FlowAtlas.Text.Casing
import FlowAtlas.Yaml.Fault
import FlowAtlas.Yaml.Node.Look
/-! The values of scalars in the type of their tag. -/
namespace FlowAtlas.Yaml.Scalar

def withoutBars (s : String) : List Char := s.toList.filter (· ≠ '_')

def signed (s : List Char) : Except ScalarFault (Bool × List Char) :=
  if s.isEmpty then .error .emptyNumber else .ok (Number.signed s)

def integer (base : Nat) (s : List Char) : Except ScalarFault Int :=
  match Number.integer base s with
  | .ok i => .ok i
  | .error .unreadable => .error (.badInteger base (String.ofList s))
  | .error (.tooLong digits) => .error (.longInteger Number.digitLimit digits)

def sixties (places : List Int) : Int := places.foldl (fun n d => n * 60 + d) 0

def unsignedInt (s : List Char) : Except ScalarFault Int :=
  match s with
  | [] => .error .emptyNumber
  | ['0'] => .ok 0
  | '0' :: 'b' :: rest => integer 2 rest
  | '0' :: 'x' :: rest => integer 16 rest
  | '0' :: _ => integer 8 s
  | _ =>
    if s.contains ':' then do
      let places ← (Text.splitAll ':' s).mapM (integer 10)
      return sixties places
    else integer 10 s

def int (text : String) : Except ScalarFault Int := do
  let (negative, s) ← signed (withoutBars text)
  let magnitude ← unsignedInt s
  return if negative then -magnitude else magnitude

def decimal (s : List Char) : Except ScalarFault Binary64 :=
  match Number.decimal? s with
  | some x => .ok x
  | none => .error (.badFloat (String.ofList s))

def infinityWord : List Char := ".inf".toList

def nanWord : List Char := ".nan".toList

def placeLimit : Nat := 174

def unsignedFloat (s : List Char) : Except ScalarFault Binary64 :=
  if s = infinityWord then .ok (Binary64.infinite false)
  else if s = nanWord then .ok Binary64.nan
  else if s.contains ':' then do
    let places ← (Text.splitAll ':' s).mapM decimal
    if placeLimit < places.length then throw .longPlaces
    let weighted := places.reverse.zipIdx.map fun (d, i) => d.mul (.ofInt (Nat.pow 60 i))
    return weighted.foldl Binary64.add .zero
  else decimal s

def float (text : String) : Except ScalarFault Binary64 := do
  let (negative, s) ← signed (Text.lower (withoutBars text))
  let magnitude ← unsignedFloat s
  return if negative then magnitude.neg else magnitude

def isNanWord (text : String) : Bool :=
  (Number.signed (Text.lower (withoutBars text))).2 = nanWord

def trueWords : List String := ["yes", "true", "on"]

def falseWords : List String := ["no", "false", "off"]

def bool (text : String) : Except ScalarFault Bool :=
  let word := String.ofList (Text.lower text.toList)
  if trueWords.contains word then .ok true
  else if falseWords.contains word then .ok false
  else .error (.badBool word)

def secondsOfDay : Int := 86400

def refuseIf (wrong : Prop) [Decidable wrong] (fault : ScalarFault) : Except ScalarFault Unit :=
  if wrong then .error fault else .ok ()

def checkOffset : Option Int → Except ScalarFault Unit
  | some seconds => refuseIf (secondsOfDay ≤ seconds ∨ seconds ≤ -secondsOfDay) (.badOffset seconds)
  | none => .ok ()

def checkTime : Option DayTime → Except ScalarFault Unit
  | some time => do
    refuseIf (23 < time.hour) .badHour
    refuseIf (59 < time.minute) .badMinute
    refuseIf (59 < time.second) .badSecond
  | none => .ok ()

/-- The zone is looked at before the date, and the date before the time. -/
def timestamp (text : String) : Except ScalarFault Timestamp :=
  match Timestamp.parse? (Look.withoutLastBreak text.toList) with
  | none => .error .badTimestamp
  | some t => do
    checkOffset t.offset
    refuseIf (t.year = 0) (.badYear t.year)
    refuseIf (t.month = 0 ∨ 12 < t.month) .badMonth
    refuseIf (t.day = 0 ∨ Timestamp.daysOf t.year t.month < t.day) .badDay
    checkTime t.time
    return t

/-! Bytes in base 64. -/

def sextet? (c : Char) : Option Nat :=
  if 'A' ≤ c ∧ c ≤ 'Z' then some (c.toNat - 'A'.toNat)
  else if 'a' ≤ c ∧ c ≤ 'z' then some (c.toNat - 'a'.toNat + 26)
  else if c.isDigit then some (c.toNat - '0'.toNat + 52)
  else if c = '+' then some 62
  else if c = '/' then some 63
  else none

def openGroup (held read : Nat) : Wrong :=
  .notBase64 (if held = 1 then
      "Invalid base64-encoded string: number of data characters (" ++ toString (read / 3 * 4 + 1) ++
        ") cannot be 1 more than a multiple of 4"
    else "Incorrect padding")

/-- Reads groups of four characters with six bits each. `held` is how many characters of a group have
been read and `bits` those bits that no byte has taken yet; `read` counts the bytes. Other characters
are passed over. -/
def bytesFrom (held bits pads read : Nat) : List Char → Except Wrong (List UInt8)
  | [] => if held = 0 then .ok [] else .error (openGroup held read)
  | c :: rest =>
    if c = '=' then
      if 2 ≤ held ∧ 4 ≤ held + pads + 1 then .ok []
      else bytesFrom held bits (if 2 ≤ held then pads + 1 else pads) read rest
    else
      match sextet? c with
      | none => bytesFrom held bits pads read rest
      | some n =>
        match held with
        | 0 => bytesFrom 1 n 0 read rest
        | 1 => (bytesFrom 2 (n % 16) 0 (read + 1) rest).map (UInt8.ofNat (bits * 4 + n / 16) :: ·)
        | 2 => (bytesFrom 3 (n % 4) 0 (read + 1) rest).map (UInt8.ofNat (bits * 16 + n / 4) :: ·)
        | _ => (bytesFrom 0 0 0 (read + 1) rest).map (UInt8.ofNat (bits * 64 + n) :: ·)

def isAscii (c : Char) : Bool := c.toNat < 128

def notAsciiReason (s : List Char) : String :=
  let first := (s.takeWhile isAscii).length
  let run := (s.drop first).takeWhile (!isAscii ·)
  let shown := match run with
    | [c] =>
      let n := c.toNat
      let escape := if n < 0x100 then 'x' :: Text.hexDigits 2 n
        else if n < 0x10000 then 'u' :: Text.hexDigits 4 n
        else 'U' :: Text.hexDigits 8 n
      "character '\\" ++ String.ofList escape ++ "' in position " ++ toString first
    | _ => "characters in position " ++ toString first ++ "-" ++ toString (first + run.length - 1)
  "'ascii' codec can't encode " ++ shown ++ ": ordinal not in range(128)"

def bytes (text : String) : Except Wrong (List UInt8) :=
  if text.toList.all isAscii then bytesFrom 0 0 0 0 text.toList
  else .error (.notAscii (notAsciiReason text.toList))

end FlowAtlas.Yaml.Scalar
