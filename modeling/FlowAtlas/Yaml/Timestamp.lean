import FlowAtlas.Text.Digit
/-! Dates and moments of YAML. -/
namespace FlowAtlas.Yaml

structure DayTime where
  hour : Nat
  minute : Nat
  second : Nat
  millionths : Nat := 0
  deriving DecidableEq, Repr

structure Timestamp where
  year : Nat
  month : Nat
  day : Nat
  time : Option DayTime := none
  offset : Option Int := none
  short : Bool := false
  deriving DecidableEq, Repr

namespace Timestamp

def digits? (least most : Nat) (s : List Char) : Option (List Char × List Char) :=
  let digits := (s.take most).takeWhile Char.isDigit
  if digits.length < least then none else some (digits, s.drop digits.length)

def expect? (c : Char) : List Char → Option (List Char)
  | d :: rest => if c = d then some rest else none
  | [] => none

def isBlank (c : Char) : Bool := c = ' ' || c = '\t'

def zone? (s : List Char) : Option (Option Int) :=
  match s.dropWhile isBlank with
  | [] => if s.isEmpty then some none else none
  | ['Z'] => some (some 0)
  | sign :: rest =>
    if sign ≠ '+' ∧ sign ≠ '-' then none
    else do
      let (hours, rest) ← digits? 1 2 rest
      let minutes ← match rest with
        | [] => some []
        | ':' :: rest => do
          let (minutes, rest) ← digits? 2 2 rest
          if rest.isEmpty then some minutes else none
        | _ => none
      let seconds : Int := Text.valueOf 10 hours * 3600 + Text.valueOf 10 minutes * 60
      return some (if sign = '-' then -seconds else seconds)

def millionthsOf (fraction : List Char) : Nat :=
  Text.valueOf 10 ((fraction ++ List.replicate 6 '0').take 6)

def parse? (s : List Char) : Option Timestamp := do
  let (year, s) ← digits? 4 4 s
  let (month, s) ← digits? 1 2 (← expect? '-' s)
  let (day, s) ← digits? 1 2 (← expect? '-' s)
  let date : Timestamp :=
    { year := Text.valueOf 10 year, month := Text.valueOf 10 month, day := Text.valueOf 10 day
      short := month.length = 1 || day.length = 1 }
  match s with
  | [] => return date
  | c :: rest =>
    let rest ← if c = 'T' || c = 't' then some rest
      else if isBlank c then some (rest.dropWhile isBlank) else none
    let (hour, rest) ← digits? 1 2 rest
    let (minute, rest) ← digits? 2 2 (← expect? ':' rest)
    let (second, rest) ← digits? 2 2 (← expect? ':' rest)
    let (fraction, rest) := match rest with
      | '.' :: rest => (rest.takeWhile Char.isDigit, rest.dropWhile Char.isDigit)
      | _ => ([], rest)
    let time : DayTime :=
      ⟨Text.valueOf 10 hour, Text.valueOf 10 minute, Text.valueOf 10 second, millionthsOf fraction⟩
    return { date with time := some time, offset := ← zone? rest }

def isLeap (year : Nat) : Bool := year % 4 = 0 && (year % 100 ≠ 0 || year % 400 = 0)

def daysOf (year month : Nat) : Nat :=
  if month = 2 then (if isLeap year then 29 else 28)
  else if month = 4 ∨ month = 6 ∨ month = 9 ∨ month = 11 then 30
  else 31

def dayNumber (t : Timestamp) : Nat :=
  let years := t.year - 1
  years * 365 + years / 4 - years / 100 + years / 400 +
    ((List.range t.month).drop 1).foldl (fun days month => days + daysOf t.year month) 0 + t.day

def clock (t : Timestamp) (time : DayTime) : Nat :=
  (((t.dayNumber * 24 + time.hour) * 60 + time.minute) * 60 + time.second) * 1000000 + time.millionths

def same (a b : Timestamp) : Bool :=
  match a.time, b.time, a.offset, b.offset with
  | none, none, _, _ => a.dayNumber = b.dayNumber
  | some s, some t, none, none => a.clock s = b.clock t
  | some s, some t, some p, some q => a.clock s - p * 1000000 = b.clock t - q * 1000000
  | _, _, _, _ => false

end Timestamp

end FlowAtlas.Yaml
