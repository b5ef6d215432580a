import FlowAtlas.Text.Quoted
import FlowAtlas.Text.Segment
/-! Strict UTF-8. Reading refuses the first byte that rules a text out and says where the broken
sequence stands and why; writing gives each character its bytes. -/
namespace FlowAtlas.Text.Utf8

inductive Reason
  | badStart
  | badContinuation
  | endOfData
  deriving DecidableEq, Repr

def Reason.message : Reason → String
  | .badStart => "invalid start byte"
  | .badContinuation => "invalid continuation byte"
  | .endOfData => "unexpected end of data"

structure Fault where
  first : Nat
  last : Nat
  byte : UInt8
  reason : Reason
  deriving DecidableEq, Repr

def Fault.message (f : Fault) : String :=
  let place :=
    if f.first = f.last then
      "byte 0x" ++ String.ofList (hexDigits 2 f.byte.toNat) ++ " in position " ++ toString f.first
    else "bytes in position " ++ toString f.first ++ "-" ++ toString f.last
  "'utf-8' codec can't decode " ++ place ++ ": " ++ f.reason.message

/-- What the bytes after a leading byte must be: its own payload and the range of each byte. -/
def leading (b : Nat) : Option (Nat × List (Nat × Nat)) :=
  if b < 0x80 then some (b, [])
  else if b < 0xC2 then none
  else if b < 0xE0 then some (b - 0xC0, [(0x80, 0xBF)])
  else if b = 0xE0 then some (0, [(0xA0, 0xBF), (0x80, 0xBF)])
  else if b = 0xED then some (0xD, [(0x80, 0x9F), (0x80, 0xBF)])
  else if b < 0xF0 then some (b - 0xE0, [(0x80, 0xBF), (0x80, 0xBF)])
  else if b = 0xF0 then some (0, [(0x90, 0xBF), (0x80, 0xBF), (0x80, 0xBF)])
  else if b < 0xF4 then some (b - 0xF0, [(0x80, 0xBF), (0x80, 0xBF), (0x80, 0xBF)])
  else if b = 0xF4 then some (4, [(0x80, 0x8F), (0x80, 0xBF), (0x80, 0xBF)])
  else none

structure Open where
  first : Nat
  byte : UInt8
  value : Nat
  owed : List (Nat × Nat)

/-- Reads from position `pos`; `done` holds the characters read, the latest first. -/
def decodeFrom (done : List Char) (pos : Nat) : Option Open → List UInt8 → Except Fault (List Char)
  | none, [] => .ok done.reverse
  | some o, [] => .error ⟨o.first, pos - 1, o.byte, .endOfData⟩
  | none, b :: rest =>
    match leading b.toNat with
    | none => .error ⟨pos, pos, b, .badStart⟩
    | some (value, []) => decodeFrom (Char.ofNat value :: done) (pos + 1) none rest
    | some (value, owed) => decodeFrom done (pos + 1) (some ⟨pos, b, value, owed⟩) rest
  | some o, b :: rest =>
    match o.owed with
    | [] => .error ⟨o.first, pos - 1, o.byte, .badContinuation⟩
    | (low, high) :: owed =>
      if low ≤ b.toNat ∧ b.toNat ≤ high then
        let value := o.value * 64 + (b.toNat - 0x80)
        if owed.isEmpty then decodeFrom (Char.ofNat value :: done) (pos + 1) none rest
        else decodeFrom done (pos + 1) (some { o with value, owed }) rest
      else .error ⟨o.first, pos - 1, o.byte, .badContinuation⟩

def decode (bytes : List UInt8) : Except Fault String :=
  (decodeFrom [] 0 none bytes).map String.ofList

def encodeChar (c : Char) : List Nat :=
  let n := c.toNat
  if n < 0x80 then [n]
  else if n < 0x800 then [0xC0 + n / 64, 0x80 + n % 64]
  else if n < 0x10000 then [0xE0 + n / 4096, 0x80 + n / 64 % 64, 0x80 + n % 64]
  else [0xF0 + n / 262144, 0x80 + n / 4096 % 64, 0x80 + n / 64 % 64, 0x80 + n % 64]

def encode (s : String) : List UInt8 :=
  (s.toList.flatMap encodeChar).map UInt8.ofNat

def readText (bytes : List UInt8) : Except Fault String :=
  (decode bytes).map fun s => String.ofList (unifyLineEnds s.toList)

end FlowAtlas.Text.Utf8
