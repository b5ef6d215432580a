import FlowAtlas.Json.Value
/-! Reading JSON text. `Infinity`, `-Infinity` and `NaN` are numbers, of repeated keys the last one
counts, and every refusal says where it stopped. A value is read with a stack of the arrays and
objects that are still open, so each step works on a shorter text. -/
namespace FlowAtlas.Json

inductive FaultKind
  | value
  | propertyName
  | colon
  | comma
  | extraData
  | openString
  | controlCharacter
  | escape
  | unicodeEscape
  | byteOrderMark
  deriving DecidableEq, Repr

def FaultKind.message : FaultKind → String
  | .value => "Expecting value"
  | .propertyName => "Expecting property name enclosed in double quotes"
  | .colon => "Expecting ':' delimiter"
  | .comma => "Expecting ',' delimiter"
  | .extraData => "Extra data"
  | .openString => "Unterminated string starting at"
  | .controlCharacter => "Invalid control character at"
  | .escape => "Invalid \\escape"
  | .unicodeEscape => "Invalid \\uXXXX escape"
  | .byteOrderMark => "Unexpected UTF-8 BOM (decode using utf-8-sig)"

/-- Why reading stopped: a fault before the last `left` characters, an integer with more digits than
are taken, or the escape of half a surrogate pair, which is no character and can stand in no text. -/
inductive Stop
  | fault (kind : FaultKind) (left : Nat)
  | longInteger (digits : Nat)
  | halfPair (left : Nat)
  deriving DecidableEq, Repr

def isBlank (c : Char) : Bool := c = ' ' || c = '\t' || c = '\n' || c = '\r'

def skipBlanks (s : List Char) : List Char := s.dropWhile isBlank

theorem skipBlanksLength (s : List Char) : (skipBlanks s).length ≤ s.length :=
  (List.dropWhile_sublist isBlank).length_le

def hexValue? (c : Char) : Option Nat :=
  if '0' ≤ c ∧ c ≤ '9' then some (c.toNat - '0'.toNat)
  else if 'a' ≤ c ∧ c ≤ 'f' then some (c.toNat - 'a'.toNat + 10)
  else if 'A' ≤ c ∧ c ≤ 'F' then some (c.toNat - 'A'.toNat + 10)
  else none

def hex4? (a b c d : Char) : Option Nat := do
  let a ← hexValue? a
  let b ← hexValue? b
  let c ← hexValue? c
  let d ← hexValue? d
  return ((a * 16 + b) * 16 + c) * 16 + d

def simpleEscape? : Char → Option Char
  | '"' => some '"'
  | '\\' => some '\\'
  | '/' => some '/'
  | 'b' => some '\x08'
  | 'f' => some '\x0c'
  | 'n' => some '\n'
  | 'r' => some '\r'
  | 't' => some '\t'
  | _ => none

/-- The low half of a pair directly after its high half, and what follows it. A pair must not end
the text. -/
def lowHalf? : List Char → Except Nat (Option (Nat × List Char))
  | '\\' :: 'u' :: a :: b :: c :: d :: e :: rest =>
    match hex4? a b c d with
    | none => .error (rest.length + 6)
    | some low => .ok (if 0xDC00 ≤ low ∧ low ≤ 0xDFFF then some (low, e :: rest) else none)
  | _ => .ok none

/-- What follows `\u`: the character and the rest. One more character must follow the digits. -/
def unicodeEscape (s : List Char) : Except Stop (Char × List Char) :=
  match s with
  | a :: b :: c :: d :: e :: rest =>
    match hex4? a b c d with
    | none => .error (.fault .unicodeEscape (s.length + 1))
    | some unit =>
      if 0xD800 ≤ unit ∧ unit ≤ 0xDBFF then
        match lowHalf? (e :: rest) with
        | .error left => .error (.fault .unicodeEscape left)
        | .ok (some (low, after)) =>
          .ok (Char.ofNat (0x10000 + (unit - 0xD800) * 0x400 + (low - 0xDC00)), after)
        | .ok none => .error (.halfPair (s.length + 2))
      else if unit.isValidChar then .ok (Char.ofNat unit, e :: rest)
      else .error (.halfPair (s.length + 2))
  | _ => .error (.fault .unicodeEscape (s.length + 1))

theorem lowHalfLength {s after : List Char} {low : Nat} (h : lowHalf? s = .ok (some (low, after))) :
    after.length ≤ s.length := by
  unfold lowHalf? at h
  split at h
  · split at h
    · simp at h
    · split at h
      · simp only [Except.ok.injEq, Option.some.injEq, Prod.mk.injEq] at h
        simp [← h.2]
      · simp at h
  · simp at h

theorem unicodeEscapeLength {s rest : List Char} {c : Char} (h : unicodeEscape s = .ok (c, rest)) :
    rest.length < s.length := by
  unfold unicodeEscape at h
  split at h
  · split at h
    · simp at h
    · split at h
      · split at h
        · simp at h
        · rename_i after hl
          simp only [Except.ok.injEq, Prod.mk.injEq] at h
          obtain ⟨_, rfl⟩ := h
          have := lowHalfLength hl
          simp only [List.length_cons] at this ⊢
          omega
        · simp at h
      · split at h
        · simp only [Except.ok.injEq, Prod.mk.injEq] at h
          simp [← h.2]
        · simp at h
  · simp at h

/-- The characters of a string after its opening quote, and what follows the closing one. `opened`
characters were left at the opening quote; `done` holds the characters read, the latest first. -/
def readString (opened : Nat) (done : List Char) (s : List Char) :
    Except Stop (List Char × List Char) :=
  match s with
  | [] => .error (.fault .openString opened)
  | '"' :: rest => .ok (done.reverse, rest)
  | '\\' :: 'u' :: rest =>
    match _h : unicodeEscape rest with
    | .error stop => .error stop
    | .ok (c, after) => readString opened (c :: done) after
  | '\\' :: c :: rest =>
    match simpleEscape? c with
    | none => .error (.fault .escape (rest.length + 2))
    | some x => readString opened (x :: done) rest
  | ['\\'] => .error (.fault .openString opened)
  | c :: rest =>
    if c.toNat < 0x20 then .error (.fault .controlCharacter (rest.length + 1))
    else readString opened (c :: done) rest
termination_by s.length
decreasing_by
  · have := unicodeEscapeLength _h
    simp only [List.length_cons]
    omega
  · simp only [List.length_cons]
    omega
  · simp only [List.length_cons]
    omega

theorem readStringLength {opened : Nat} {done s t rest : List Char}
    (h : readString opened done s = .ok (t, rest)) : rest.length < s.length := by
  fun_induction readString opened done s with
  | case1 => simp at h
  | case2 => simp_all
  | case3 => simp at h
  | case4 done rest' c after hu ih =>
    have := ih h
    have := unicodeEscapeLength hu
    simp only [List.length_cons]
    omega
  | case5 => simp at h
  | case6 done c rest' x hx hn ih =>
    have := ih h
    simp only [List.length_cons]
    omega
  | case7 => simp at h
  | case8 => simp at h
  | case9 done c rest' _ _ _ _ _ ih =>
    have := ih h
    simp only [List.length_cons]
    omega

def natOfDigits (s : List Char) : Nat := s.foldl (fun n c => n * 10 + (c.toNat - '0'.toNat)) 0

def wholeDigits? : List Char → Option (List Char × List Char)
  | '0' :: rest => some (['0'], rest)
  | s =>
    let digits := s.takeWhile Char.isDigit
    if digits.isEmpty then none else some (digits, s.dropWhile Char.isDigit)

def fraction : List Char → List Char × List Char
  | '.' :: c :: rest =>
    if c.isDigit then ((c :: rest).takeWhile Char.isDigit, (c :: rest).dropWhile Char.isDigit)
    else ([], '.' :: c :: rest)
  | s => ([], s)

def exponentDigits? (negative : Bool) (s : List Char) : Option (Int × List Char) :=
  let digits := s.takeWhile Char.isDigit
  if digits.isEmpty then none
  else
    let n : Int := natOfDigits digits
    some (if negative then -n else n, s.dropWhile Char.isDigit)

def exponent? : List Char → Option (Int × List Char)
  | c :: rest =>
    if c = 'e' ∨ c = 'E' then
      match rest with
      | '+' :: more => exponentDigits? false more
      | '-' :: more => exponentDigits? true more
      | more => exponentDigits? false more
    else none
  | [] => none

def integerDigitLimit : Nat := 4300

def readUnsigned (negative : Bool) (s : List Char) : Option (Except Stop Json × List Char) :=
  match wholeDigits? s with
  | none => none
  | some (whole, afterWhole) =>
    let (places, afterPlaces) := fraction afterWhole
    let power := exponent? afterPlaces
    let rest := (power.map (·.2)).getD afterPlaces
    let digits := natOfDigits (whole ++ places)
    if places.isEmpty ∧ power.isNone then
      if integerDigitLimit < whole.length then some (.error (.longInteger whole.length), rest)
      else some (.ok (.int (if negative then -(digits : Int) else digits)), rest)
    else
      let e := (power.map (·.1)).getD 0 - places.length
      some (.ok (.float (Binary64.ofDecimal negative digits e)), rest)

theorem dropWhileShorter {α : Type} {p : α → Bool} {s : List α} (h : (s.takeWhile p).isEmpty = false) :
    (s.dropWhile p).length < s.length := by
  cases s with
  | nil => simp at h
  | cons a s =>
    by_cases ha : p a
    · have := (List.dropWhile_sublist (l := s) p).length_le
      simp only [List.dropWhile, ha, List.length_cons]
      omega
    · simp [List.takeWhile, ha] at h

theorem wholeDigitsLength {s digits rest : List Char} (h : wholeDigits? s = some (digits, rest)) :
    rest.length < s.length := by
  unfold wholeDigits? at h
  split at h
  · simp_all
  · dsimp only at h
    split at h
    · simp at h
    · rename_i hd
      simp only [Option.some.injEq, Prod.mk.injEq] at h
      rw [← h.2]
      exact dropWhileShorter (by simpa using hd)

theorem fractionLength (s : List Char) : (fraction s).2.length ≤ s.length := by
  unfold fraction
  split
  · rename_i c rest
    split
    · have := (List.dropWhile_sublist (l := c :: rest) Char.isDigit).length_le
      simp only [List.length_cons] at *
      omega
    · simp
  · simp

theorem exponentDigitsLength {negative : Bool} {s rest : List Char} {e : Int}
    (h : exponentDigits? negative s = some (e, rest)) : rest.length < s.length := by
  unfold exponentDigits? at h
  dsimp only at h
  split at h
  · simp at h
  · rename_i hd
    simp only [Option.some.injEq, Prod.mk.injEq] at h
    rw [← h.2]
    exact dropWhileShorter (by simpa using hd)

theorem exponentLength {s rest : List Char} {e : Int} (h : exponent? s = some (e, rest)) :
    rest.length < s.length := by
  unfold exponent? at h
  split at h
  · split at h
    · split at h
      all_goals
        have := exponentDigitsLength h
        simp only [List.length_cons]
        omega
    · simp at h
  · simp at h

theorem readUnsignedLength {negative : Bool} {s rest : List Char} {v : Except Stop Json}
    (h : readUnsigned negative s = some (v, rest)) : rest.length < s.length := by
  unfold readUnsigned at h
  split at h
  · simp at h
  · rename_i whole afterWhole hw
    have h1 := wholeDigitsLength hw
    have h2 := fractionLength afterWhole
    have h3 : (((exponent? (fraction afterWhole).2).map (·.2)).getD (fraction afterWhole).2).length
        ≤ (fraction afterWhole).2.length := by
      cases he : exponent? (fraction afterWhole).2 with
      | none => simp
      | some p =>
        obtain ⟨e, r⟩ := p
        simpa using Nat.le_of_lt (exponentLength he)
    dsimp only at h
    split at h
    · split at h <;>
        (simp only [Option.some.injEq, Prod.mk.injEq] at h
         rw [← h.2]
         omega)
    · simp only [Option.some.injEq, Prod.mk.injEq] at h
      rw [← h.2]
      omega

def readPlain (s : List Char) : Option (Except Stop Json × List Char) :=
  match s with
  | 'n' :: 'u' :: 'l' :: 'l' :: rest => some (.ok .null, rest)
  | 't' :: 'r' :: 'u' :: 'e' :: rest => some (.ok (.bool true), rest)
  | 'f' :: 'a' :: 'l' :: 's' :: 'e' :: rest => some (.ok (.bool false), rest)
  | 'N' :: 'a' :: 'N' :: rest => some (.ok (.float .nan), rest)
  | 'I' :: 'n' :: 'f' :: 'i' :: 'n' :: 'i' :: 't' :: 'y' :: rest =>
    some (.ok (.float (.infinite false)), rest)
  | '-' :: 'I' :: 'n' :: 'f' :: 'i' :: 'n' :: 'i' :: 't' :: 'y' :: rest =>
    some (.ok (.float (.infinite true)), rest)
  | '-' :: rest => readUnsigned true rest
  | s => readUnsigned false s

theorem readPlainLength {s rest : List Char} {v : Except Stop Json}
    (h : readPlain s = some (v, rest)) : rest.length < s.length := by
  unfold readPlain at h
  split at h
  case h_7 =>
    have := readUnsignedLength h
    simp only [List.length_cons]
    omega
  case h_8 => exact readUnsignedLength h
  all_goals
    simp only [Option.some.injEq, Prod.mk.injEq] at h
    simp only [← h.2, List.length_cons]
    omega

/-- An array or object that is still open; of an array the latest item stands first. -/
inductive Frame
  | array (items : List Json)
  | object (fields : List (String × Json)) (key : String)

mutual

def readValue (stack : List Frame) (s : List Char) : Except Stop (Json × List Char) :=
  match s with
  | '"' :: rest =>
    match _h : readString (rest.length + 1) [] rest with
    | .error stop => .error stop
    | .ok (t, after) => close stack (.text (String.ofList t)) after
  | '[' :: rest =>
    match _h : skipBlanks rest with
    | ']' :: after => close stack (.array []) after
    | after => readValue (.array [] :: stack) after
  | '{' :: rest =>
    match _h : skipBlanks rest with
    | '}' :: after => close stack (.object []) after
    | after => readField stack [] after
  | s =>
    match _h : readPlain s with
    | none => .error (.fault .value s.length)
    | some (.error stop, _) => .error stop
    | some (.ok v, after) => close stack v after
termination_by s.length
decreasing_by
  · have := readStringLength _h
    simp only [List.length_cons]
    omega
  · have := skipBlanksLength rest
    rw [_h] at this
    simp only [List.length_cons] at *
    omega
  · have := skipBlanksLength rest
    rw [_h] at this
    simp only [List.length_cons] at *
    omega
  · have := skipBlanksLength rest
    rw [_h] at this
    simp only [List.length_cons] at *
    omega
  · have := skipBlanksLength rest
    rw [_h] at this
    simp only [List.length_cons] at *
    omega
  · exact readPlainLength _h

def readField (stack : List Frame) (fields : List (String × Json)) (s : List Char) :
    Except Stop (Json × List Char) :=
  match s with
  | '"' :: rest =>
    match _h : readString (rest.length + 1) [] rest with
    | .error stop => .error stop
    | .ok (key, afterKey) =>
      match _hc : skipBlanks afterKey with
      | ':' :: more => readValue (.object fields (String.ofList key) :: stack) (skipBlanks more)
      | other => .error (.fault .colon other.length)
  | other => .error (.fault .propertyName other.length)
termination_by s.length
decreasing_by
  have h1 := readStringLength _h
  have h2 := skipBlanksLength afterKey
  have h3 := skipBlanksLength more
  rw [_hc] at h2
  simp only [List.length_cons] at *
  omega

def close (stack : List Frame) (v : Json) (s : List Char) : Except Stop (Json × List Char) :=
  match stack with
  | [] => .ok (v, s)
  | .array items :: stack =>
    match _h : skipBlanks s with
    | ']' :: rest => close stack (.array (v :: items).reverse) rest
    | ',' :: rest => readValue (.array (v :: items) :: stack) (skipBlanks rest)
    | other => .error (.fault .comma other.length)
  | .object fields key :: stack =>
    match _h : skipBlanks s with
    | '}' :: rest => close stack (.object (Table.set key v fields)) rest
    | ',' :: rest => readField stack (Table.set key v fields) (skipBlanks rest)
    | other => .error (.fault .comma other.length)
termination_by s.length
decreasing_by
  all_goals
    have h1 := skipBlanksLength s
    try have h2 := skipBlanksLength rest
    rw [_h] at h1
    simp only [List.length_cons] at *
    omega

end

structure Place where
  line : Nat
  column : Nat
  position : Nat
  deriving DecidableEq, Repr

def Place.ofPosition (text : List Char) (position : Nat) : Place :=
  let before := text.take position
  ⟨before.count '\n' + 1, (before.reverse.takeWhile (· ≠ '\n')).length + 1, position⟩

inductive ReadError
  | malformed (kind : FaultKind) (place : Place)
  | longInteger (digits : Nat)
  | halfPair (place : Place)
  deriving DecidableEq, Repr

def Place.text (place : Place) : String :=
  "line " ++ toString place.line ++ " column " ++ toString place.column ++ " (char " ++
    toString place.position ++ ")"

def ReadError.message : ReadError → String
  | .malformed kind place => kind.message ++ ": " ++ place.text
  | .halfPair place => "Half of a surrogate pair: " ++ place.text
  | .longInteger digits =>
    "Exceeds the limit (" ++ toString integerDigitLimit ++
      " digits) for integer string conversion: value has " ++ toString digits ++
      " digits; use sys.set_int_max_str_digits() to increase the limit"

def parseChars (text : List Char) : Except Stop Json :=
  if text.head? = some '﻿' then .error (.fault .byteOrderMark text.length)
  else
    match readValue [] (skipBlanks text) with
    | .error stop => .error stop
    | .ok (v, rest) =>
      match skipBlanks rest with
      | [] => .ok v
      | left => .error (.fault .extraData left.length)

def parse (text : String) : Except ReadError Json :=
  let chars := text.toList
  match parseChars chars with
  | .ok v => .ok v
  | .error (.fault kind left) => .error (.malformed kind (.ofPosition chars (chars.length - left)))
  | .error (.longInteger digits) => .error (.longInteger digits)
  | .error (.halfPair left) => .error (.halfPair (.ofPosition chars (chars.length - left)))

end FlowAtlas.Json
