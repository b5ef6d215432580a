import FlowAtlas.Yaml.Fault
/-! Tokens of a YAML text, and the state of scanning: what is left of the text, where it stands, the
columns of the open blocks, the tokens that nobody has taken yet, and which of them may turn out to be
keys. -/
namespace FlowAtlas.Yaml

inductive Token
  | streamEnd
  | version (major : Nat)
  | handle (name expansion : String)
  | directive
  | documentStart
  | documentEnd
  | blockSequenceStart
  | blockMappingStart
  | blockEnd
  | flowSequenceStart
  | flowSequenceEnd
  | flowMappingStart
  | flowMappingEnd
  | key
  | value
  | blockEntry
  | flowEntry
  | alias (name : String)
  | anchor (name : String)
  | tag (handle : Option String) (suffix : String)
  | scalar (text : String) (plain : Bool)
  deriving DecidableEq, Repr

def Token.name : Token → String
  | .streamEnd => "<stream end>"
  | .version _ => "<directive>"
  | .handle .. => "<directive>"
  | .directive => "<directive>"
  | .documentStart => "<document start>"
  | .documentEnd => "<document end>"
  | .blockSequenceStart => "<block sequence start>"
  | .blockMappingStart => "<block mapping start>"
  | .blockEnd => "<block end>"
  | .flowSequenceStart => "["
  | .flowSequenceEnd => "]"
  | .flowMappingStart => "\x7b"
  | .flowMappingEnd => "\x7d"
  | .key => "?"
  | .value => ":"
  | .blockEntry => "-"
  | .flowEntry => ","
  | .alias _ => "<alias>"
  | .anchor _ => "<anchor>"
  | .tag .. => "<tag>"
  | .scalar .. => "<scalar>"

structure Placed where
  token : Token
  start : Place
  stop : Place
  deriving DecidableEq, Repr

/-- A token that is a key if a colon follows it on its line; `token` is its number. -/
structure PossibleKey where
  token : Nat
  required : Bool
  place : Place
  deriving DecidableEq, Repr

/-- A place in a text, with the count of the characters that are left. -/
structure Cursor where
  rest : List Char
  left : Nat
  counted : left = rest.length
  place : Place := {}
  allowKey : Bool := true
  deriving Repr

/-- `taken` counts the tokens that have been taken. -/
structure Scanner extends Cursor where
  flowLevel : Nat := 0
  indent : Int := -1
  indents : List Int := []
  keys : List (Nat × PossibleKey) := []
  tokens : List Placed := []
  taken : Nat := 0
  done : Bool := false
  deriving Repr

def Scanner.ofText (text : List Char) : Scanner := { rest := text, left := text.length, counted := rfl }

abbrev Fetch := StateT Scanner (Except ScanFault)

def endsLine : Option Char → Bool
  | none => true
  | some c => isBreak c

def endsWord (c : Option Char) : Bool := c = some ' ' || endsLine c

def separates (c : Option Char) : Bool := c = some '\t' || endsWord c

def isNameChar (c : Char) : Bool := c.isAlphanum || c = '-' || c = '_'

def found : Option Char → String
  | some c => String.singleton c
  | none => "\x00"

namespace Cursor

def advance (c : Cursor) : Cursor :=
  match left : c.rest with
  | [] => c
  | d :: rest =>
    let p := c.place
    let place : Place :=
      if isBreak d && !(d = '\r' && rest.head? = some '\n') then ⟨p.index + 1, p.line + 1, 0⟩
      else ⟨p.index + 1, p.line, if d = '\ufeff' then p.column else p.column + 1⟩
    { c with rest, left := c.left - 1, counted := by simp [c.counted, left], place }

def advanceBy (c : Cursor) : Nat → Cursor
  | 0 => c
  | n + 1 => c.advance.advanceBy n

theorem advanceRest (c : Cursor) : c.advance.rest = c.rest.tail := by
  unfold advance
  split <;> simp_all

theorem advanceByRest (c : Cursor) (n : Nat) : (c.advanceBy n).rest = c.rest.drop n := by
  induction n generalizing c with
  | zero => rfl
  | succ n ih => rw [advanceBy, ih, advanceRest, List.drop_tail]

end Cursor

/-- A step that only moves on in the text. It cannot touch the tokens. -/
def Scan (α : Type) : Type := (c : Cursor) → Except ScanFault { p : α × Cursor // p.2.rest <:+ c.rest }

namespace Scan

instance : Monad Scan where
  pure a := fun c => .ok ⟨(a, c), List.suffix_rfl⟩
  bind step next := fun c =>
    match step c with
    | .error fault => .error fault
    | .ok ⟨(a, d), first⟩ =>
      match next a d with
      | .error fault => .error fault
      | .ok ⟨p, second⟩ => .ok ⟨p, second.trans first⟩

instance : MonadLift Scan Fetch where
  monadLift step := fun s =>
    match step s.toCursor with
    | .error fault => .error fault
    | .ok ⟨(a, c), _⟩ => .ok (a, { s with toCursor := c })

def cursor : Scan Cursor := fun c => .ok ⟨(c, c), List.suffix_rfl⟩

def refuse {α : Type} (fault : ScanFault) : Scan α := fun _ => .error fault

def here : Scan Place := return (← cursor).place

def failAt {α : Type} (task : Task) (start : Place) (wrong : Wrong) : Scan α := do
  refuse (.malformed (.problem ⟨some task, some start, wrong, ← here⟩))

def fail {α : Type} (wrong : Wrong) : Scan α := do
  refuse (.malformed (.problem ⟨none, none, wrong, ← here⟩))

def peekAt (n : Nat) : Scan (Option Char) := return (← cursor).rest[n]?

def peek : Scan (Option Char) := peekAt 0

def forward (n : Nat) : Scan Unit := fun c =>
  .ok ⟨((), c.advanceBy n), c.advanceByRest n ▸ List.drop_suffix n c.rest⟩

def setAllowKey (allow : Bool) : Scan Unit := fun c => .ok ⟨((), { c with allowKey := allow }), List.suffix_rfl⟩

/-- How often a loop can go round that takes a character each time, and once more. -/
def rounds : Scan Nat := return (← cursor).left + 1

def takeWhile (p : Char → Bool) : Scan (List Char) := do
  let taken := (← cursor).rest.takeWhile p
  forward taken.length
  return taken

def skipSpaces : Scan Unit := do
  let _ ← takeWhile (· = ' ')

def skipComment : Scan Unit := do
  if (← peek) = some '#' then
    let _ ← takeWhile (!isBreak ·)

def lineBreak : Scan (List Char) := do
  match ← peek with
  | none => return []
  | some c =>
    if !isBreak c then return []
    forward (if c = '\r' && (← peekAt 1) = some '\n' then 2 else 1)
    return if c = '\u2028' || c = '\u2029' then [c] else ['\n']

def endLine (task : Task) (start : Place) : Scan Unit := do
  skipSpaces
  skipComment
  let next ← peek
  if !endsLine next then failAt task start (.unexpected "a comment or a line break" (found next))
  let _ ← lineBreak

def atDocumentMark : Scan Bool := do
  let s ← cursor
  return (s.rest.take 3 = ['-', '-', '-'] || s.rest.take 3 = ['.', '.', '.']) && separates s.rest[3]?

end Scan

def foldBreaks (first more : List Char) : List Char :=
  (if first ≠ ['\n'] then first else if more.isEmpty then [' '] else []) ++ more

end FlowAtlas.Yaml
