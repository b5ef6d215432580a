import FlowAtlas.Text.Digit
import FlowAtlas.Yaml.Token.Basic
/-! Scalars in their four styles: plain, in single or double quotes, and blocks that keep or fold their
lines. -/
namespace FlowAtlas.Yaml.Scan

/-! Plain scalars. -/

def flowMarks : List Char := [',', '[', ']', '\x7b', '\x7d']

def plainRun (flow : Bool) : List Char → List Char
  | [] => []
  | c :: rest =>
    if separates (some c) then []
    else if c = ':' && (separates rest.head? || (flow && rest.head?.any flowMarks.contains)) then []
    else if flow && (c = '?' || flowMarks.contains c) then []
    else c :: plainRun flow rest

def plainSpaces : Scan (List Char) := do
  let blanks ← takeWhile (· = ' ')
  if !(← peek).any isBreak then return blanks
  let first ← lineBreak
  setAllowKey true
  if ← atDocumentMark then return []
  let mut more := []
  for _ in [0:← rounds] do
    match ← peek with
    | some ' ' => forward 1
    | some c =>
      if !isBreak c then break
      more := more ++ (← lineBreak)
      if ← atDocumentMark then return []
    | none => break
  return foldBreaks first more

def plain (flow : Bool) (indent : Int) : Scan Placed := do
  let start ← here
  let mut text := []
  let mut spaces := []
  let mut stop := start
  for _ in [0:← rounds] do
    if (← peek) = some '#' then break
    let run := plainRun flow (← cursor).rest
    if run.isEmpty then break
    setAllowKey false
    forward run.length
    text := text ++ spaces ++ run
    stop ← here
    spaces ← plainSpaces
    if spaces.isEmpty || (← peek) = some '#' || (!flow && (← here).column < indent + 1) then break
  return ⟨.scalar (String.ofList text) true, start, stop⟩

/-! Quoted scalars. -/

def hexNumber (count : Nat) (task : Task) (start : Place) (expected : String) : Scan Nat := do
  let s ← cursor
  let digits := (s.rest.take count).takeWhile (Text.isDigitOf 16)
  if digits.length < count then
    failAt task start (.unexpected
      (expected ++ " of " ++ toString count ++ " hexadecimal numbers") (found s.rest[digits.length]?))
  forward count
  return Text.valueOf 16 digits

def escapes : List (Char × Char) :=
  [('0', '\x00'), ('a', '\x07'), ('b', '\x08'), ('t', '\t'), ('\t', '\t'), ('n', '\n'), ('v', '\x0b'),
    ('f', '\x0c'), ('r', '\r'), ('e', '\x1b'), (' ', ' '), ('"', '"'), ('\\', '\\'), ('/', '/'),
    ('N', '\u0085'), ('_', '\u00a0'), ('L', '\u2028'), ('P', '\u2029')]

def codeLengths : List (Char × Nat) := [('x', 2), ('u', 4), ('U', 8)]

def quotedBreaks (start : Place) : Scan (List Char) := do
  let mut breaks := []
  for _ in [0:← rounds] do
    if ← atDocumentMark then failAt .quoted start .documentMark
    let _ ← takeWhile fun c => c = ' ' || c = '\t'
    if !(← peek).any isBreak then return breaks
    breaks := breaks ++ (← lineBreak)
  return breaks

def escaped (start : Place) : Scan (List Char) := do
  let next ← peek
  match next.bind (List.lookup · escapes), next.bind (List.lookup · codeLengths) with
  | some e, _ =>
    forward 1
    return [e]
  | none, some count =>
    forward 1
    let code ← hexNumber count .doubleQuoted start "escape sequence"
    if code > 0x10FFFF then refuse (.badCode code)
    if ¬ code.isValidChar then refuse (.halfPair code)
    return [Char.ofNat code]
  | none, none =>
    if !next.any isBreak then failAt .doubleQuoted start (.unknownEscape (found next))
    let _ ← lineBreak
    quotedBreaks start

def quotedText (double : Bool) (start : Place) : Scan (List Char) := do
  let stops (c : Char) : Bool := separates (some c) || c = '\'' || c = '"' || c = '\\'
  let mut text := []
  for _ in [0:← rounds] do
    text := text ++ (← takeWhile (!stops ·))
    match ← peek with
    | some '\'' =>
      if double then
        forward 1
        text := text ++ ['\'']
      else if (← peekAt 1) = some '\'' then
        forward 2
        text := text ++ ['\'']
      else return text
    | some '"' =>
      if double then return text
      forward 1
      text := text ++ ['"']
    | some '\\' =>
      forward 1
      text := text ++ (← if double then escaped start else pure ['\\'])
    | _ => return text
  return text

def quotedSpaces (start : Place) : Scan (List Char) := do
  let blanks ← takeWhile fun c => c = ' ' || c = '\t'
  match ← peek with
  | none => failAt .quoted start .endOfText
  | some c =>
    if !isBreak c then return blanks
    let first ← lineBreak
    return foldBreaks first (← quotedBreaks start)

def quoted (mark : Char) : Scan Placed := do
  let double := mark = '"'
  let start ← here
  forward 1
  let mut text ← quotedText double start
  for _ in [0:← rounds] do
    if (← peek) = some mark then break
    text := text ++ (← quotedSpaces start)
    text := text ++ (← quotedText double start)
  forward 1
  return ⟨.scalar (String.ofList text) false, start, ← here⟩

/-! Block scalars. -/

inductive Chomping
  | clip
  | strip
  | keep
  deriving DecidableEq, Repr

def chomping? : Option Char → Option Chomping
  | some '+' => some .keep
  | some '-' => some .strip
  | _ => none

def blockHeader (start : Place) : Scan (Chomping × Option Nat) := do
  let increment : Scan (Option Nat) := do
    match ← peek with
    | some c =>
      if !c.isDigit then return none
      if c = '0' then failAt .block start .zeroIndentation
      forward 1
      return some (c.toNat - '0'.toNat)
    | none => return none
  let chomping : Scan (Option Chomping) := do
    match chomping? (← peek) with
    | some chomping =>
      forward 1
      return some chomping
    | none => return none
  let first ← chomping
  let indentation ← increment
  let last ← if first.isNone && indentation.isSome then chomping else pure none
  let next ← peek
  if !endsWord next then
    failAt .block start (.unexpected "chomping or indentation indicators" (found next))
  return ((first.or last).getD .clip, indentation)

def skipIndent (indent : Nat) : Scan Unit := do
  for _ in [0:indent] do
    if (← here).column < indent && (← peek) = some ' ' then forward 1

def blockBreaks (indent : Nat) : Scan (List Char) := do
  let mut breaks := []
  skipIndent indent
  for _ in [0:← rounds] do
    if !(← peek).any isBreak then break
    breaks := breaks ++ (← lineBreak)
    skipIndent indent
  return breaks

def blockIndentation : Scan (List Char × Nat) := do
  let mut breaks := []
  let mut deepest := 0
  for _ in [0:← rounds] do
    match ← peek with
    | some ' ' =>
      forward 1
      deepest := max deepest (← here).column
    | some c =>
      if !isBreak c then break
      breaks := breaks ++ (← lineBreak)
    | none => break
  return (breaks, deepest)

def isSpaceOrTab (c : Option Char) : Bool := c = some ' ' || c = some '\t'

def block (indent : Int) (folded : Bool) : Scan Placed := do
  let start ← here
  forward 1
  let (chomping, increment) ← blockHeader start
  endLine .block start
  let least := (indent + 1).toNat.max 1
  let mut breaks := []
  let mut column := 0
  match increment with
  | some n =>
    column := least + n - 1
    breaks ← blockBreaks column
  | none =>
    let (before, deepest) ← blockIndentation
    breaks := before
    column := max least deepest
  let mut text := []
  let mut last := []
  for _ in [0:← rounds] do
    if (← here).column ≠ column || (← peek).isNone then break
    text := text ++ breaks
    let spaced := isSpaceOrTab (← peek)
    text := text ++ (← takeWhile (!isBreak ·))
    last ← lineBreak
    breaks ← blockBreaks column
    if (← here).column ≠ column || (← peek).isNone then break
    if folded && last = ['\n'] && !spaced && !isSpaceOrTab (← peek) then
      if breaks.isEmpty then text := text ++ [' ']
    else text := text ++ last
  if chomping ≠ .strip then text := text ++ last
  if chomping = .keep then text := text ++ breaks
  return ⟨.scalar (String.ofList text) false, start, ← here⟩

end FlowAtlas.Yaml.Scan
