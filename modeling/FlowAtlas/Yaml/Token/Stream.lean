import FlowAtlas.Number.Reading
import FlowAtlas.Table
import FlowAtlas.Yaml.Token.Scalar
/-! The tokens of a text, scanned as they are asked for. Indentation opens and closes blocks, and a colon
may make a key of a token scanned before it, so a token is given out only when it can no longer become a
key. -/
namespace FlowAtlas.Yaml.Scan

/-! Directives and tags. -/

def isUriChar (c : Char) : Bool :=
  c.isAlphanum ||
    ['-', ';', '/', '?', ':', '@', '&', '=', '+', '$', ',', '_', '.', '!', '~', '*', '\'', '(', ')', '[',
      ']'].contains c

def uriEscapes (task : Task) (start : Place) : Scan (List Char) := do
  let place ← here
  let mut bytes := []
  for _ in [0:← rounds] do
    if (← peek) ≠ some '%' then break
    forward 1
    bytes := bytes ++ [UInt8.ofNat (← hexNumber 2 task start "URI escape sequence")]
  match Text.Utf8.decode bytes with
  | .ok s => return s.toList
  | .error fault => refuse (.malformed (.problem ⟨some task, some start, .badBytes fault.message, place⟩))

def uri (task missing : Task) (start : Place) : Scan String := do
  let mut text ← takeWhile isUriChar
  for _ in [0:← rounds] do
    if (← peek) ≠ some '%' then break
    text := text ++ (← uriEscapes task start)
    text := text ++ (← takeWhile isUriChar)
  if text.isEmpty then failAt missing start (.unexpected "URI" (found (← peek)))
  return String.ofList text

def tagHandle (task : Task) (start : Place) : Scan String := do
  let first ← peek
  if first ≠ some '!' then failAt task start (.unexpected "'!'" (found first))
  forward 1
  if (← peek) = some ' ' then return "!"
  let name ← takeWhile isNameChar
  let last ← peek
  if last ≠ some '!' then failAt task start (.unexpected "'!'" (found last))
  forward 1
  return String.ofList ('!' :: name ++ ['!'])

def number (start : Place) : Scan Nat := do
  let next ← peek
  if !next.any Char.isDigit then failAt .directive start (.unexpected "a digit" (found next))
  let digits ← takeWhile Char.isDigit
  if Number.digitLimit < digits.length then
    refuse (.longInteger Number.digitLimit digits.length)
  return Text.valueOf 10 digits

def directive : Scan Placed := do
  let start ← here
  let demand (allowed : Option Char → Bool) (expected : String) : Scan Unit := do
    let next ← peek
    if !allowed next then failAt .directive start (.unexpected expected (found next))
  forward 1
  demand (·.any isNameChar) "alphabetic or numeric character"
  let name ← takeWhile isNameChar
  demand endsWord "alphabetic or numeric character"
  if name = "YAML".toList then
    skipSpaces
    let major ← number start
    demand (· = some '.') "a digit or '.'"
    forward 1
    let _ ← number start
    demand endsWord "a digit or ' '"
    let stop ← here
    endLine .directive start
    return ⟨.version major, start, stop⟩
  else if name = "TAG".toList then
    skipSpaces
    let handle ← tagHandle .directive start
    demand (· = some ' ') "' '"
    skipSpaces
    let expansion ← uri .directive .directiveAddress start
    demand endsWord "' '"
    let stop ← here
    endLine .directive start
    return ⟨.handle handle expansion, start, stop⟩
  else
    let stop ← here
    let _ ← takeWhile (!isBreak ·)
    endLine .directive start
    return ⟨.directive, start, stop⟩

def nameToken (task : Task) (token : String → Token) : Scan Placed := do
  let start ← here
  forward 1
  let name ← takeWhile isNameChar
  let next ← peek
  if name.isEmpty ||
      !(separates next || next.any ['?', ':', ',', ']', '\x7d', '%', '@', '\x60'].contains) then
    failAt task start (.unexpected "alphabetic or numeric character" (found next))
  return ⟨token (String.ofList name), start, ← here⟩

def hasHandle (s : List Char) : Bool := (s.takeWhile fun c => !endsWord (some c)).contains '!'

def tag : Scan Placed := do
  let start ← here
  let next ← peekAt 1
  let mut token := Token.tag none "!"
  if next = some '<' then
    forward 2
    token := .tag none (← uri .tag .tagAddress start)
    let last ← peek
    if last ≠ some '>' then failAt .tagAddress start (.unexpected "'>'" (found last))
    forward 1
  else if separates next then forward 1
  else
    let handle ← if hasHandle ((← cursor).rest.drop 1) then tagHandle .tag start else do
      forward 1
      pure "!"
    token := .tag (some handle) (← uri .tag .tagAddress start)
  let last ← peek
  if !endsWord last then failAt .tag start (.unexpected "' '" (found last))
  return ⟨token, start, ← here⟩

def skipToToken (flow : Bool) : Scan Unit := do
  let c ← cursor
  if c.place.index = 0 && c.rest.head? = some '\ufeff' then forward 1
  for _ in [0:← rounds] do
    skipSpaces
    skipComment
    if (← lineBreak).isEmpty then break
    if !flow then setAllowKey true

def indicators : List Char :=
  ['-', '?', ':', ',', '[', ']', '\x7b', '\x7d', '#', '&', '*', '!', '|', '>', '\'', '"', '%', '@', '\x60']

def startsPlain (flow : Bool) : List Char → Bool
  | [] => false
  | c :: rest =>
    (!separates (some c) && !indicators.contains c) ||
      (!separates rest.head? && (c = '-' || (!flow && (c = '?' || c = ':'))))

end FlowAtlas.Yaml.Scan

namespace FlowAtlas.Yaml.Fetch

open Scan

def push (t : Placed) : Fetch Unit := modify fun s => { s with tokens := s.tokens ++ [t] }

def pushHere (t : Token) : Fetch Unit := do
  let place ← here
  push ⟨t, place, place⟩

def pushTaking (count : Nat) (t : Token) : Fetch Unit := do
  let start ← here
  forward count
  push ⟨t, start, ← here⟩

def insertAt (n : Nat) (t : Placed) : Fetch Unit :=
  modify fun s => { s with tokens := s.tokens.take n ++ t :: s.tokens.drop n }

/-! Possible keys. -/

def dropKey : Fetch Unit := do
  let s ← get
  match Table.get? s.flowLevel s.keys with
  | some k =>
    if k.required then failAt .simpleKey k.place .noColon
    set { s with keys := s.keys.filter (·.1 ≠ s.flowLevel) }
  | none => return

def saveKey : Fetch Unit := do
  let s ← get
  if s.allowKey then
    dropKey
    let required := s.flowLevel = 0 && s.indent = s.place.column
    let key : PossibleKey := ⟨s.taken + s.tokens.length, required, s.place⟩
    modify fun s => { s with keys := (s.flowLevel, key) :: s.keys }

def keyReach : Nat := 1024

def dropStaleKeys : Fetch Unit := do
  let s ← get
  let stale (k : PossibleKey) : Bool :=
    k.place.line ≠ s.place.line || keyReach < s.place.index - k.place.index
  match s.keys.find? fun (_, k) => stale k && k.required with
  | some (_, k) => failAt .simpleKey k.place .noColon
  | none => set { s with keys := s.keys.filter fun (_, k) => !stale k }

/-! Blocks. -/

def closeBlocks (column : Int) : (indents : List Int) → Fetch Unit
  | [] => return
  | outer :: indents => do
    if (← get).indent > column then
      modify fun s => { s with indent := outer, indents }
      pushHere .blockEnd
      closeBlocks column indents

def unwind (column : Int) : Fetch Unit := do
  let s ← get
  if s.flowLevel = 0 then closeBlocks column s.indents

def addIndent (column : Nat) : Fetch Bool := do
  let s ← get
  if s.indent < column then
    set { s with indent := (column : Int), indents := s.indent :: s.indents }
    return true
  return false

/-! Fetching the next token. -/

def fetchEnd : Fetch Unit := do
  unwind (-1)
  dropKey
  modify fun s => { s with allowKey := false, keys := [], done := true }
  pushHere .streamEnd

def fetchDirective : Fetch Unit := do
  unwind (-1)
  dropKey
  setAllowKey false
  push (← directive)

def fetchDocumentMark (t : Token) : Fetch Unit := do
  unwind (-1)
  dropKey
  setAllowKey false
  pushTaking 3 t

def fetchFlowStart (t : Token) : Fetch Unit := do
  saveKey
  modify fun s => { s with flowLevel := s.flowLevel + 1, allowKey := true }
  pushTaking 1 t

def fetchFlowEnd (t : Token) : Fetch Unit := do
  dropKey
  modify fun s => { s with flowLevel := s.flowLevel - 1, allowKey := false }
  pushTaking 1 t

def fetchFlowEntry : Fetch Unit := do
  setAllowKey true
  dropKey
  pushTaking 1 .flowEntry

/-- In a block, an indicator stands only where a key could; it opens a block of its kind. -/
def openBlock (start : Token) (what : String) : Fetch Unit := do
  let s ← get
  if s.flowLevel = 0 then
    if !s.allowKey then fail (.misplaced what)
    if ← addIndent s.place.column then pushHere start

def fetchBlockEntry : Fetch Unit := do
  openBlock .blockSequenceStart "sequence entries"
  setAllowKey true
  dropKey
  pushTaking 1 .blockEntry

def fetchKey : Fetch Unit := do
  openBlock .blockMappingStart "mapping keys"
  setAllowKey ((← get).flowLevel = 0)
  dropKey
  pushTaking 1 .key

def fetchValue : Fetch Unit := do
  let s ← get
  match Table.get? s.flowLevel s.keys with
  | some k =>
    let n := k.token - s.taken
    set { s with keys := s.keys.filter (·.1 ≠ s.flowLevel) }
    insertAt n ⟨.key, k.place, k.place⟩
    if s.flowLevel = 0 then
      if ← addIndent k.place.column then insertAt n ⟨.blockMappingStart, k.place, k.place⟩
    setAllowKey false
  | none =>
    openBlock .blockMappingStart "mapping values"
    setAllowKey (s.flowLevel = 0)
    dropKey
  pushTaking 1 .value

def fetchContent (scan : Scan Placed) : Fetch Unit := do
  saveKey
  setAllowKey false
  push (← scan)

def fetchBlockScalar (folded : Bool) : Fetch Unit := do
  setAllowKey true
  dropKey
  push (← block (← get).indent folded)

def fetchPlain (c : Char) : Fetch Unit := do
  let s ← get
  let flow := s.flowLevel > 0
  if startsPlain flow s.rest then fetchContent (plain flow s.indent)
  else throw (.malformed (.problem ⟨some .token, none, .badStart c, ← here⟩))

def fetch : Fetch Unit := do
  skipToToken ((← get).flowLevel > 0)
  dropStaleKeys
  unwind (← here).column
  let s ← get
  let flow := s.flowLevel > 0
  let next := s.rest.tail.head?
  match s.rest.head? with
  | none => fetchEnd
  | some c =>
    if c = '%' && s.place.column = 0 then fetchDirective
    else if s.place.column = 0 && (← atDocumentMark) then
      fetchDocumentMark (if c = '-' then .documentStart else .documentEnd)
    else
      match c with
      | '[' => fetchFlowStart .flowSequenceStart
      | '\x7b' => fetchFlowStart .flowMappingStart
      | ']' => fetchFlowEnd .flowSequenceEnd
      | '\x7d' => fetchFlowEnd .flowMappingEnd
      | ',' => fetchFlowEntry
      | '-' => if separates next then fetchBlockEntry else fetchPlain c
      | '?' => if flow || separates next then fetchKey else fetchPlain c
      | ':' => if flow || separates next then fetchValue else fetchPlain c
      | '*' => fetchContent (nameToken .alias .alias)
      | '&' => fetchContent (nameToken .anchor .anchor)
      | '!' => fetchContent tag
      | '|' => if flow then fetchPlain c else fetchBlockScalar false
      | '>' => if flow then fetchPlain c else fetchBlockScalar true
      | '\'' => fetchContent (Scan.quoted '\'')
      | '"' => fetchContent (Scan.quoted '"')
      | _ => fetchPlain c

def needsMore : Fetch Bool := do
  let s ← get
  if s.done then return false
  if s.tokens.isEmpty then return true
  dropStaleKeys
  let s ← get
  return s.keys.any fun (_, k) => k.token = s.taken

def upcoming : Fetch Placed := do
  for _ in [0:← rounds] do
    if !(← needsMore) then break
    fetch
  match (← get).tokens with
  | t :: _ => return t
  | [] =>
    let place ← here
    return ⟨.streamEnd, place, place⟩

def next : Fetch Placed := do
  let t ← upcoming
  modify fun s => { s with tokens := s.tokens.drop 1, taken := s.taken + 1 }
  return t

end FlowAtlas.Yaml.Fetch

namespace FlowAtlas.Yaml

def isAllowed (c : Char) : Bool :=
  let n := c.toNat
  n = 9 || n = 10 || n = 13 || (0x20 ≤ n && n ≤ 0x7E) || n = 0x85 || (0xA0 ≤ n && n ≤ 0xD7FF) ||
    (0xE000 ≤ n && n ≤ 0xFFFD) || 0x10000 ≤ n

end FlowAtlas.Yaml
