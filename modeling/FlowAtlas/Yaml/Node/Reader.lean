import FlowAtlas.Yaml.Node.Basic
import FlowAtlas.Yaml.Node.Look
import FlowAtlas.Yaml.Token.Stream
/-! Reading the nodes of a document from the tokens of its text. An alias stands for the node that has
its name. -/
namespace FlowAtlas.Yaml

structure Reading where
  scanner : Scanner
  handles : List (String × String) := []
  nodes : Array Node := #[]
  anchors : List (String × Nat) := []
  deriving Repr

abbrev Read := StateT Reading (Except Fault)

namespace Read

def fetch {α : Type} (step : Fetch α) : Read α := do
  let r ← get
  match step.run r.scanner with
  | .ok (a, scanner) =>
    set { r with scanner }
    return a
  | .error fault => throw fault.fault

def fail {α : Type} (wrong : Wrong) (place : Place) : Read α :=
  throw (.malformed (.problem ⟨none, none, wrong, place⟩))

def failAt {α : Type} (task : Task) (start : Place) (wrong : Wrong) (place : Place) : Read α :=
  throw (.malformed (.problem ⟨some task, some start, wrong, place⟩))

def endless {α : Type} : Read α := throw (.scalar .endless)

def peek : Read Placed := fetch Fetch.upcoming

def skip : Read Unit := do
  let _ ← fetch Fetch.next

def accept (t : Token) : Read Bool := do
  if (← peek).token = t then
    skip
    return true
  return false

def separated (task : Task) (start : Place) (expected : String) : Read Unit := do
  let t ← peek
  if t.token ≠ .flowEntry then failAt task start (.unexpectedInFlow expected t.token.name) t.start
  skip

def add (node : Node) : Read Nat := do
  let r ← get
  set { r with nodes := r.nodes.push node }
  return r.nodes.size

def setContent (id : Nat) (content : Content) : Read Unit :=
  modify fun r => { r with nodes := r.nodes.modify id fun node => { node with content } }

def checkAnchor (name : Option String) (place : Place) : Read Unit := do
  let r ← get
  match name.bind fun name => (Table.get? name r.anchors).map fun id => (name, id) with
  | some (name, id) => failAt (.sameAnchor name) (Node.numbered r.nodes id).place .secondAnchor place
  | none => return

def define (name : Option String) (id : Nat) : Read Unit :=
  match name with
  | some name => modify fun r => { r with anchors := Table.set name id r.anchors }
  | none => return

end Read

namespace Node

open Read

structure Properties where
  start : Option Place := none
  anchor : Option String := none
  tag : Option String := none
  deriving DecidableEq, Repr

def tagName (start place : Place) : Option String × String → Read String
  | (none, suffix) => return suffix
  | (some handle, suffix) => do
    match Table.get? handle (← get).handles with
    | some expansion => return expansion ++ suffix
    | none => failAt .node start (.unknownHandle handle) place

def properties : Read Properties := do
  let first ← peek
  match first.token with
  | .anchor name =>
    skip
    let second ← peek
    match second.token with
    | .tag handle suffix =>
      skip
      return ⟨first.start, name, ← tagName first.start second.start (handle, suffix)⟩
    | _ => return ⟨first.start, name, none⟩
  | .tag handle suffix =>
    skip
    let second ← peek
    match second.token with
    | .anchor name =>
      skip
      return ⟨first.start, name, ← tagName first.start first.start (handle, suffix)⟩
    | _ => return ⟨first.start, none, ← tagName first.start first.start (handle, suffix)⟩
  | _ => return {}

def scalarTag (tag : Option String) (text : String) (plain : Bool) : Tag :=
  match tag with
  | none => if plain then .ofPlain text else .str
  | some "!" => .ofPlain text
  | some name => .ofName name

def collectionTag (tag : Option String) (default : Tag) : Tag :=
  match tag with
  | none => default
  | some "!" => default
  | some name => .ofName name

def readScalar (p : Properties) (start : Place) (text : String) (plain : Bool) : Read Nat := do
  let id ← add ⟨scalarTag p.tag text plain, .scalar text, start⟩
  define p.anchor id
  return id

def readCollection {α : Type} (p : Properties) (start : Place) (tag : Tag) (content : List α → Content)
    (parts : Read (List α)) : Read Nat := do
  let id ← add ⟨collectionTag p.tag tag, content [], start⟩
  define p.anchor id
  setContent id (content (← parts))
  return id

def readBare (p : Properties) (task : Task) (start : Place) (t : Placed) : Read Nat :=
  if p.start.isSome then readScalar p start "" true
  else failAt task start (.unexpected "the node content" t.token.name) t.start

mutual

/-- A node; `block` says whether it may be a block, `compact` whether the entries of a sequence may
stand at the column of their key. -/
def read (block compact : Bool) : (fuel : Nat) → Read Nat
  | 0 => endless
  | fuel + 1 => do
    let first ← peek
    match first.token with
    | .alias name =>
      skip
      match Table.get? name (← get).anchors with
      | some id => return id
      | none => fail (.unknownAlias name) first.start
    | _ =>
      let p ← properties
      let t ← peek
      let start := p.start.getD t.start
      checkAnchor p.anchor start
      let bare := readBare p (if block then .blockNode else .flowNode) start t
      match t.token with
      | .blockEntry => if compact then readCollection p start .seq .sequence (compactEntries fuel) else bare
      | .scalar text plain => do
        skip
        readScalar p start text plain
      | .flowSequenceStart => do
        skip
        readCollection p start .seq .sequence (flowEntries t.start true fuel)
      | .flowMappingStart => do
        skip
        readCollection p start .map .mapping (flowPairs t.start true fuel)
      | .blockSequenceStart => if !block then bare else do
        skip
        readCollection p start .seq .sequence (blockEntries t.start fuel)
      | .blockMappingStart => if !block then bare else do
        skip
        readCollection p start .map .mapping (blockPairs t.start fuel)
      | _ => bare

def readUnless (stops : List Token) (place : Place) (block compact : Bool) : (fuel : Nat) → Read Nat
  | 0 => endless
  | fuel + 1 => do
    if (← peek).token ∈ stops then add (empty place) else read block compact fuel

def readValue (stops : List Token) (block compact : Bool) : (fuel : Nat) → Read Nat
  | 0 => endless
  | fuel + 1 => do
    let t ← peek
    if t.token = .value then
      skip
      readUnless stops t.stop block compact fuel
    else add (empty t.start)

def blockEntries (start : Place) : (fuel : Nat) → Read (List Nat)
  | 0 => endless
  | fuel + 1 => do
    let t ← peek
    match t.token with
    | .blockEntry =>
      skip
      let item ← readUnless [.blockEntry, .blockEnd] t.stop true false fuel
      return item :: (← blockEntries start fuel)
    | .blockEnd =>
      skip
      return []
    | _ => failAt .blockSequence start (.unexpected "<block end>" t.token.name) t.start

def compactEntries : (fuel : Nat) → Read (List Nat)
  | 0 => endless
  | fuel + 1 => do
    let t ← peek
    match t.token with
    | .blockEntry =>
      skip
      let item ← readUnless [.blockEntry, .key, .value, .blockEnd] t.stop true false fuel
      return item :: (← compactEntries fuel)
    | _ => return []

def blockPairs (start : Place) : (fuel : Nat) → Read (List (Nat × Nat))
  | 0 => endless
  | fuel + 1 => do
    let t ← peek
    match t.token with
    | .key =>
      skip
      let key ← readUnless [.key, .value, .blockEnd] t.stop true true fuel
      let value ← readValue [.key, .value, .blockEnd] true true fuel
      return (key, value) :: (← blockPairs start fuel)
    | .blockEnd =>
      skip
      return []
    | _ => failAt .blockMapping start (.unexpected "<block end>" t.token.name) t.start

def flowEntries (start : Place) (first : Bool) : (fuel : Nat) → Read (List Nat)
  | 0 => endless
  | fuel + 1 => do
    if ← accept .flowSequenceEnd then return []
    if !first then separated .flowSequence start "',' or ']'"
    let t ← peek
    match t.token with
    | .flowSequenceEnd =>
      skip
      return []
    | .key =>
      skip
      let key ← readUnless [.value, .flowEntry, .flowSequenceEnd] t.stop false false fuel
      let value ← readValue [.flowEntry, .flowSequenceEnd] false false fuel
      let pair ← add ⟨.map, .mapping [(key, value)], t.start⟩
      return pair :: (← flowEntries start false fuel)
    | _ =>
      let item ← read false false fuel
      return item :: (← flowEntries start false fuel)

def flowPairs (start : Place) (first : Bool) : (fuel : Nat) → Read (List (Nat × Nat))
  | 0 => endless
  | fuel + 1 => do
    if ← accept .flowMappingEnd then return []
    if !first then separated .flowMapping start "',' or '\x7d'"
    let t ← peek
    match t.token with
    | .flowMappingEnd =>
      skip
      return []
    | .key =>
      skip
      let key ← readUnless [.value, .flowEntry, .flowMappingEnd] t.stop false false fuel
      let value ← readValue [.flowEntry, .flowMappingEnd] false false fuel
      return (key, value) :: (← flowPairs start false fuel)
    | _ =>
      let key ← read false false fuel
      let value ← add (empty (← peek).start)
      return (key, value) :: (← flowPairs start false fuel)

end

end Node

namespace Document

open Read

def defaultHandles : List (String × String) := [("!", "!"), ("!!", Tag.standardStart)]

def isDirective : Token → Bool
  | .version _ => true
  | .handle .. => true
  | .directive => true
  | _ => false

def directives (version : Bool) (handles : List (String × String)) : (fuel : Nat) → Read Unit
  | 0 => endless
  | fuel + 1 => do
    let t ← peek
    match t.token with
    | .version major =>
      skip
      if version then fail .secondVersion t.start
      if major ≠ 1 then fail .otherVersion t.start
      directives true handles fuel
    | .handle name expansion =>
      skip
      if (Table.get? name handles).isSome then fail (.sameHandle name) t.start
      directives version ((name, expansion) :: handles) fuel
    | .directive =>
      skip
      directives version handles fuel
    | _ => modify fun r => { r with handles := handles ++ defaultHandles }

def start (fuel : Nat) : Read Unit := do
  directives false [] fuel
  let t ← peek
  if t.token ≠ .documentStart then fail (.unexpected "'<document start>'" t.token.name) t.start
  skip

def content (fuel : Nat) : Read Nat := do
  let t ← peek
  if isDirective t.token || t.token ∈ [.documentStart, .documentEnd, .streamEnd] then add (Node.empty t.start)
  else Node.read true false fuel

def firstRoot (fuel : Nat) : Read Nat := do
  let first ← peek
  if isDirective first.token || first.token = .documentStart then
    start fuel
    content fuel
  else
    modify fun r => { r with handles := defaultHandles }
    Node.read true false fuel

def ending (fuel : Nat) (root : Nat) : Read Unit := do
  for _ in [0:fuel] do
    if !(← accept .documentEnd) then break
  let t ← peek
  if t.token ≠ .streamEnd then
    start fuel
    failAt .onlyDocument (Node.numbered (← get).nodes root).place .secondDocument t.start

def root? (fuel : Nat) : Read (Option Nat) := do
  if (← peek).token = .streamEnd then return none
  let root ← firstRoot fuel
  ending fuel root
  return some root

/-- Every character gives at most three tokens, and a token is reached in at most four steps. -/
def fuelFor (text : List Char) : Nat := 12 * text.length + 16

def ofText? (text : List Char) : Except Fault (Option Document) := do
  match text.findIdx? (!isAllowed ·) with
  | some i => throw (.malformed (.badCharacter (text.getD i ' ').toNat i))
  | none =>
    let (root, r) ← (root? (fuelFor text)).run { scanner := .ofText text }
    return root.map fun root => ⟨r.nodes, root⟩

end Document

end FlowAtlas.Yaml
