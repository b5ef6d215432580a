import FlowAtlas.Yaml.Node.Basic
import FlowAtlas.Yaml.Object
import FlowAtlas.Yaml.Scalar
/-! Building the objects of a document. A scalar is built when it is met; a collection is empty at
first and is filled after all that were met before it, so that it can be part of itself. Filling a
mapping takes the pairs of merged mappings in front of its own. -/
namespace FlowAtlas.Yaml

structure Building where
  nodes : Array Node
  objects : Array (Option Object)
  order : Array Nat := #[]
  deriving Repr

abbrev Build := StateT Building (Except Fault)

namespace Build

def fail {α : Type} (wrong : Wrong) (place : Place) : Build α :=
  throw (.malformed (.problem ⟨none, none, wrong, place⟩))

def failAt {α : Type} (task : Task) (start : Place) (wrong : Wrong) (place : Place) : Build α :=
  throw (.malformed (.problem ⟨some task, some start, wrong, place⟩))

def nodeOf (id : Nat) : Build Node := return .numbered (← get).nodes id

def setNode (id : Nat) (node : Node) : Build Unit :=
  modify fun b => { b with nodes := b.nodes.setIfInBounds id node }

def setObject (id : Nat) (object : Object) : Build Unit :=
  modify fun b => { b with objects := b.objects.setIfInBounds id (some object) }

/-! Scalars. -/

/-- A mapping with an equals sign for a key stands for the scalar there. -/
def standIn? (nodes : Array Node) (id : Nat) : Option Nat :=
  let pairs := (Node.numbered nodes id).content.pairs
  (pairs.find? fun (key, _) => (Node.numbered nodes key).tag = .value).map (·.2)

def scalarText : (fuel : Nat) → (id : Nat) → Build String
  | 0, _ => throw (.scalar .endless)
  | fuel + 1, id => do
    let node ← nodeOf id
    match node.content, standIn? (← get).nodes id with
    | .scalar text, _ => return text
    | _, some part => scalarText fuel part
    | _, none => fail (.otherNode "a scalar node" node.content.name) node.place

def textOf (id : Nat) : Build String := do scalarText ((← get).nodes.size + 1) id

def reading {α : Type} (read : String → Except ScalarFault α) (id : Nat) : Build α := do
  match read (← textOf id) with
  | .ok a => return a
  | .error fault => throw (.scalar fault)

def bytesOf (id : Nat) : Build (List UInt8) := do
  match Scalar.bytes (← textOf id) with
  | .ok bytes => return bytes
  | .error wrong => fail wrong (← nodeOf id).place

def timestampOf (id : Nat) : Build Timestamp := do
  let _ ← textOf id
  match (← nodeOf id).content with
  | .scalar _ => reading Scalar.timestamp id
  | _ => throw (.scalar .timestampOfCollection)

/-! Objects. -/

def emptyOf? : Tag → Option Object
  | .seq => some (.list [])
  | .map => some (.mapping [])
  | .set => some (.set [])
  | .omap => some (.pairs [])
  | .pairs => some (.pairs [])
  | _ => none

def scalar (id : Nat) : Build Object := do
  let node ← nodeOf id
  match node.tag with
  | .null => do
    let _ ← textOf id
    return .null
  | .bool => return .bool (← reading Scalar.bool id)
  | .int => return .int (← reading Scalar.int id)
  | .float => return .float (← reading Scalar.float id)
  | .binary => return .bytes (← bytesOf id)
  | .timestamp => return .moment (← timestampOf id)
  | .str => return .text (← textOf id)
  | tag => fail (.unknownTag tag.name) node.place

def object (id : Nat) : Build Object := do
  match (← get).objects.getD id none with
  | some object => return object
  | none =>
    match emptyOf? (← nodeOf id).tag with
    | some empty =>
      setObject id empty
      modify fun b => { b with order := b.order.push id }
      return empty
    | none =>
      let object ← scalar id
      setObject id object
      return object

/-! Merging. -/

def pairsOf (id : Nat) : Build (List (Nat × Nat)) := return (← nodeOf id).content.pairs

def setPairs (id : Nat) (pairs : List (Nat × Nat)) : Build Unit := do
  setNode id { ← nodeOf id with content := .mapping pairs }

def isMerge (pair : Nat × Nat) : Build Bool := return (← nodeOf pair.1).tag = .merge

/-- Pairs without the first merge key. -/
def withoutMerge : List (Nat × Nat) → Build (List (Nat × Nat))
  | [] => return []
  | pair :: rest => do
    if ← isMerge pair then return rest
    return pair :: (← withoutMerge rest)

def retagKeys (pairs : List (Nat × Nat)) : Build Unit := do
  for (key, _) in pairs do
    let node ← nodeOf key
    if node.tag = .value then setNode key { node with tag := .str }

/-- The pairs that a merge key brings in, once the mappings they are of have been flattened themselves. -/
def mergedPairs (flatten : Nat → Build Unit) (place : Place) (id : Nat) : Build (List (Nat × Nat)) := do
  let node ← nodeOf id
  match node.content with
  | .mapping _ =>
    flatten id
    pairsOf id
  | .sequence items =>
    let mut parts := []
    for item in items do
      let part ← nodeOf item
      match part.content with
      | .mapping _ => flatten item
      | c => failAt .mapping place (.otherNode "a mapping for merging" c.name) part.place
      parts := (← pairsOf item) :: parts
    return parts.flatten
  | c => failAt .mapping place (.otherNode "a mapping or list of mappings for merging" c.name) node.place

/-- Puts the pairs of merged mappings in front of those of a mapping. A merge key is gone before its
mapping is looked at; if that leads back to this mapping, the merge keys left are gone afterwards. -/
def flatten : (fuel : Nat) → (id : Nat) → Build Unit
  | 0, _ => throw (.scalar .endless)
  | fuel + 1, id => do
    let place := (← nodeOf id).place
    let pairs ← pairsOf id
    retagKeys pairs
    let mut merged := []
    let mut left := pairs
    for pair in pairs do
      if ← isMerge pair then
        left ← withoutMerge left
        setPairs id left
        merged := merged ++ (← mergedPairs (flatten fuel) place pair.2)
        let now ← pairsOf id
        if now ≠ left then
          left := now
          break
    setPairs id (merged ++ left)

/-- There are no more merge keys than pairs. -/
def flattenAll (id : Nat) : Build Unit := do
  flatten ((← get).nodes.foldl (fun pairs node => pairs + node.content.pairs.length) 2) id

/-! Filling. -/

def entries (id : Nat) : Build (List (Nat × Nat)) := do
  let node ← nodeOf id
  match node.content with
  | .mapping _ =>
    flattenAll id
    let pairs ← pairsOf id
    for (key, value) in pairs do
      if !(← object key).isKey then failAt .mapping node.place .unfitKey (← nodeOf key).place
      let _ ← object value
    return pairs
  | c => fail (.otherNode "a mapping node" c.name) node.place

def singlePairs (task : Task) (id : Nat) : Build (List (Nat × Nat)) := do
  let node ← nodeOf id
  match node.content with
  | .sequence items =>
    items.mapM fun item => do
      let part ← nodeOf item
      match part.content with
      | .mapping [(key, value)] =>
        let _ ← object key
        let _ ← object value
        return (key, value)
      | .mapping pairs => failAt task node.place (.manyItems pairs.length) part.place
      | c => failAt task node.place (.otherNode "a mapping of length 1" c.name) part.place
  | c => failAt task node.place (.otherNode "a sequence" c.name) node.place

def sameKey (a b : Nat) : Build Bool := do
  if a = b then return true
  let x ← object a
  let y ← object b
  if x = .float .nan && y = .float .nan then
    return Scalar.isNanWord (← textOf a) && Scalar.isNanWord (← textOf b)
  return x.same y

def distinct (keys : List Nat) : Build (List Nat) := do
  let mut kept := []
  for key in keys do
    if !(← kept.anyM fun other => sameKey other key) then kept := kept ++ [key]
  return kept

def fill (id : Nat) : Build Unit := do
  let node ← nodeOf id
  match node.tag with
  | .map => setObject id (.mapping (← entries id))
  | .set => setObject id (.set (← distinct ((← entries id).map (·.1))))
  | .omap => setObject id (.pairs (← singlePairs .orderedMap id))
  | .pairs => setObject id (.pairs (← singlePairs .pairs id))
  | _ =>
    match node.content with
    | .sequence items =>
      for item in items do
        let _ ← object item
      setObject id (.list items)
    | c => fail (.otherNode "a sequence node" c.name) node.place

def document (root : Nat) : Build Unit := do
  let _ ← object root
  for i in [0:(← get).nodes.size] do
    match (← get).order[i]? with
    | some id => fill id
    | none => break

end Build

def Document.objects (d : Document) : Except Fault (Array Object) := do
  let ((), b) ← (Build.document d.root).run { nodes := d.nodes, objects := d.nodes.map fun _ => none }
  return b.objects.map (·.getD .null)

end FlowAtlas.Yaml
