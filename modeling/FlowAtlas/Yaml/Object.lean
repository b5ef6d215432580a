import FlowAtlas.Number.Binary64
import FlowAtlas.Yaml.Timestamp
/-! What nodes stand for. The parts of a collection are given by the numbers of their nodes. -/
namespace FlowAtlas.Yaml

inductive Object
  | null
  | bool (value : Bool)
  | int (value : Int)
  | float (value : Binary64)
  | text (value : String)
  | bytes (value : List UInt8)
  | moment (value : Timestamp)
  | list (items : List Nat)
  | pairs (items : List (Nat × Nat))
  | set (items : List Nat)
  | mapping (entries : List (Nat × Nat))
  deriving DecidableEq, Repr, Inhabited

namespace Object

def isKey : Object → Bool
  | list _ => false
  | pairs _ => false
  | set _ => false
  | mapping _ => false
  | _ => true

def isBlank : Object → Bool
  | null => true
  | bool b => !b
  | int i => i = 0
  | float x => x.isZero
  | text s => s = ""
  | bytes b => b.isEmpty
  | moment _ => false
  | list items => items.isEmpty
  | pairs items => items.isEmpty
  | set items => items.isEmpty
  | mapping entries => entries.isEmpty

def number? : Object → Option (Binary64 ⊕ Int)
  | bool b => some (.inr (if b then 1 else 0))
  | int i => some (.inr i)
  | float x =>
    match x.toInt? with
    | some i => some (.inr i)
    | none => some (.inl x)
  | _ => none

def same (a b : Object) : Bool :=
  match a, b with
  | moment s, moment t => s.same t
  | _, _ =>
    match a.number?, b.number? with
    | some m, some n => m = n && m ≠ .inl .nan
    | none, none => a = b
    | _, _ => false

end Object

end FlowAtlas.Yaml
