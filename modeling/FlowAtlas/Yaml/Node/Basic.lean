import FlowAtlas.Table
import FlowAtlas.Yaml.Node.Tag
import FlowAtlas.Yaml.Place
/-! Nodes: tagged scalars, sequences and mappings. The nodes of a document are numbered, and a node
names its parts by number, so that a node with a name can stand in several places, also in itself. -/
namespace FlowAtlas.Yaml

inductive Content
  | scalar (text : String)
  | sequence (items : List Nat)
  | mapping (pairs : List (Nat × Nat))
  deriving DecidableEq, Repr

def Content.name : Content → String
  | scalar _ => "scalar"
  | sequence _ => "sequence"
  | mapping _ => "mapping"

def Content.pairs : Content → List (Nat × Nat)
  | mapping pairs => pairs
  | _ => []

structure Node where
  tag : Tag
  content : Content
  place : Place
  deriving DecidableEq, Repr

structure Document where
  nodes : Array Node
  root : Nat
  deriving DecidableEq, Repr

namespace Node

def empty (place : Place) : Node := ⟨.null, .scalar "", place⟩

instance : Inhabited Node := ⟨empty {}⟩

def numbered (nodes : Array Node) (id : Nat) : Node := nodes.getD id default

end Node

end FlowAtlas.Yaml
