import FlowAtlas.Inventory.Key
import FlowAtlas.Json.Value
/-! Chains: what one root sets off, as the keys it reaches and the steps between them. -/
namespace FlowAtlas

structure Edge where
  source : Key
  target : Key
  label : String
  deriving DecidableEq, Repr, Inhabited

structure Chain where
  name : String
  root : Key
  nodes : List Key := []
  edges : List Edge := []
  deriving DecidableEq, Repr, Inhabited

def Edge.toJson (e : Edge) : Json :=
  .object [("source", .text e.source.text), ("target", .text e.target.text), ("label", .text e.label)]

def Chain.toJson (c : Chain) : Json :=
  .object [("name", .text c.name), ("root", .text c.root.text), ("nodes", .texts (c.nodes.map (·.text))),
    ("edges", .array (c.edges.map (·.toJson)))]

end FlowAtlas
