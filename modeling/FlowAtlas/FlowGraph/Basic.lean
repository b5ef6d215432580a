import FlowAtlas.Inventory.Basic
import FlowAtlas.Table
import FlowAtlas.Tally
/-! Flow graphs: directed multigraphs of named elements. An edge is taken only when both of its ends are
nodes; a node that is added again replaces the old one in its place. -/
namespace FlowAtlas

structure FlowNode where
  name : String
  label : String
  category : Category
  deriving DecidableEq, Repr

structure FlowEdge where
  source : String
  target : String
  callType : String
  sourceMethod : String := ""
  targetMethod : String := ""
  deriving DecidableEq, Repr

structure Arc where
  source : Nat
  target : Nat
  edge : FlowEdge
  deriving DecidableEq, Repr

/-- Every node stands at its index. Tables lead from names to indices and back, and from each category to the
names of its nodes. -/
structure FlowGraph where
  nodes : List FlowNode := []
  arcs : List Arc := []
  skipped : List FlowEdge := []
  indexOf : List (String × Nat) := []
  nameOf : List (Nat × String) := []
  members : List (Category × List String) := []
  deriving DecidableEq, Repr

namespace FlowGraph

def edges (g : FlowGraph) : List FlowEdge := g.arcs.map (·.edge)

def index? (g : FlowGraph) (name : String) : Option Nat := Table.get? name g.indexOf

def nameAt? (g : FlowGraph) (index : Nat) : Option String := Table.get? index g.nameOf

def node? (g : FlowGraph) (name : String) : Option FlowNode := (g.index? name).bind (g.nodes[·]?)

def hasNode (g : FlowGraph) (name : String) : Bool := (g.index? name).isSome

def enrol (category : Category) (name : String) (members : List (Category × List String)) :
    List (Category × List String) :=
  Table.set category ((Table.group category members).insert name) members

def dismiss (category : Category) (name : String) (members : List (Category × List String)) :
    List (Category × List String) :=
  Table.set category ((Table.group category members).erase name) members

def append (g : FlowGraph) (n : FlowNode) : FlowGraph :=
  let i := g.nodes.length
  { g with
    nodes := g.nodes ++ [n]
    indexOf := Table.set n.name i g.indexOf
    nameOf := Table.set i n.name g.nameOf
    members := enrol n.category n.name g.members }

/-- The old node leaves its category before the new one enters its own. -/
def replace (g : FlowGraph) (i : Nat) (old n : FlowNode) : FlowGraph :=
  { g with
    nodes := g.nodes.set i n
    members := enrol n.category n.name (dismiss old.category n.name g.members) }

def addNode (g : FlowGraph) (n : FlowNode) : FlowGraph :=
  match g.index? n.name with
  | none => g.append n
  | some i =>
    match g.nodes[i]? with
    | some old => g.replace i old n
    | none => g

def joins (g : FlowGraph) (e : FlowEdge) : Bool := g.hasNode e.source && g.hasNode e.target

def addEdge (g : FlowGraph) (e : FlowEdge) : FlowGraph :=
  match g.index? e.source, g.index? e.target with
  | some i, some j => { g with arcs := g.arcs ++ [⟨i, j, e⟩] }
  | _, _ => { g with skipped := g.skipped ++ [e] }

def ofCategory (g : FlowGraph) (category : Category) : List FlowNode :=
  ((Table.group category g.members).filterMap g.node?).mergeSort fun a b => textLe a.name b.name

end FlowGraph

namespace Inventory

def flowNodes (inv : Inventory) : List FlowNode := inv.elements.map fun e => ⟨e.fullName, e.name, e.category⟩

def flowEdges (inv : Inventory) : List FlowEdge :=
  inv.relationships.map (fun r => ⟨r.sourceType, r.targetType, r.callType, r.sourceMethod, r.targetMethod⟩) ++
    inv.handlerCommands.map fun (handler, command) =>
      ⟨handler, command, CallKind.handlerToCommand.name, "Handle", ""⟩

def flowGraph (inv : Inventory) : FlowGraph :=
  let nodes : FlowGraph := inv.flowNodes.foldl (fun g n => if g.hasNode n.name then g else g.addNode n) {}
  inv.flowEdges.foldl FlowGraph.addEdge nodes

end Inventory

end FlowAtlas
