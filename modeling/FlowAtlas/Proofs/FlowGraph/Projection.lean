import FlowAtlas.Proofs.FlowGraph.Tables
/-! The flow graph of an inventory. Its nodes answer to names as the look-up tables of the inventory do, and
of the edges those are left whose both ends are listed. -/
namespace FlowAtlas

namespace FlowGraph

theorem nodesAddedConsistent (ns : List FlowNode) {g : FlowGraph} (consistent : g.Consistent) :
    (ns.foldl (fun g n => if g.hasNode n.name then g else g.addNode n) g).Consistent := by
  induction ns generalizing g with
  | nil => exact consistent
  | cons n rest ih =>
    rw [List.foldl_cons]
    split
    · exact ih consistent
    · exact ih (consistent.addNode n)

theorem nodesAdded (ns : List FlowNode) {g : FlowGraph} (consistent : g.Consistent) (name : String) :
    (ns.foldl (fun g n => if g.hasNode n.name then g else g.addNode n) g).node? name =
      (g.node? name).or (ns.find? (fun n => n.name = name)) := by
  induction ns generalizing g with
  | nil => simp
  | cons n rest ih =>
    rw [List.foldl_cons]
    by_cases old : g.hasNode n.name = true
    · rw [if_pos old, ih consistent]
      by_cases same : n.name = name
      · subst name
        rw [← consistent.nodeKnown] at old
        obtain ⟨m, found⟩ := Option.isSome_iff_exists.mp old
        simp [found]
      · simp [same]
    · rw [if_neg old, ih (consistent.addNode n), consistent.nodeAdded]
      by_cases same : n.name = name
      · subst name
        rw [← consistent.nodeKnown, Bool.not_eq_true, Option.isSome_eq_false_iff, Option.isNone_iff_eq_none] at old
        simp [old]
      · simp [same, Ne.symm same]

theorem nodesAddedArcs (ns : List FlowNode) (g : FlowGraph) :
    (ns.foldl (fun g n => if g.hasNode n.name then g else g.addNode n) g).arcs = g.arcs := by
  induction ns generalizing g with
  | nil => rfl
  | cons n rest ih =>
    rw [List.foldl_cons, ih]
    split
    · rfl
    · exact addNodeArcs g n

theorem nodesAddedSkipped (ns : List FlowNode) (g : FlowGraph) :
    (ns.foldl (fun g n => if g.hasNode n.name then g else g.addNode n) g).skipped = g.skipped := by
  induction ns generalizing g with
  | nil => rfl
  | cons n rest ih =>
    rw [List.foldl_cons, ih]
    split
    · rfl
    · exact addNodeSkipped g n

theorem edgesAddedNode (es : List FlowEdge) (g : FlowGraph) (name : String) :
    (es.foldl addEdge g).node? name = g.node? name := by
  induction es generalizing g with
  | nil => rfl
  | cons e rest ih => rw [List.foldl_cons, ih, addEdgeNode]

/- No edge makes a node, so what an edge finds does not hang on the edges before it. -/
theorem edgesAdded (es : List FlowEdge) (g : FlowGraph) :
    (es.foldl addEdge g).edges = g.edges ++ es.filter g.joins := by
  induction es generalizing g with
  | nil => simp
  | cons e rest ih =>
    rw [List.foldl_cons, ih, addEdgeJoins, addEdgeEdges]
    by_cases joined : g.joins e = true <;> simp [joined]

theorem edgesAddedSkipped (es : List FlowEdge) (g : FlowGraph) :
    (es.foldl addEdge g).skipped = g.skipped ++ es.filter fun e => !g.joins e := by
  induction es generalizing g with
  | nil => simp
  | cons e rest ih =>
    rw [List.foldl_cons, ih, addEdgeJoins, addEdgeSkipped]
    by_cases joined : g.joins e = true <;> simp [joined]

end FlowGraph

namespace Inventory

def flowNodeGraph (inv : Inventory) : FlowGraph :=
  inv.flowNodes.foldl (fun g n => if g.hasNode n.name then g else g.addNode n) {}

theorem flowNodesConsistent (inv : Inventory) : inv.flowNodeGraph.Consistent :=
  FlowGraph.nodesAddedConsistent inv.flowNodes FlowGraph.emptyConsistent

theorem flowNodeScan (inv : Inventory) (name : String) :
    inv.flowGraph.node? name = inv.flowNodes.find? (fun n => n.name = name) := by
  have nodes : inv.flowGraph.node? name = inv.flowNodeGraph.node? name :=
    FlowGraph.edgesAddedNode inv.flowEdges _ name
  rw [nodes]
  exact FlowGraph.nodesAdded inv.flowNodes FlowGraph.emptyConsistent name

theorem flowNodeCategory (inv : Inventory) (name : String) :
    (inv.flowGraph.node? name).map (·.category) = inv.index.categoryOf name := by
  rw [flowNodeScan, categoryScan, flowNodes, List.find?_map, Option.map_map]
  rfl

theorem flowNodeKnown (inv : Inventory) (name : String) :
    (inv.flowGraph.node? name).isSome = inv.index.isKnown name := by
  rw [Index.isKnown, ← flowNodeCategory, Option.isSome_map]

theorem flowNodeJoins (inv : Inventory) (e : FlowEdge) :
    inv.flowNodeGraph.joins e = (inv.index.isKnown e.source && inv.index.isKnown e.target) := by
  have known (name : String) : inv.flowNodeGraph.hasNode name = inv.index.isKnown name := by
    rw [← flowNodeKnown, ← inv.flowNodesConsistent.nodeKnown]
    exact congrArg Option.isSome (FlowGraph.edgesAddedNode inv.flowEdges _ name).symm
  rw [FlowGraph.joins, known, known]

theorem flowEdgesKept (inv : Inventory) : inv.flowGraph.edges =
    inv.flowEdges.filter fun e => inv.index.isKnown e.source && inv.index.isKnown e.target := by
  have edges : inv.flowGraph.edges = inv.flowNodeGraph.edges ++ inv.flowEdges.filter inv.flowNodeGraph.joins :=
    FlowGraph.edgesAdded inv.flowEdges inv.flowNodeGraph
  have none : inv.flowNodeGraph.arcs = [] := FlowGraph.nodesAddedArcs inv.flowNodes {}
  rw [edges, FlowGraph.edges, none, funext inv.flowNodeJoins, List.map_nil, List.nil_append]

theorem flowEdgesSkipped (inv : Inventory) : inv.flowGraph.skipped =
    inv.flowEdges.filter fun e => !(inv.index.isKnown e.source && inv.index.isKnown e.target) := by
  have edges : inv.flowGraph.skipped =
      inv.flowNodeGraph.skipped ++ inv.flowEdges.filter fun e => !inv.flowNodeGraph.joins e :=
    FlowGraph.edgesAddedSkipped inv.flowEdges inv.flowNodeGraph
  have none : inv.flowNodeGraph.skipped = [] := FlowGraph.nodesAddedSkipped inv.flowNodes {}
  rw [edges, none, funext inv.flowNodeJoins, List.nil_append]

end Inventory

end FlowAtlas
