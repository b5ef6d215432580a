import FlowAtlas.Proofs.FlowGraph.Counts
/-! Runs that build a flow graph: nodes and edges are added to an empty one, in any order and as often as one
likes. What the graph holds in the end is told from the calls alone: under each name the node that came last, and of
the edges those whose ends had been added before them. -/
namespace FlowAtlas.FlowGraph

inductive Call where
  | node (n : FlowNode)
  | edge (e : FlowEdge)
  deriving DecidableEq, Repr

def call (g : FlowGraph) : Call → FlowGraph
  | .node n => g.addNode n
  | .edge e => g.addEdge e

def run (calls : List Call) : FlowGraph := calls.foldl call {}

def addedNodes (calls : List Call) : List FlowNode :=
  calls.filterMap fun
    | .node n => some n
    | .edge _ => none

def triedEdges (calls : List Call) : List FlowEdge :=
  calls.filterMap fun
    | .node _ => none
    | .edge e => some e

def addedNames (calls : List Call) : List String := (addedNodes calls).map (·.name)

def latest (calls : List Call) (name : String) : Option FlowNode :=
  (addedNodes calls).reverse.find? fun n => n.name = name

def accepted (before : List Call) : List Call → List FlowEdge
  | [] => []
  | .node n :: later => accepted (before ++ [.node n]) later
  | .edge e :: later =>
    if e.source ∈ addedNames before ∧ e.target ∈ addedNames before then e :: accepted (before ++ [.edge e]) later
    else accepted (before ++ [.edge e]) later

structure Accounted (calls : List Call) (g : FlowGraph) : Prop where
  inverse : ∀ name i, g.index? name = some i ↔ g.nameAt? i = some name
  known : ∀ name, g.hasNode name = true ↔ name ∈ addedNames calls
  node : ∀ name, g.node? name = latest calls name
  nodes : g.nodes.map some = (addedNames calls).eraseDups.map (latest calls)
  member : ∀ c name, name ∈ Table.group c g.members ↔ ∃ n, latest calls name = some n ∧ n.category = c
  ofCategory : ∀ c, (g.ofCategory c).Perm (g.nodes.filter (·.category = c))
  sorted : ∀ c, (g.ofCategory c).Pairwise fun a b => a.name < b.name
  replaced : ∀ n, (g.addNode n).arcs = g.arcs
  joined : ∀ a ∈ g.arcs, g.nameAt? a.source = some a.edge.source ∧ g.nameAt? a.target = some a.edge.target
  edges : g.edges = accepted [] calls
  tried : g.summary.edges + g.summary.skipped = (triedEdges calls).length
  categoryCount : ∀ c count, (Category.name c, count) ∈ g.summary.nodesByCategory ↔
    0 < count ∧ count = g.nodes.countP (·.category = c)
  filled : ∀ entry ∈ g.summary.nodesByCategory, 0 < entry.2
  nodeSum : (g.summary.nodesByCategory.map (·.2)).sum = g.summary.nodes
  edgeSum : (g.summary.edgesByKind.map (·.2)).sum = g.summary.edges
  orphans : g.summary.orphans =
    ((addedNames calls).eraseDups.filter fun name => !g.edges.any (·.touches name)).length

section

variable (calls : List Call) (n : FlowNode) (e : FlowEdge)

@[simp] theorem addedNodesNode : addedNodes (calls ++ [.node n]) = addedNodes calls ++ [n] := List.filterMap_append

@[simp] theorem addedNodesEdge : addedNodes (calls ++ [.edge e]) = addedNodes calls := by
  rw [addedNodes, List.filterMap_append]
  exact List.append_nil _

@[simp] theorem addedNamesNode : addedNames (calls ++ [.node n]) = addedNames calls ++ [n.name] := by
  simp [addedNames]

@[simp] theorem addedNamesEdge : addedNames (calls ++ [.edge e]) = addedNames calls := by simp [addedNames]

@[simp] theorem triedEdgesNode : triedEdges (calls ++ [.node n]) = triedEdges calls := by
  rw [triedEdges, List.filterMap_append]
  exact List.append_nil _

@[simp] theorem triedEdgesEdge : triedEdges (calls ++ [.edge e]) = triedEdges calls ++ [e] := List.filterMap_append

theorem latestNode (name : String) :
    latest (calls ++ [.node n]) name = if name = n.name then some n else latest calls name := by
  by_cases same : name = n.name
  · simp [latest, same]
  · simp [latest, same, Ne.symm same]

theorem latestEdge (name : String) : latest (calls ++ [.edge e]) name = latest calls name := by
  rw [latest, addedNodesEdge, latest]

theorem runSnoc (made : Call) : run (calls ++ [made]) = (run calls).call made := by
  rw [run, List.foldl_append]
  rfl

end

theorem Consistent.call {g : FlowGraph} (c : g.Consistent) : ∀ made : Call, (g.call made).Consistent
  | .node n => c.addNode n
  | .edge e => c.addEdge e

theorem runConsistent (calls : List Call) : (run calls).Consistent := by
  induction calls using List.reverseRecOn with
  | nil => exact emptyConsistent
  | append_singleton calls made ih =>
    rw [runSnoc]
    exact ih.call made

theorem runNames (calls : List Call) : (run calls).names = (addedNames calls).eraseDups := by
  rw [← Selection.firstsErases]
  induction calls using List.reverseRecOn with
  | nil => rfl
  | append_singleton calls made ih =>
    rw [runSnoc]
    cases made with
    | node n =>
      rw [FlowGraph.call, (runConsistent calls).namesAdded, ih, addedNamesNode, Selection.firsts, Selection.firsts,
        List.foldl_append]
      rfl
    | edge e => rw [FlowGraph.call, addEdgeNames, ih, addedNamesEdge]

theorem runNode (calls : List Call) (name : String) : (run calls).node? name = latest calls name := by
  induction calls using List.reverseRecOn with
  | nil => rfl
  | append_singleton calls made ih =>
    rw [runSnoc]
    cases made with
    | node n => rw [FlowGraph.call, (runConsistent calls).nodeAdded, ih, latestNode]
    | edge e => rw [FlowGraph.call, addEdgeNode, ih, latestEdge]

theorem runKnown (calls : List Call) (name : String) : (run calls).hasNode name = true ↔ name ∈ addedNames calls := by
  rw [(runConsistent calls).hasNodeIff, runNames, List.mem_eraseDups]

/- The earlier calls stand apart from the later ones: they say which ends an edge can have. -/
theorem runAccepted (before later : List Call) :
    (run (before ++ later)).edges = (run before).edges ++ accepted before later := by
  induction later generalizing before with
  | nil => rw [accepted, List.append_nil, List.append_nil]
  | cons made later ih =>
    rw [List.append_cons, ih, runSnoc]
    cases made with
    | node n => rw [FlowGraph.call, edges, addNodeArcs, accepted, edges]
    | edge e =>
      have joined : (run before).joins e = true ↔ e.source ∈ addedNames before ∧ e.target ∈ addedNames before := by
        rw [joins, Bool.and_eq_true, runKnown, runKnown]
      rw [FlowGraph.call, addEdgeEdges, accepted]
      simp only [joined]
      split <;> simp

theorem runTried (calls : List Call) :
    (run calls).edges.length + (run calls).skipped.length = (triedEdges calls).length := by
  induction calls using List.reverseRecOn with
  | nil => rfl
  | append_singleton calls made ih =>
    rw [runSnoc]
    cases made with
    | node n => rw [FlowGraph.call, edges, addNodeArcs, addNodeSkipped, triedEdgesNode, ← ih, edges]
    | edge e =>
      rcases (run calls).addEdgeCases e with ⟨i, j, _, _, _, added⟩ | ⟨_, added⟩
      all_goals
        simp only [FlowGraph.call, added, edges, triedEdgesEdge, List.length_append, List.length_map,
          List.length_singleton] at ih ⊢
        omega

theorem runAccounted (calls : List Call) : Accounted calls (run calls) := by
  have consistent := runConsistent calls
  constructor
  case inverse => exact consistent.nameIndex
  case known => exact runKnown calls
  case node => exact runNode calls
  case nodes =>
    rw [consistent.nodesFound, runNames]
    exact List.map_congr_left fun name _ => runNode calls name
  case member =>
    intro c name
    rw [consistent.category, runNode, Option.map_eq_some_iff]
  case ofCategory => exact consistent.ofCategoryPerm
  case sorted => exact consistent.ofCategorySorted
  case replaced => exact addNodeArcs _
  case joined =>
    intro a mem
    rw [consistent.name, consistent.name]
    exact consistent.joined a mem
  case edges => exact runAccepted [] calls
  case tried => exact runTried calls
  case categoryCount => exact consistent.categoryCount
  case filled => exact fun _ => categoryFilled
  case nodeSum => exact consistent.categorySum
  case edgeSum =>
    have kinds := tallySum ((run calls).edges.map (·.callType))
    rwa [List.length_map] at kinds
  case orphans =>
    rw [← runNames]
    exact consistent.orphanCount

end FlowAtlas.FlowGraph
