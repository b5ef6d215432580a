import FlowAtlas.FlowGraph.Basic
/-! Reachability in a flow graph: the search works off a list of names and takes each name of its pool
once. `Path` says what it finds. -/
namespace FlowAtlas.FlowGraph

inductive Path (g : FlowGraph) : String → String → Prop
  | edge {e : FlowEdge} (mem : e ∈ g.edges) : Path g e.source e.target
  | step {e : FlowEdge} {y : String} (mem : e ∈ g.edges) (rest : Path g e.target y) : Path g e.source y

def successors (g : FlowGraph) (name : String) : List String :=
  (g.edges.filter (·.source = name)).map (·.target)

def predecessors (g : FlowGraph) (name : String) : List String :=
  (g.edges.filter (·.target = name)).map (·.source)

/-- The names of the pool that are met from the names at work, in order of their first visit. -/
def search (next : String → List String) : (pool work : List String) → List String
  | _, [] => []
  | pool, x :: work =>
    if _fresh : x ∈ pool then x :: search next (pool.erase x) (next x ++ work) else search next pool work
termination_by pool work => (pool.length, work.length)
decreasing_by
  · refine Prod.Lex.left _ _ ?_
    rw [List.length_erase_of_mem _fresh]
    exact Nat.sub_lt (List.length_pos_of_mem _fresh) Nat.one_pos
  · exact Prod.Lex.right _ (by simp)

def names (g : FlowGraph) : List String := g.nodes.map (·.name)

def reachedBy (g : FlowGraph) (next : String → List String) (name : String) : List String :=
  search next g.names (next name)

def descendants (g : FlowGraph) (name : String) : List String :=
  sortTexts ((g.reachedBy g.successors name).filter (· ≠ name))

def ancestors (g : FlowGraph) (name : String) : List String :=
  sortTexts ((g.reachedBy g.predecessors name).filter (· ≠ name))

def hasCycles (g : FlowGraph) : Bool := g.names.any fun name => name ∈ g.reachedBy g.successors name

def outDegree (g : FlowGraph) (index : Nat) : Nat := g.arcs.countP (·.source = index)

def inDegree (g : FlowGraph) (index : Nat) : Nat := g.arcs.countP (·.target = index)

def orphans (g : FlowGraph) : List Nat :=
  (List.range g.nodes.length).filter fun i => g.inDegree i = 0 && g.outDegree i = 0

def categoryCounts (g : FlowGraph) : List (String × Nat) :=
  ((g.members.filter fun (_, names) => !names.isEmpty).map fun (category, names) =>
    (category.name, names.length)).mergeSort fun a b => textLe a.1 b.1

structure Summary where
  nodes : Nat
  edges : Nat
  nodesByCategory : List (String × Nat)
  edgesByKind : List (String × Nat)
  skipped : Nat
  orphans : Nat
  hasCycles : Bool
  deriving DecidableEq, Repr

def summary (g : FlowGraph) : Summary where
  nodes := g.nodes.length
  edges := g.edges.length
  nodesByCategory := g.categoryCounts
  edgesByKind := tally (g.edges.map (·.callType))
  skipped := g.skipped.length
  orphans := g.orphans.length
  hasCycles := g.hasCycles

end FlowAtlas.FlowGraph
