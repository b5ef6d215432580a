import FlowAtlas.Chain.Basic
/-! The trail of a walk: the keys visited so far, the edges drawn so far, each once, and the references
that led nowhere. -/
namespace FlowAtlas

structure Skip where
  name : String
  referrer : Key
  deriving DecidableEq, Repr

structure Trail where
  nodes : List Key := []
  edges : List Edge := []
  skipped : List Skip := []
  deriving DecidableEq, Repr, Inhabited

namespace Trail

def visit (key : Key) (t : Trail) : Trail :=
  if key ∈ t.nodes then t else { t with nodes := t.nodes ++ [key] }

def connect (edge : Edge) (t : Trail) : Trail :=
  if edge ∈ t.edges then t else { t with edges := t.edges ++ [edge] }

def skip (s : Skip) (t : Trail) : Trail := { t with skipped := t.skipped ++ [s] }

def start (root : Key) : Trail := { nodes := [root] }

@[simp] theorem nodesConnect (edge : Edge) (t : Trail) : (t.connect edge).nodes = t.nodes := by
  unfold connect
  split <;> rfl

@[simp] theorem nodesSkip (s : Skip) (t : Trail) : (t.skip s).nodes = t.nodes := rfl

theorem nodesVisitNew {key : Key} {t : Trail} (h : key ∉ t.nodes) :
    (t.visit key).nodes = t.nodes ++ [key] := by
  simp [visit, h]

end Trail

end FlowAtlas
