import FlowAtlas.Proofs.Diagram.ChainEdges
import FlowAtlas.Proofs.Diagram.Parts
/-! The sheet of any one chain: its nodes may repeat, its edges may end elsewhere. A node is identified by the
rank of its key among the distinct keys of the chain, and an edge is drawn when the chain has both ends. -/
namespace FlowAtlas.Diagram

namespace ChainNumbering

def idOf (n : ChainNumbering) (keys : List Key) (key : Key) : String :=
  idAt (n.next + (Selection.firsts id keys).idxOf key)

theorem unnumbered (first : Int) {keys : List Key} {key : Key} (absent : key ∉ keys) :
    Table.get? key (number first keys) = none := by
  induction keys generalizing first with
  | nil => rfl
  | cons k rest ih =>
    rw [List.mem_cons, not_or] at absent
    rw [number, Table.get?, if_neg (Ne.symm absent.1), ih (first + 1) absent.2]

theorem assignedGet (n : ChainNumbering) (keys : List Key) (key : Key) :
    Table.get? key (n.assign keys).1 = if key ∈ keys then some (n.idOf keys key) else none := by
  by_cases mem : key ∈ keys
  · rw [if_pos mem]
    exact numberedId n.next (Selection.firstsMem.mpr mem)
  · rw [if_neg mem]
    exact unnumbered n.next fun first => mem (Selection.firstsMem.mp first)

theorem firstsCount (keys : List Key) : (Selection.firsts id keys).length = keys.toFinset.card := by
  rw [← List.toFinset_card_of_nodup (Selection.firstsNodup keys)]
  congr 1
  ext key
  simp [Selection.firstsMem]

theorem assignedOn (n : ChainNumbering) (keys : List Key) :
    (n.assign keys).2 = ⟨n.next + keys.toFinset.card⟩ := by
  rw [assign, firstsCount]

theorem rankBelow {keys : List Key} {key : Key} (mem : key ∈ keys) :
    (Selection.firsts id keys).idxOf key < keys.toFinset.card := by
  rw [← firstsCount, List.idxOf_lt_length_iff]
  exact Selection.firstsMem.mpr mem

theorem idOfApart {n : ChainNumbering} {keys : List Key} {a b : Key} (mem : a ∈ keys)
    (same : n.idOf keys a = n.idOf keys b) : a = b := by
  have ranks := idAtInjective same
  exact (List.idxOf_inj (Selection.firstsMem.mpr mem)).mp (by omega)

end ChainNumbering

def keyNode (ix : Index) (indent id : String) (key : Key) : Statement :=
  .node indent id (ix.categoryOf key.typeName) key.simpleName (ix.isAggregateRoot key.typeName)

def keyNodes (ix : Index) (indent : String) (n : ChainNumbering) (c : Chain) : Sheet :=
  c.nodes.map fun key => keyNode ix indent (n.idOf c.nodes key) key

def ChainNumbering.Gives (n : ChainNumbering) (c : Chain) (id : String) : Prop :=
  ∃ key ∈ c.nodes, id = n.idOf c.nodes key

section

variable {ix : Index} {indent : String} {n : ChainNumbering} {c : Chain}

theorem chainNodesKeys (ix : Index) (indent : String) (n : ChainNumbering) (c : Chain) :
    chainNodes ix indent (n.assign c.nodes).1 c = keyNodes ix indent n c := by
  apply List.map_congr_left
  intro key mem
  rw [ChainNumbering.assignedGet, if_pos mem]
  rfl

theorem chainNodesAreNodes {ids : List (Key × String)} {s : Statement} (mem : s ∈ chainNodes ix indent ids c) :
    s.isNode = true := by
  obtain ⟨_, _, rfl⟩ := List.mem_map.mp mem
  rfl

theorem edgeEnds {s : Statement} (mem : s ∈ chainEdges (n.assign c.nodes).1 c) :
    ∃ source target label, s = .edge source "-->" target label ∧ n.Gives c source ∧ n.Gives c target := by
  obtain ⟨x, _, drawn⟩ := List.mem_filterMap.mp mem
  split at drawn
  · rename_i source target first second
    cases drawn
    rw [ChainNumbering.assignedGet, Option.ite_none_right_eq_some] at first second
    exact ⟨source, target, x.label, rfl, ⟨x.source, first.1, (Option.some.inj first.2).symm⟩,
      ⟨x.target, second.1, (Option.some.inj second.2).symm⟩⟩
  · cases drawn

theorem edgesJoin {known : String → Prop} (gives : ∀ id, n.Gives c id → known id) :
    Draws (chainEdges (n.assign c.nodes).1 c) [] known := by
  apply Draws.links
  intro s mem
  obtain ⟨source, target, label, rfl, first, second⟩ := edgeEnds mem
  refine ⟨rfl, rfl, ?_⟩
  intro id joined
  rw [Statement.joins, List.mem_cons, List.mem_singleton] at joined
  rcases joined with rfl | rfl
  · exact gives _ first
  · exact gives _ second

theorem chainSheetDraws (ix : Index) (n : ChainNumbering) (c : Chain) : ∃ body : Sheet,
    (chainSheet ix n c).1 = body ++ body.styleBlock "Chain Styles" StyleClass.all assignmentHeading ∧
      Draws body (keyNodes ix indentation n c) (n.Gives c) := by
  have nodes : Draws (chainNodes ix indentation (n.assign c.nodes).1 c) (keyNodes ix indentation n c)
      (n.Gives c) := by
    rw [← chainNodesKeys]
    exact .declares fun s mem => chainNodesAreNodes mem
  have edges : Draws (chainEdges (n.assign c.nodes).1 c) [] (n.Gives c) := edgesJoin fun id given => given
  have opening := (Draws.comment (escapeLabel c.name)).before (Draws.blank.before nodes)
  have closing := Draws.blank.before ((Draws.comment "Chain Relationships").before edges)
  exact ⟨_, rfl, (((Draws.start _).before opening).after closing).after .blank⟩

theorem chainSheetConsistent (ix : Index) (n : ChainNumbering) (c : Chain) :
    (chainSheet ix n c).1.Consistent ∧ (chainSheet ix n c).1.StandsFor c.nodes id (keyNode ix indentation) := by
  obtain ⟨body, parts, draws⟩ := chainSheetDraws ix n c
  rw [parts]
  refine drawnConsistent (fun key => ix.categoryOf key.typeName) _ _ draws (fun _ _ => rfl) ?_ ?_ ?_
  · intro id given
    exact given
  · intro a mem b _ same
    exact ChainNumbering.idOfApart mem same
  · intro _ _ category _
    exact coveredByAll category

end

end FlowAtlas.Diagram
