import FlowAtlas.Diagram.Chains
import FlowAtlas.Proofs.Selection
import FlowAtlas.Proofs.Text.Parts
/-! How the edges of a chain are drawn. Distinct nodes get distinct identifiers, so an edge between nodes of
the chain is drawn, and its statement is drawn for no other edge. -/
namespace FlowAtlas

namespace Diagram

theorem idAtInjective {a b : Int} (same : ChainNumbering.idAt a = ChainNumbering.idAt b) : a = b := by
  rw [ChainNumbering.idAt, ChainNumbering.idAt, String.append_right_inj] at same
  exact Text.integerInjective same

theorem numberedId (first : Int) {keys : List Key} {key : Key} (mem : key ∈ keys) :
    Table.get? key (ChainNumbering.number first keys) = some (ChainNumbering.idAt (first + keys.idxOf key)) := by
  induction keys generalizing first with
  | nil => simp at mem
  | cons k rest ih =>
    by_cases same : k = key
    · subst k
      simp [ChainNumbering.number, Table.get?]
    · have later : key ∈ rest := by simpa [Ne.symm same] using mem
      rw [ChainNumbering.number, Table.get?, if_neg same, ih (first + 1) later, List.idxOf_cons_ne rest same]
      congr 2
      omega

theorem assignedId (n : ChainNumbering) {keys : List Key} (distinct : keys.Nodup) {key : Key}
    (mem : key ∈ keys) :
    Table.get? key (n.assign keys).1 = some (ChainNumbering.idAt (n.next + keys.idxOf key)) := by
  rw [ChainNumbering.assign, Selection.firstsDistinct distinct]
  exact numberedId n.next mem

theorem assignedNext (n : ChainNumbering) {keys : List Key} (distinct : keys.Nodup) :
    (n.assign keys).2.next = n.next + keys.length := by
  rw [ChainNumbering.assign, Selection.firstsDistinct distinct]

def nodeId (n : ChainNumbering) (c : Chain) (key : Key) : String :=
  ChainNumbering.idAt (n.next + c.nodes.idxOf key)

def drawnEdge (n : ChainNumbering) (c : Chain) (x : Edge) : Statement :=
  .edge (nodeId n c x.source) "-->" (nodeId n c x.target) x.label

def Statement.isEdge : Statement → Bool
  | .edge .. => true
  | _ => false

@[simp] theorem rawNoEdge (text : String) : (Statement.raw text).isEdge = false := rfl

@[simp] theorem blankNoEdge : Statement.blank.isEdge = false := rfl

@[simp] theorem commentNoEdge (indent text : String) : (Statement.comment indent text).isEdge = false := rfl

@[simp] theorem nodeNoEdge (indent id : String) (category : Option Category) (label : String) (root : Bool) :
    (Statement.node indent id category label root).isEdge = false := rfl

@[simp] theorem openGroupNoEdge (number : Nat) (title : String) :
    (Statement.openGroup number title).isEdge = false := rfl

@[simp] theorem closeGroupNoEdge : Statement.closeGroup.isEdge = false := rfl

@[simp] theorem classDefNoEdge (style : StyleClass) : (Statement.classDef style).isEdge = false := rfl

@[simp] theorem assignNoEdge (ids : List String) (style : StyleClass) :
    (Statement.assign ids style).isEdge = false := rfl

theorem nodeIdInjective {n : ChainNumbering} {c : Chain} {a b : Key} (mem : a ∈ c.nodes)
    (same : nodeId n c a = nodeId n c b) : a = b := by
  have places := idAtInjective same
  exact (List.idxOf_inj mem).mp (by omega)

section

variable {c : Chain}

theorem drawnDistinct (n : ChainNumbering) (edges : c.edges.Nodup)
    (ends : ∀ x ∈ c.edges, x.source ∈ c.nodes ∧ x.target ∈ c.nodes) : (c.edges.map (drawnEdge n c)).Nodup := by
  apply edges.map_on
  intro x xMem y _ same
  obtain ⟨source, _, target, label⟩ := Statement.edge.inj same
  have sources := nodeIdInjective (ends x xMem).1 source
  have targets := nodeIdInjective (ends x xMem).2 target
  cases x
  cases y
  exact (Edge.mk.injEq ..).mpr ⟨sources, targets, label⟩

theorem chainEdgesDrawn (n : ChainNumbering) (nodes : c.nodes.Nodup)
    (ends : ∀ x ∈ c.edges, x.source ∈ c.nodes ∧ x.target ∈ c.nodes) :
    chainEdges (n.assign c.nodes).1 c = c.edges.map (drawnEdge n c) := by
  rw [chainEdges, ← List.filterMap_eq_map]
  apply List.filterMap_congr
  intro x mem
  simp only [assignedId n nodes (ends x mem).1, assignedId n nodes (ends x mem).2]
  rfl

theorem noneDropped (ends : ∀ x ∈ c.edges, x.source ∈ c.nodes ∧ x.target ∈ c.nodes) : droppedEdges c = [] := by
  rw [droppedEdges, List.filter_eq_nil_iff]
  intro x mem
  simp [ends x mem]

theorem styleBlockEdges (heading assignment : String) (classes : List StyleClass) (sheet : Sheet) :
    (Sheet.styleBlock heading classes assignment sheet).filter (·.isEdge) = [] := by
  have definitions : (classes.map Statement.classDef).filter (·.isEdge) = [] := by
    simp [List.filter_eq_nil_iff]
  have assignments (groups : List (StyleClass × List String)) :
      (groups.map fun group => Statement.assign group.2 group.1).filter (·.isEdge) = [] := by
    simp [List.filter_map, Function.comp_def]
  simp only [Sheet.styleBlock]
  split
  · simp [definitions]
  · split <;> simp [definitions, assignments]

theorem chainNodesEdges (ix : Index) (indent : String) (ids : List (Key × String)) :
    (chainNodes ix indent ids c).filter (·.isEdge) = [] := by
  simp [chainNodes, List.filter_eq_nil_iff]

theorem chainEdgesEdges (ids : List (Key × String)) :
    (chainEdges ids c).filter (·.isEdge) = chainEdges ids c := by
  rw [List.filter_eq_self]
  intro s mem
  obtain ⟨x, _, drawn⟩ := List.mem_filterMap.mp mem
  split at drawn
  · cases drawn
    rfl
  · cases drawn

theorem chainSheetEdges (ix : Index) (n : ChainNumbering) :
    (chainSheet ix n c).1.filter (·.isEdge) = chainEdges (n.assign c.nodes).1 c := by
  simp [chainSheet, Sheet.start, styleBlockEdges, chainNodesEdges, chainEdgesEdges]

theorem chainGroupsEdges (ix : Index) (number : Nat) (groups : List (Chain × List (Key × String))) :
    (chainGroups ix number groups).filter (·.isEdge) = [] := by
  induction groups generalizing number with
  | nil => rfl
  | cons group rest ih => simp [chainGroups, chainNodesEdges, ih]

theorem groupedSheetDrawn (ix : Index) (chains : List Chain) : (groupedSheet ix chains).filter (·.isEdge) =
    (numberChains {} chains).flatMap fun (c, ids) => chainEdges ids c := by
  have kept : ((numberChains {} chains).flatMap fun (c, ids) => chainEdges ids c).filter (·.isEdge) =
      (numberChains {} chains).flatMap fun (c, ids) => chainEdges ids c := by
    rw [List.filter_flatMap]
    simp only [chainEdgesEdges]
  simp only [groupedSheet]
  simp [Sheet.start, styleBlockEdges, chainGroupsEdges, kept]

end

end Diagram

end FlowAtlas
