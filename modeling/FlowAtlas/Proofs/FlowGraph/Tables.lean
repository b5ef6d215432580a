import FlowAtlas.FlowGraph.Reach
import FlowAtlas.Proofs.Inventory.Scan
/-! The tables of a flow graph. Names and indices lead to each other, a name is a member of the category of its
node and of no other, and every stored edge joins the indices of its ends; adding a node or an edge keeps this. -/
namespace FlowAtlas.FlowGraph

section

variable {category other : Category} {name x : String} {members : List (Category × List String)}

theorem groupSet (values : List String) : Table.group other (Table.set category values members) =
    if other = category then values else Table.group other members := by
  unfold Table.group
  split
  · rename_i same
    rw [same, Table.getSetSame, Option.getD_some]
  · rename_i apart
    rw [Table.getSetOther apart]

theorem memEnrol : x ∈ Table.group other (enrol category name members) ↔
    (other = category ∧ x = name) ∨ x ∈ Table.group other members := by
  rw [enrol, groupSet]
  split
  · rename_i same
    subst same
    simp
  · rename_i apart
    simp [apart]

theorem memDismiss (distinct : (Table.group category members).Nodup) :
    x ∈ Table.group other (dismiss category name members) ↔
      x ∈ Table.group other members ∧ ¬ (other = category ∧ x = name) := by
  rw [dismiss, groupSet]
  split
  · rename_i same
    subst same
    rw [distinct.mem_erase_iff]
    simp [and_comm]
  · rename_i apart
    simp [apart]

theorem enrolDistinct (distinct : (Table.group other members).Nodup) :
    (Table.group other (enrol category name members)).Nodup := by
  rw [enrol, groupSet]
  split
  · rename_i same
    subst same
    exact distinct.insert
  · exact distinct

theorem dismissDistinct (distinct : (Table.group other members).Nodup) :
    (Table.group other (dismiss category name members)).Nodup := by
  rw [dismiss, groupSet]
  split
  · rename_i same
    subst same
    exact distinct.erase name
  · exact distinct

theorem setKeysDistinct {values : List String} (distinct : (members.map (·.1)).Nodup) :
    ((Table.set category values members).map (·.1)).Nodup := by
  have keys : (Table.set category values members).map (·.1) = Selection.addNew id (members.map (·.1)) category := by
    clear distinct
    induction members with
    | nil => rfl
    | cons entry rest ih =>
      obtain ⟨k, v⟩ := entry
      by_cases same : k = category
      · simp [Table.set, Selection.addNew, same]
      · rw [Table.set, if_neg same, List.map_cons, ih, List.map_cons, Selection.addNewCons same]
  rw [keys]
  simpa using @Selection.addNewNodup _ _ _ id _ category (by simpa using distinct)

end

structure Consistent (g : FlowGraph) : Prop where
  index : ∀ name i, g.index? name = some i ↔ g.names[i]? = some name
  name : ∀ i name, g.nameAt? i = some name ↔ g.names[i]? = some name
  category : ∀ c name, name ∈ Table.group c g.members ↔ (g.node? name).map (·.category) = some c
  distinct : ∀ c, (Table.group c g.members).Nodup
  categories : (g.members.map (·.1)).Nodup
  joined : ∀ a ∈ g.arcs, g.names[a.source]? = some a.edge.source ∧ g.names[a.target]? = some a.edge.target

theorem emptyConsistent : Consistent {} := by
  constructor <;> simp [index?, nameAt?, node?, names, Table.get?, Table.group]

section

variable {g : FlowGraph}

theorem namedAt (g : FlowGraph) (i : Nat) : g.names[i]? = (g.nodes[i]?).map (·.name) := List.getElem?_map ..

theorem Consistent.nameIndex (c : g.Consistent) (name : String) (i : Nat) :
    g.index? name = some i ↔ g.nameAt? i = some name := (c.index name i).trans (c.name i name).symm

theorem Consistent.namesNodup (c : g.Consistent) : g.names.Nodup := by
  rw [List.nodup_iff_injective_getElem]
  intro i j same
  have first : g.index? g.names[i] = some i.val := (c.index _ i).mpr (List.getElem?_eq_getElem i.isLt)
  have second : g.index? g.names[j] = some j.val := (c.index _ j).mpr (List.getElem?_eq_getElem j.isLt)
  exact Fin.ext (Option.some.inj (first.symm.trans ((congrArg g.index? same).trans second)))

theorem Consistent.nodeIff (c : g.Consistent) {name : String} {n : FlowNode} :
    g.node? name = some n ↔ n ∈ g.nodes ∧ n.name = name := by
  rw [node?, Option.bind_eq_some_iff]
  constructor
  · rintro ⟨i, found, here⟩
    have named := (c.index name i).mp found
    rw [namedAt, here] at named
    exact ⟨List.mem_of_getElem? here, Option.some.inj named⟩
  · rintro ⟨mem, rfl⟩
    obtain ⟨i, here⟩ := List.mem_iff_getElem?.mp mem
    exact ⟨i, (c.index _ i).mpr (by rw [namedAt, here]; rfl), here⟩

theorem Consistent.hasNodeIff (c : g.Consistent) {name : String} : g.hasNode name = true ↔ name ∈ g.names := by
  rw [hasNode, Option.isSome_iff_exists, List.mem_iff_getElem?]
  exact exists_congr (c.index name)

theorem Consistent.nodeKnown (c : g.Consistent) (name : String) : (g.node? name).isSome = g.hasNode name := by
  rw [Bool.eq_iff_iff, c.hasNodeIff, Option.isSome_iff_exists, names, List.mem_map]
  exact exists_congr fun n => c.nodeIff

theorem Consistent.absent (c : g.Consistent) {name : String} (new : g.index? name = none) (i : Nat) :
    g.names[i]? ≠ some name := by
  intro here
  rw [(c.index name i).mpr here] at new
  cases new

theorem namesAppended (n : FlowNode) (i : Nat) (name : String) : (g.append n).names[i]? = some name ↔
    g.names[i]? = some name ∨ (i = g.nodes.length ∧ n.name = name) := by
  have names : (g.append n).names = g.names ++ [n.name] := List.map_append
  have length : g.names.length = g.nodes.length := List.length_map _
  rw [names, List.getElem?_append, length]
  split
  · have apart : i ≠ g.nodes.length := by omega
    simp [apart]
  · have past : g.names[i]? = none := List.getElem?_eq_none (by omega)
    rw [past, List.getElem?_singleton]
    split
    · have last : i = g.nodes.length := by omega
      simp [last]
    · have apart : i ≠ g.nodes.length := by omega
      simp [apart]

theorem indexAppended (n : FlowNode) (name : String) : (g.append n).index? name =
    if name = n.name then some g.nodes.length else g.index? name := by
  unfold index? append
  split
  · rename_i same
    rw [same, Table.getSetSame]
  · rename_i apart
    rw [Table.getSetOther apart]

theorem nameAppended (n : FlowNode) (i : Nat) : (g.append n).nameAt? i =
    if i = g.nodes.length then some n.name else g.nameAt? i := by
  unfold nameAt? append
  split
  · rename_i same
    rw [same, Table.getSetSame]
  · rename_i apart
    rw [Table.getSetOther apart]

theorem Consistent.bounded (c : g.Consistent) {name : String} {i : Nat} (found : g.index? name = some i) :
    i < g.nodes.length := by
  have inside := (List.getElem?_eq_some_iff.mp ((c.index name i).mp found)).1
  rwa [names, List.length_map] at inside

theorem Consistent.nodeAppended (c : g.Consistent) (n : FlowNode) (name : String) :
    (g.append n).node? name = if name = n.name then some n else g.node? name := by
  have nodes : (g.append n).nodes = g.nodes ++ [n] := rfl
  rw [node?, indexAppended, nodes]
  split
  · simp
  · rw [node?]
    apply Option.bind_congr
    intro i found
    exact List.getElem?_append_left (c.bounded found)

theorem Consistent.nodeAbsent {name : String} (new : g.index? name = none) : g.node? name = none := by
  rw [node?, new, Option.bind_none]

theorem Consistent.appended (c : g.Consistent) {n : FlowNode} (new : g.index? n.name = none) :
    (g.append n).Consistent := by
  have absent := c.absent new
  constructor
  case index =>
    intro name i
    rw [indexAppended, namesAppended]
    split
    · rename_i same
      subst same
      simp [absent i, eq_comm]
    · rename_i apart
      simp [c.index, Ne.symm apart]
  case name =>
    intro i name
    rw [nameAppended, namesAppended]
    split
    · rename_i last
      subst last
      have past : g.names[g.nodes.length]? = none := by
        rw [namedAt, List.getElem?_eq_none (Nat.le_refl _)]
        rfl
      simp [past]
    · rename_i apart
      simp [c.name, apart]
  case category =>
    intro k name
    have members : (g.append n).members = enrol n.category n.name g.members := rfl
    rw [members, memEnrol, c.nodeAppended, c.category]
    split
    · rename_i same
      subst same
      simp [nodeAbsent new, eq_comm]
    · rename_i apart
      simp [apart]
  case distinct => exact fun k => enrolDistinct (c.distinct k)
  case categories => exact setKeysDistinct c.categories
  case joined =>
    intro a mem
    obtain ⟨source, target⟩ := c.joined a mem
    exact ⟨(namesAppended n _ _).mpr (Or.inl source), (namesAppended n _ _).mpr (Or.inl target)⟩

section

variable {n old : FlowNode} {i : Nat}

theorem Consistent.namesReplaced (c : g.Consistent) (found : g.index? n.name = some i) :
    (g.replace i old n).names = g.names := by
  have named := (c.index n.name i).mp found
  rw [names, replace, List.map_set]
  obtain ⟨bound, same⟩ := List.getElem?_eq_some_iff.mp named
  rw [← same]
  exact List.set_getElem_self bound

theorem Consistent.nodeReplaced (c : g.Consistent) (found : g.index? n.name = some i) (name : String) :
    (g.replace i old n).node? name = if name = n.name then some n else g.node? name := by
  have nodes : (g.replace i old n).nodes = g.nodes.set i n := rfl
  have index : (g.replace i old n).index? name = g.index? name := rfl
  rw [node?, index, nodes]
  split
  · rename_i same
    rw [same, found, Option.bind_some, List.getElem?_set_self (c.bounded found)]
  · rename_i apart
    rw [node?]
    apply Option.bind_congr
    intro j other
    apply List.getElem?_set_ne
    rintro rfl
    have one := (c.index n.name i).mp found
    have two := (c.index name i).mp other
    exact apart (Option.some.inj (two.symm.trans one))

/- The old category gives up the name before the new one takes it, also when they are the same. -/
theorem Consistent.replaced (c : g.Consistent) (found : g.index? n.name = some i) (here : g.nodes[i]? = some old) :
    (g.replace i old n).Consistent := by
  have names : (g.replace i old n).names = g.names := c.namesReplaced found
  constructor
  case index =>
    intro name j
    rw [names]
    exact c.index name j
  case name =>
    intro j name
    rw [names]
    exact c.name j name
  case category =>
    intro k name
    have members : (g.replace i old n).members =
        enrol n.category n.name (dismiss old.category n.name g.members) := rfl
    rw [members, memEnrol, memDismiss (c.distinct old.category), c.nodeReplaced found, c.category]
    split
    · rename_i same
      have before : g.node? n.name = some old := by rw [node?, found, Option.bind_some, here]
      subst same
      simp only [before, Option.map_some, Option.some.injEq, and_true]
      constructor
      · rintro (same | ⟨same, other⟩)
        · exact same.symm
        · exact absurd same.symm other
      · exact fun same => Or.inl same.symm
    · rename_i apart
      simp [apart]
  case distinct => exact fun k => enrolDistinct (dismissDistinct (c.distinct k))
  case categories => exact setKeysDistinct (setKeysDistinct c.categories)
  case joined =>
    intro a mem
    rw [names]
    exact c.joined a mem

end

theorem Consistent.addNodeCases (c : g.Consistent) (n : FlowNode) :
    (g.index? n.name = none ∧ g.addNode n = g.append n) ∨
      ∃ i old, g.index? n.name = some i ∧ g.nodes[i]? = some old ∧ g.addNode n = g.replace i old n := by
  unfold addNode
  cases found : g.index? n.name with
  | none => exact Or.inl ⟨rfl, rfl⟩
  | some i =>
    have inside := c.bounded found
    have here : g.nodes[i]? = some g.nodes[i] := List.getElem?_eq_getElem inside
    exact Or.inr ⟨i, g.nodes[i], rfl, here, by simp only [here]⟩

theorem Consistent.addNode (c : g.Consistent) (n : FlowNode) : (g.addNode n).Consistent := by
  rcases c.addNodeCases n with ⟨new, added⟩ | ⟨i, old, found, here, added⟩
  · exact added ▸ c.appended new
  · exact added ▸ c.replaced found here

theorem Consistent.nodeAdded (c : g.Consistent) (n : FlowNode) (name : String) :
    (g.addNode n).node? name = if name = n.name then some n else g.node? name := by
  rcases c.addNodeCases n with ⟨_, added⟩ | ⟨i, old, found, _, added⟩
  · rw [added, c.nodeAppended]
  · rw [added, c.nodeReplaced found]

theorem Consistent.namesAdded (c : g.Consistent) (n : FlowNode) :
    (g.addNode n).names = Selection.addNew id g.names n.name := by
  rcases c.addNodeCases n with ⟨new, added⟩ | ⟨i, old, found, _, added⟩
  · have names : (g.append n).names = g.names ++ [n.name] := List.map_append
    have absent : n.name ∉ g.names := fun mem => by
      obtain ⟨i, here⟩ := List.mem_iff_getElem?.mp mem
      exact c.absent new i here
    rw [added, names]
    simpa [Selection.addNew] using absent
  · have mem : n.name ∈ g.names := List.mem_of_getElem? ((c.index n.name i).mp found)
    rw [added, c.namesReplaced found, Selection.addNewAgain ⟨n.name, mem, rfl⟩]

theorem addNodeArcs (g : FlowGraph) (n : FlowNode) : (g.addNode n).arcs = g.arcs := by
  unfold FlowGraph.addNode
  split
  · rfl
  · split <;> rfl

theorem addNodeSkipped (g : FlowGraph) (n : FlowNode) : (g.addNode n).skipped = g.skipped := by
  unfold FlowGraph.addNode
  split
  · rfl
  · split <;> rfl

theorem addEdgeCases (g : FlowGraph) (e : FlowEdge) :
    (∃ i j, g.joins e = true ∧ g.index? e.source = some i ∧ g.index? e.target = some j ∧
      g.addEdge e = { g with arcs := g.arcs ++ [⟨i, j, e⟩] }) ∨
      (g.joins e = false ∧ g.addEdge e = { g with skipped := g.skipped ++ [e] }) := by
  unfold FlowGraph.addEdge joins hasNode
  cases source : g.index? e.source <;> cases target : g.index? e.target <;> simp

theorem addEdgeNode (g : FlowGraph) (e : FlowEdge) (name : String) : (g.addEdge e).node? name = g.node? name := by
  rcases g.addEdgeCases e with ⟨i, j, _, _, _, added⟩ | ⟨_, added⟩ <;> rw [added] <;> rfl

theorem addEdgeJoins (g : FlowGraph) (e : FlowEdge) : (g.addEdge e).joins = g.joins := by
  rcases g.addEdgeCases e with ⟨i, j, _, _, _, added⟩ | ⟨_, added⟩ <;> rw [added] <;> rfl

theorem addEdgeNames (g : FlowGraph) (e : FlowEdge) : (g.addEdge e).names = g.names := by
  rcases g.addEdgeCases e with ⟨i, j, _, _, _, added⟩ | ⟨_, added⟩ <;> rw [added] <;> rfl

theorem addEdgeEdges (g : FlowGraph) (e : FlowEdge) :
    (g.addEdge e).edges = g.edges ++ if g.joins e then [e] else [] := by
  rcases g.addEdgeCases e with ⟨i, j, joined, _, _, added⟩ | ⟨apart, added⟩
  · rw [added, joined, edges, List.map_append]
    rfl
  · rw [added, apart]
    exact (List.append_nil _).symm

theorem addEdgeSkipped (g : FlowGraph) (e : FlowEdge) :
    (g.addEdge e).skipped = g.skipped ++ if g.joins e then [] else [e] := by
  rcases g.addEdgeCases e with ⟨i, j, joined, _, _, added⟩ | ⟨apart, added⟩
  · rw [added, joined]
    exact (List.append_nil _).symm
  · rw [added, apart]
    rfl

theorem Consistent.addEdge (c : g.Consistent) (e : FlowEdge) : (g.addEdge e).Consistent := by
  rcases g.addEdgeCases e with ⟨i, j, _, source, target, added⟩ | ⟨_, added⟩
  · rw [added]
    refine { c with joined := ?_ }
    intro a mem
    rcases List.mem_append.mp mem with old | new
    · exact c.joined a old
    · obtain rfl := List.mem_singleton.mp new
      exact ⟨(c.index e.source i).mp source, (c.index e.target j).mp target⟩
  · rw [added]
    exact { c with }

end

end FlowAtlas.FlowGraph
