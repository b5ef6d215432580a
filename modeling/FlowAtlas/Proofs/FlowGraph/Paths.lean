import FlowAtlas.Proofs.FlowGraph.History
import Mathlib.Logic.Relation
/-! Paths of a flow graph and the search that follows them. What a search meets is told without its order of visits:
from the names at work onwards, inside the pool. In a graph with consistent tables no edge leads out of the pool, so
the search meets what the paths lead to, forwards and backwards, and a circle is met from each of its names. -/
namespace FlowAtlas.FlowGraph

inductive Met (next : String → List String) (pool work : List String) : String → Prop
  | start {x} (atWork : x ∈ work) (inside : x ∈ pool) : Met next pool work x
  | step {x y} (before : Met next pool work x) (follows : y ∈ next x) (inside : y ∈ pool) : Met next pool work y

section

variable {next : String → List String} {pool work : List String} {x y : String}

theorem Met.inPool (met : Met next pool work y) : y ∈ pool := by
  cases met <;> assumption

theorem Met.lift {wide more : List String} (pools : pool ⊆ wide)
    (start : ∀ x ∈ work, x ∈ pool → Met next wide more x) (met : Met next pool work y) : Met next wide more y := by
  induction met with
  | start atWork inside => exact start _ atWork inside
  | step before follows inside ih => exact .step ih follows (pools inside)

theorem metNothing : ¬ Met next pool [] y := by
  intro met
  induction met with
  | start atWork inside => cases atWork
  | step before follows inside ih => exact ih

/- A name that is taken from the pool is met no more; what follows it is at work from then on. -/
theorem metFresh (fresh : x ∈ pool) :
    Met next pool (x :: work) y ↔ y = x ∨ Met next (pool.erase x) (next x ++ work) y := by
  constructor
  · intro met
    induction met with
    | @start z atWork inside =>
      by_cases same : z = x
      · exact Or.inl same
      · have pending : z ∈ next x ++ work := by simpa [same] using Or.inr atWork
        exact Or.inr (.start pending ((List.mem_erase_of_ne same).mpr inside))
    | @step w z before follows inside ih =>
      by_cases same : z = x
      · exact Or.inl same
      · have left : z ∈ pool.erase x := (List.mem_erase_of_ne same).mpr inside
        rcases ih with rfl | met
        · exact Or.inr (.start (List.mem_append_left _ follows) left)
        · exact Or.inr (.step met follows left)
  · rintro (rfl | met)
    · exact .start List.mem_cons_self fresh
    · refine met.lift List.erase_subset ?_
      intro z pending left
      have inside := List.mem_of_mem_erase left
      rcases List.mem_append.mp pending with follows | atWork
      · exact .step (.start List.mem_cons_self fresh) follows inside
      · exact .start (List.mem_cons_of_mem x atWork) inside

theorem metSeen (seen : x ∉ pool) : Met next pool (x :: work) y ↔ Met next pool work y := by
  constructor
  · refine Met.lift (List.Subset.refl pool) ?_
    intro z atWork inside
    rcases List.mem_cons.mp atWork with rfl | atWork
    · exact absurd inside seen
    · exact .start atWork inside
  · exact Met.lift (List.Subset.refl pool) fun z atWork inside => .start (List.mem_cons_of_mem x atWork) inside

theorem searchMeets : y ∈ search next pool work ↔ Met next pool work y := by
  fun_induction search next pool work with
  | case1 pool => exact iff_of_false List.not_mem_nil metNothing
  | case2 pool x work fresh ih => rw [List.mem_cons, ih, metFresh fresh]
  | case3 pool x work seen ih => rw [ih, metSeen seen]

theorem searchNodup (distinct : pool.Nodup) : (search next pool work).Nodup := by
  fun_induction search next pool work with
  | case1 pool => exact List.nodup_nil
  | case2 pool x work fresh ih =>
    refine List.nodup_cons.mpr ⟨fun again => ?_, ih (distinct.erase x)⟩
    exact distinct.not_mem_erase (searchMeets.mp again).inPool
  | case3 pool x work seen ih => exact ih distinct

theorem metTransGen (closed : ∀ x, next x ⊆ pool) :
    Met next pool (next x) y ↔ Relation.TransGen (fun x y => y ∈ next x) x y := by
  constructor
  · intro met
    induction met with
    | start atWork inside => exact .single atWork
    | step before follows inside ih => exact ih.tail follows
  · intro path
    induction path with
    | single follows => exact .start follows (closed _ follows)
    | tail before follows ih => exact .step ih follows (closed _ follows)

end

section

variable {g : FlowGraph} {x y : String}

def Leads (g : FlowGraph) (x y : String) : Prop := ∃ e ∈ g.edges, e.source = x ∧ e.target = y

theorem memSuccessors : y ∈ g.successors x ↔ g.Leads x y := by
  simp [successors, Leads, and_assoc]

theorem memPredecessors : x ∈ g.predecessors y ↔ g.Leads x y := by
  simp [predecessors, Leads, and_assoc, and_comm]

theorem pathTransGen : Path g x y ↔ Relation.TransGen g.Leads x y := by
  constructor
  · intro path
    induction path with
    | edge mem => exact .single ⟨_, mem, rfl, rfl⟩
    | step mem rest ih => exact ih.head ⟨_, mem, rfl, rfl⟩
  · intro path
    induction path using Relation.TransGen.head_induction_on with
    | single leads =>
      obtain ⟨e, mem, rfl, rfl⟩ := leads
      exact .edge mem
    | head leads rest ih =>
      obtain ⟨e, mem, rfl, rfl⟩ := leads
      exact .step mem ih

theorem Consistent.endsNamed (c : g.Consistent) (leads : g.Leads x y) : x ∈ g.names ∧ y ∈ g.names := by
  obtain ⟨e, mem, rfl, rfl⟩ := leads
  obtain ⟨a, stored, rfl⟩ := List.mem_map.mp mem
  obtain ⟨source, target⟩ := c.joined a stored
  exact ⟨List.mem_of_getElem? source, List.mem_of_getElem? target⟩

theorem Consistent.pathNamed (c : g.Consistent) (path : Path g x y) : x ∈ g.names ∧ y ∈ g.names := by
  induction path with
  | edge mem => exact c.endsNamed ⟨_, mem, rfl, rfl⟩
  | step mem rest ih => exact ⟨(c.endsNamed ⟨_, mem, rfl, rfl⟩).1, ih.2⟩

theorem Consistent.reachedForwards (c : g.Consistent) : y ∈ g.reachedBy g.successors x ↔ Path g x y := by
  have closed (x : String) : g.successors x ⊆ g.names := fun y follows => (c.endsNamed (memSuccessors.mp follows)).2
  rw [reachedBy, searchMeets, metTransGen closed, pathTransGen]
  simp only [memSuccessors]

theorem Consistent.reachedBackwards (c : g.Consistent) : x ∈ g.reachedBy g.predecessors y ↔ Path g x y := by
  have closed (y : String) : g.predecessors y ⊆ g.names := fun x follows => (c.endsNamed (memPredecessors.mp follows)).1
  rw [reachedBy, searchMeets, metTransGen closed, pathTransGen, ← Relation.transGen_swap]
  simp only [memPredecessors]

def ArcLeads (g : FlowGraph) (i j : Nat) : Prop := ∃ a ∈ g.arcs, a.source = i ∧ a.target = j

theorem Consistent.pathOfIndices (c : g.Consistent) {i j : Nat} (first : g.index? x = some i)
    (last : g.index? y = some j) : Path g x y ↔ Relation.TransGen g.ArcLeads i j := by
  have here := (c.index x i).mp first
  have there := (c.index y j).mp last
  clear first last
  rw [pathTransGen]
  constructor
  · intro path
    induction path using Relation.TransGen.head_induction_on generalizing i with
    | single leads =>
      obtain ⟨e, mem, rfl, rfl⟩ := leads
      obtain ⟨a, stored, rfl⟩ := List.mem_map.mp mem
      exact .single ⟨a, stored, (c.arcTo here stored).1.mpr rfl, (c.arcTo there stored).2.mpr rfl⟩
    | head leads rest ih =>
      obtain ⟨e, mem, rfl, rfl⟩ := leads
      obtain ⟨a, stored, rfl⟩ := List.mem_map.mp mem
      exact (ih (c.joined a stored).2).head ⟨a, stored, (c.arcTo here stored).1.mpr rfl, rfl⟩
  · intro path
    induction path using Relation.TransGen.head_induction_on generalizing x with
    | single leads =>
      obtain ⟨a, stored, rfl, rfl⟩ := leads
      exact .single ⟨a.edge, List.mem_map_of_mem stored, (c.arcTo here stored).1.mp rfl, (c.arcTo there stored).2.mp rfl⟩
    | head leads rest ih =>
      obtain ⟨a, stored, rfl, rfl⟩ := leads
      exact (ih (c.joined a stored).2).head ⟨a.edge, List.mem_map_of_mem stored, (c.arcTo here stored).1.mp rfl, rfl⟩

theorem memOthers {found : List String} : y ∈ sortTexts (found.filter (· ≠ x)) ↔ y ≠ x ∧ y ∈ found := by
  rw [sortTexts, (List.mergeSort_perm _ _).mem_iff, List.mem_filter, decide_eq_true_eq, and_comm]

theorem Consistent.memDescendants (c : g.Consistent) : y ∈ g.descendants x ↔ y ≠ x ∧ Path g x y := by
  rw [descendants, memOthers, c.reachedForwards]

theorem Consistent.memAncestors (c : g.Consistent) : x ∈ g.ancestors y ↔ x ≠ y ∧ Path g x y := by
  rw [ancestors, memOthers, c.reachedBackwards]

theorem Consistent.reachedSorted (c : g.Consistent) (next : String → List String) (x : String) :
    (sortTexts ((g.reachedBy next x).filter (· ≠ x))).Pairwise (· < ·) :=
  sortedStrictly ((searchNodup c.namesNodup).filter _)

theorem Consistent.hasCyclesIff (c : g.Consistent) : g.hasCycles = true ↔ ∃ x, Path g x x := by
  rw [hasCycles, List.any_eq_true]
  simp only [decide_eq_true_eq, c.reachedForwards]
  constructor
  · rintro ⟨x, -, circle⟩
    exact ⟨x, circle⟩
  · rintro ⟨x, circle⟩
    exact ⟨x, (c.pathNamed circle).1, circle⟩

theorem Consistent.pathThroughTables (c : g.Consistent) : Path g x y ↔
    ∃ i j, g.index? x = some i ∧ g.nameAt? j = some y ∧ Relation.TransGen g.ArcLeads i j := by
  constructor
  · intro path
    obtain ⟨here, there⟩ := c.pathNamed path
    obtain ⟨i, first⟩ := Option.isSome_iff_exists.mp (c.hasNodeIff.mpr here)
    obtain ⟨j, last⟩ := Option.isSome_iff_exists.mp (c.hasNodeIff.mpr there)
    exact ⟨i, j, first, (c.nameIndex y j).mp last, (c.pathOfIndices first last).mp path⟩
  · rintro ⟨i, j, first, last, arcs⟩
    exact (c.pathOfIndices first ((c.nameIndex y j).mpr last)).mpr arcs

theorem Consistent.searchThroughTables (c : g.Consistent) :
    (∀ x y, y ∈ g.descendants x ↔ ∃ i j, g.index? x = some i ∧ g.nameAt? j = some y ∧ j ≠ i ∧
        Relation.TransGen g.ArcLeads i j) ∧
      (∀ x y, x ∈ g.ancestors y ↔ ∃ i j, g.nameAt? i = some x ∧ g.index? y = some j ∧ i ≠ j ∧
        Relation.TransGen g.ArcLeads i j) ∧
      (g.hasCycles = true ↔ ∃ i, Relation.TransGen g.ArcLeads i i) := by
  have apart {x y : String} {i j : Nat} (first : g.index? x = some i) (last : g.index? y = some j) :
      y ≠ x ↔ j ≠ i := by
    refine not_congr ⟨fun same => ?_, fun same => ?_⟩
    · rw [same, first] at last
      exact (Option.some.inj last).symm
    · rw [c.nameIndex] at first last
      rw [same, first] at last
      exact (Option.some.inj last).symm
  refine ⟨fun x y => ?_, fun x y => ?_, ?_⟩
  · rw [c.memDescendants, c.pathThroughTables]
    constructor
    · rintro ⟨other, i, j, first, last, arcs⟩
      exact ⟨i, j, first, last, (apart first ((c.nameIndex y j).mpr last)).mp other, arcs⟩
    · rintro ⟨i, j, first, last, other, arcs⟩
      exact ⟨(apart first ((c.nameIndex y j).mpr last)).mpr other, i, j, first, last, arcs⟩
  · rw [c.memAncestors, c.pathThroughTables]
    constructor
    · rintro ⟨other, i, j, first, last, arcs⟩
      have there := (c.nameIndex y j).mpr last
      exact ⟨i, j, (c.nameIndex x i).mp first, there, (apart there first).mp other, arcs⟩
    · rintro ⟨i, j, first, last, other, arcs⟩
      have here := (c.nameIndex x i).mpr first
      exact ⟨(apart last here).mpr other, i, j, here, (c.nameIndex y j).mp last, arcs⟩
  · rw [c.hasCyclesIff]
    constructor
    · rintro ⟨x, circle⟩
      obtain ⟨i, j, first, last, arcs⟩ := c.pathThroughTables.mp circle
      obtain rfl : i = j := Option.some.inj (first.symm.trans ((c.nameIndex x j).mpr last))
      exact ⟨i, arcs⟩
    · rintro ⟨i, arcs⟩
      obtain ⟨_, ⟨a, stored, rfl, _⟩, _⟩ := Relation.TransGen.head'_iff.mp arcs
      have first := (c.index _ _).mpr (c.joined a stored).1
      exact ⟨a.edge.source, c.pathThroughTables.mpr ⟨a.source, a.source, first, (c.nameIndex _ _).mp first, arcs⟩⟩

/- After its first edge a circle is back, or it passes through another name. -/
theorem circleIff : (∃ x, Path g x x) ↔
    (∃ e ∈ g.edges, e.source = e.target) ∨ ∃ x y, y ≠ x ∧ Path g x y ∧ Path g y x := by
  constructor
  · rintro ⟨x, circle⟩
    obtain ⟨y, leads, back⟩ := Relation.TransGen.head'_iff.mp (pathTransGen.mp circle)
    rcases Relation.reflTransGen_iff_eq_or_transGen.mp back with rfl | back
    · obtain ⟨e, mem, source, target⟩ := leads
      exact Or.inl ⟨e, mem, source.trans target.symm⟩
    · by_cases same : y = x
      · obtain ⟨e, mem, source, target⟩ := leads
        exact Or.inl ⟨e, mem, source.trans (target.trans same).symm⟩
      · exact Or.inr ⟨x, y, same, pathTransGen.mpr (.single leads), pathTransGen.mpr back⟩
  · rintro (⟨e, mem, same⟩ | ⟨x, y, -, there, back⟩)
    · exact ⟨e.source, pathTransGen.mpr (.single ⟨e, mem, rfl, same.symm⟩)⟩
    · exact ⟨x, pathTransGen.mpr ((pathTransGen.mp there).trans (pathTransGen.mp back))⟩

end

structure Searched (calls : List Call) (g : FlowGraph) : Prop where
  edges : g.edges = accepted [] calls
  descendants : ∀ x y, y ∈ g.descendants x ↔ y ≠ x ∧ Path g x y
  ancestors : ∀ x y, x ∈ g.ancestors y ↔ x ≠ y ∧ Path g x y
  converse : ∀ x y, y ∈ g.descendants x ↔ x ∈ g.ancestors y
  others : ∀ x, x ∉ g.descendants x ∧ x ∉ g.ancestors x
  unknown : ∀ x, x ∉ addedNames calls → g.descendants x = [] ∧ g.ancestors x = []
  sorted : ∀ x, (g.descendants x).Pairwise (· < ·) ∧ (g.ancestors x).Pairwise (· < ·)
  indices : ∀ x y i j, g.index? x = some i → g.index? y = some j → (Path g x y ↔ Relation.TransGen g.ArcLeads i j)
  cycles : g.hasCycles = true ↔ ∃ x, Path g x x
  circles : g.hasCycles = true ↔
    (∃ e ∈ g.edges, e.source = e.target) ∨ ∃ x y, y ∈ g.descendants x ∧ x ∈ g.descendants y

theorem runSearched (calls : List Call) : Searched calls (run calls) := by
  have consistent := runConsistent calls
  constructor
  case edges => exact runAccepted [] calls
  case descendants => exact fun x y => consistent.memDescendants
  case ancestors => exact fun x y => consistent.memAncestors
  case converse =>
    intro x y
    rw [consistent.memDescendants, consistent.memAncestors, ne_comm]
  case others =>
    intro x
    rw [consistent.memDescendants, consistent.memAncestors]
    exact ⟨fun found => found.1 rfl, fun found => found.1 rfl⟩
  case unknown =>
    intro x absent
    rw [← runKnown, consistent.hasNodeIff] at absent
    constructor
    · rw [List.eq_nil_iff_forall_not_mem]
      intro y found
      exact absent (consistent.pathNamed (consistent.memDescendants.mp found).2).1
    · rw [List.eq_nil_iff_forall_not_mem]
      intro y found
      exact absent (consistent.pathNamed (consistent.memAncestors.mp found).2).2
  case sorted => exact fun x => ⟨consistent.reachedSorted _ x, consistent.reachedSorted _ x⟩
  case indices => exact fun x y i j => consistent.pathOfIndices
  case cycles => exact consistent.hasCyclesIff
  case circles =>
    rw [consistent.hasCyclesIff, circleIff]
    refine or_congr_right (exists₂_congr fun x y => ?_)
    rw [consistent.memDescendants, consistent.memDescendants]
    constructor
    · rintro ⟨apart, there, back⟩
      exact ⟨⟨apart, there⟩, apart.symm, back⟩
    · rintro ⟨⟨apart, there⟩, -, back⟩
      exact ⟨apart, there, back⟩

end FlowAtlas.FlowGraph
