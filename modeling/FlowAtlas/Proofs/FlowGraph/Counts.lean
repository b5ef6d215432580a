import FlowAtlas.Proofs.FlowGraph.Tables
import Mathlib.Algebra.BigOperators.Group.List.Lemmas
import Mathlib.Algebra.GroupWithZero.Nat
import Mathlib.Data.String.Basic
/-! What a flow graph with consistent tables lists and counts: the nodes of a category once each and in order,
every node in the count of its category, every edge in the count of its kind, and as orphans the nodes that no edge
touches. -/
namespace FlowAtlas

theorem textLeIff {a b : String} : textLe a b = true ↔ a ≤ b := by
  rw [textLe, Bool.not_eq_true', decide_eq_false_iff_not, not_lt]

theorem textLeTrans (a b c : String) (first : textLe a b = true) (second : textLe b c = true) : textLe a c = true :=
  textLeIff.mpr (le_trans (textLeIff.mp first) (textLeIff.mp second))

theorem textLeTotal (a b : String) : (textLe a b || textLe b a) = true := by
  rw [Bool.or_eq_true, textLeIff, textLeIff]
  exact le_total a b

theorem sortedStrictly {texts : List String} (distinct : texts.Nodup) : (sortTexts texts).Pairwise (· < ·) := by
  have ordered : (sortTexts texts).Pairwise fun a b => textLe a b = true :=
    List.pairwise_mergeSort textLeTrans textLeTotal texts
  have apart : (sortTexts texts).Nodup := (List.mergeSort_perm texts textLe).nodup_iff.mpr distinct
  refine (ordered.and apart).imp ?_
  rintro a b ⟨le, other⟩
  exact lt_of_le_of_ne (textLeIff.mp le) other

theorem tallySum (texts : List String) : ((tally texts).map (·.2)).sum = texts.length := by
  have counts : (tally texts).map (·.2) = (sortTexts texts.eraseDups).map texts.count := by
    rw [tally, List.map_map]
    rfl
  have sorted : (sortTexts texts.eraseDups).Perm texts.dedup := by
    refine (List.mergeSort_perm _ _).trans ?_
    have distinct : texts.eraseDups.Nodup := Selection.firstsErases texts ▸ Selection.firstsNodup texts
    rw [List.perm_ext_iff_of_nodup distinct texts.nodup_dedup]
    simp
  rw [counts, (sorted.map texts.count).sum_eq]
  exact List.sum_map_count_dedup_eq_length texts

theorem Category.nameInjective {a b : Category} (same : a.name = b.name) : a = b := by
  cases a <;> cases b <;> first | rfl | exact absurd same (by decide)

def FlowEdge.touches (e : FlowEdge) (name : String) : Bool := e.source = name || e.target = name

namespace FlowGraph

theorem groupEntry {c : Category} {names : List String} {members : List (Category × List String)}
    (distinct : (members.map (·.1)).Nodup) (mem : (c, names) ∈ members) : Table.group c members = names := by
  induction members with
  | nil => cases mem
  | cons entry rest ih =>
    obtain ⟨k, v⟩ := entry
    rw [List.map_cons, List.nodup_cons] at distinct
    rcases List.mem_cons.mp mem with same | later
    · cases same
      simp [Table.group, Table.get?]
    · have other : k ≠ c := by
        rintro rfl
        exact distinct.1 (List.mem_map.mpr ⟨_, later, rfl⟩)
      rw [← ih distinct.2 later]
      simp [Table.group, Table.get?, other]

theorem groupListed {c : Category} {name : String} {members : List (Category × List String)}
    (mem : name ∈ Table.group c members) : (c, Table.group c members) ∈ members := by
  induction members with
  | nil => cases mem
  | cons entry rest ih =>
    obtain ⟨k, v⟩ := entry
    by_cases same : k = c
    · simp [Table.group, Table.get?, same]
    · have group : Table.group c ((k, v) :: rest) = Table.group c rest := by
        simp [Table.group, Table.get?, same]
      rw [group] at mem ⊢
      exact List.mem_cons_of_mem _ (ih mem)

section

variable {g : FlowGraph}

theorem Consistent.nodeNamed (c : g.Consistent) {n : FlowNode} (mem : n ∈ g.nodes) : g.node? n.name = some n :=
  c.nodeIff.mpr ⟨mem, rfl⟩

theorem Consistent.nodesFound (c : g.Consistent) : g.nodes.map some = g.names.map g.node? := by
  rw [names, List.map_map]
  exact List.map_congr_left fun n mem => (c.nodeNamed mem).symm

theorem Consistent.memGroup (c : g.Consistent) {k : Category} {name : String} :
    name ∈ Table.group k g.members ↔ ∃ n ∈ g.nodes, n.category = k ∧ n.name = name := by
  rw [c.category, Option.map_eq_some_iff]
  constructor
  · rintro ⟨n, found, same⟩
    obtain ⟨mem, named⟩ := c.nodeIff.mp found
    exact ⟨n, mem, same, named⟩
  · rintro ⟨n, mem, same, named⟩
    exact ⟨n, c.nodeIff.mpr ⟨mem, named⟩, same⟩

theorem Consistent.categoryNodup (c : g.Consistent) (k : Category) :
    ((g.nodes.filter (·.category = k)).map (·.name)).Nodup :=
  c.namesNodup.sublist (List.filter_sublist.map _)

theorem Consistent.groupPerm (c : g.Consistent) (k : Category) :
    (Table.group k g.members).Perm ((g.nodes.filter (·.category = k)).map (·.name)) := by
  rw [List.perm_ext_iff_of_nodup (c.distinct k) (c.categoryNodup k)]
  intro name
  rw [c.memGroup, List.mem_map]
  simp [and_assoc]

theorem Consistent.ofCategoryPerm (c : g.Consistent) (k : Category) :
    (g.ofCategory k).Perm (g.nodes.filter (·.category = k)) := by
  refine (List.mergeSort_perm _ _).trans (((c.groupPerm k).filterMap g.node?).trans ?_)
  rw [List.filterMap_map]
  have found : ∀ n ∈ g.nodes.filter (·.category = k), (g.node? ∘ (·.name)) n = some n :=
    fun n mem => c.nodeNamed (List.mem_of_mem_filter mem)
  rw [List.filterMap_congr found, List.filterMap_some]

theorem Consistent.ofCategorySorted (c : g.Consistent) (k : Category) :
    (g.ofCategory k).Pairwise fun a b => a.name < b.name := by
  have ordered : (g.ofCategory k).Pairwise fun a b => textLe a.name b.name = true :=
    @List.pairwise_mergeSort _ (fun a b : FlowNode => textLe a.name b.name)
      (fun a b c => textLeTrans a.name b.name c.name) (fun a b => textLeTotal a.name b.name) _
  have distinct : (g.ofCategory k).Pairwise fun a b => a.name ≠ b.name :=
    List.pairwise_map.mp (((c.ofCategoryPerm k).map _).nodup_iff.mpr (c.categoryNodup k))
  refine (ordered.and distinct).imp ?_
  rintro a b ⟨le, other⟩
  exact lt_of_le_of_ne (textLeIff.mp le) other

theorem Consistent.categoryCount (c : g.Consistent) (k : Category) (count : Nat) :
    (k.name, count) ∈ g.categoryCounts ↔ 0 < count ∧ count = g.nodes.countP (·.category = k) := by
  have size : (Table.group k g.members).length = g.nodes.countP (·.category = k) := by
    rw [(c.groupPerm k).length_eq, List.length_map, List.countP_eq_length_filter]
  rw [← size, categoryCounts, (List.mergeSort_perm _ _).mem_iff, List.mem_map]
  constructor
  · rintro ⟨⟨k', names⟩, mem, same⟩
    obtain ⟨named, rfl⟩ := Prod.mk.inj same
    obtain rfl := Category.nameInjective named
    obtain ⟨entry, filled⟩ := List.mem_filter.mp mem
    rw [groupEntry c.categories entry]
    exact ⟨by simpa [List.length_pos_iff] using filled, rfl⟩
  · rintro ⟨filled, rfl⟩
    obtain ⟨name, mem⟩ := List.exists_mem_of_length_pos filled
    refine ⟨(k, Table.group k g.members), List.mem_filter.mpr ⟨groupListed mem, ?_⟩, rfl⟩
    simpa [List.length_pos_iff] using filled

theorem categoryFilled {entry : String × Nat} (mem : entry ∈ g.categoryCounts) : 0 < entry.2 := by
  rw [categoryCounts, (List.mergeSort_perm _ _).mem_iff] at mem
  obtain ⟨⟨k, names⟩, listed, rfl⟩ := List.mem_map.mp mem
  obtain ⟨-, filled⟩ := List.mem_filter.mp listed
  simpa [List.length_pos_iff] using filled

theorem Consistent.membersPerm (c : g.Consistent) : (g.members.flatMap (·.2)).Perm g.names := by
  have entry (e : Category × List String) (mem : e ∈ g.members) : Table.group e.1 g.members = e.2 :=
    groupEntry c.categories mem
  have distinct : (g.members.flatMap (·.2)).Nodup := by
    rw [List.nodup_flatMap]
    refine ⟨fun e mem => entry e mem ▸ c.distinct e.1, ?_⟩
    refine (List.pairwise_map.mp c.categories).imp_of_mem ?_
    intro a b first second apart name (left : name ∈ a.2) (right : name ∈ b.2)
    rw [← entry a first, c.category] at left
    rw [← entry b second, c.category, left] at right
    exact apart (Option.some.inj right)
  rw [List.perm_ext_iff_of_nodup distinct c.namesNodup]
  intro name
  rw [List.mem_flatMap]
  constructor
  · rintro ⟨e, mem, (inside : name ∈ e.2)⟩
    rw [← entry e mem, c.memGroup] at inside
    obtain ⟨n, listed, -, rfl⟩ := inside
    exact List.mem_map_of_mem listed
  · intro mem
    obtain ⟨n, listed, rfl⟩ := List.mem_map.mp mem
    have inside : n.name ∈ Table.group n.category g.members := c.memGroup.mpr ⟨n, listed, rfl, rfl⟩
    exact ⟨_, groupListed inside, inside⟩

theorem Consistent.categorySum (c : g.Consistent) : (g.categoryCounts.map (·.2)).sum = g.nodes.length := by
  have sorted : (g.categoryCounts.map (·.2)).Perm
      ((g.members.filter fun e => !e.2.isEmpty).map fun e => e.2.length) := by
    have counts : g.categoryCounts.Perm ((g.members.filter fun e => !e.2.isEmpty).map fun e =>
        (e.1.name, e.2.length)) := List.mergeSort_perm _ _
    have sizes := counts.map Prod.snd
    rwa [List.map_map] at sizes
  have filled : ((g.members.filter fun e => !e.2.isEmpty).map fun e => e.2.length).sum =
      (g.members.map fun e => e.2.length).sum := by
    induction g.members with
    | nil => rfl
    | cons e rest ih =>
      by_cases none : e.2 = []
      · simp [none, ih]
      · simp [none, ih]
  have total : (g.members.map fun e => e.2.length).sum = g.names.length := by
    rw [← List.length_flatMap]
    exact c.membersPerm.length_eq
  exact (sorted.sum_eq.trans filled).trans (total.trans (List.length_map _))

theorem Consistent.arcTo (c : g.Consistent) {name : String} {i : Nat} (here : g.names[i]? = some name)
    {a : Arc} (mem : a ∈ g.arcs) :
    (a.source = i ↔ a.edge.source = name) ∧ (a.target = i ↔ a.edge.target = name) := by
  obtain ⟨source, target⟩ := c.joined a mem
  have only {j : Nat} {other : String} (there : g.names[j]? = some other) : j = i ↔ other = name := by
    constructor
    · rintro rfl
      exact Option.some.inj (there.symm.trans here)
    · rintro rfl
      exact Option.some.inj (((c.index other j).mpr there).symm.trans ((c.index other i).mpr here))
  exact ⟨only source, only target⟩

theorem Consistent.orphanIff (c : g.Consistent) {name : String} {i : Nat} (here : g.names[i]? = some name) :
    (g.inDegree i = 0 && g.outDegree i = 0) = !g.edges.any (·.touches name) := by
  rw [Bool.eq_iff_iff]
  simp only [inDegree, outDegree, edges, List.countP_eq_zero, Bool.and_eq_true, decide_eq_true_eq, List.any_map,
    Bool.not_eq_true', List.any_eq_false, FlowEdge.touches, Function.comp_apply, Bool.or_eq_true, not_or]
  rw [← forall₂_and]
  refine forall₂_congr fun a mem => ?_
  obtain ⟨source, target⟩ := c.arcTo here mem
  rw [source, target, and_comm]

theorem Consistent.orphanCount (c : g.Consistent) :
    g.orphans.length = (g.names.filter fun name => !g.edges.any (·.touches name)).length := by
  have named : g.names = (List.range g.nodes.length).map fun i => g.names.getD i "" := by
    apply List.ext_getElem
    · simp [names]
    · intro i left right
      simp [left]
  rw [orphans, named, List.filter_map, List.length_map]
  congr 1
  apply List.filter_congr
  intro i mem
  have inside : i < g.names.length := by simpa [names] using mem
  rw [c.orphanIff (List.getElem?_eq_getElem inside)]
  simp [List.getD_eq_getElem?_getD, inside]

end

end FlowGraph

end FlowAtlas
