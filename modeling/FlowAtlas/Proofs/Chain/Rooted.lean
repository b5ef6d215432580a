import FlowAtlas.Proofs.Chain.Unfolding
import Mathlib.Logic.Relation
/-! Chains as graphs. Each is grown from its root: whatever is visited stands behind a node that leads to it,
and both ends of an edge are nodes. -/
namespace FlowAtlas

namespace Trail

theorem connectDistinct (edge : Edge) {t : Trail} (distinct : t.edges.Nodup) :
    (t.connect edge).edges.Nodup := by
  unfold connect
  split
  · exact distinct
  · rename_i new
    rw [← List.concat_eq_append]
    exact distinct.concat new

theorem revisitDistinct (t : Trigger) {trail : Trail} (distinct : trail.edges.Nodup) :
    (trail.revisit t).edges.Nodup := by
  unfold revisit
  split
  · exact connectDistinct t.edge distinct
  · exact distinct

theorem enterDistinct (t : Trigger) {trail : Trail} (distinct : trail.edges.Nodup) :
    (trail.enter t).edges.Nodup :=
  connectDistinct t.edge (by rwa [edgesVisit])

end Trail

theorem runEdgesDistinct {keys : List Key} {ix : Index} {agenda entered : List Trigger} {trail last : Trail}
    (run : Run keys ix agenda trail entered last) (distinct : trail.edges.Nodup) : last.edges.Nodup := by
  induction run with
  | done trail => exact distinct
  | again visited next ih => exact ih (Trail.revisitDistinct _ distinct)
  | enter fresh known next ih => exact ih (Trail.enterDistinct _ distinct)
  | skip fresh unknown next ih => exact ih distinct

theorem walkEdgesDistinct (keys : List Key) (ix : Index) (first : List Trigger) (root : Key) :
    (walk keys ix first (.start root)).edges.Nodup := by
  obtain ⟨entered, run⟩ := walkRun keys ix first (.start root)
  exact runEdgesDistinct run List.nodup_nil

def Chain.Leads (c : Chain) (a b : Key) : Prop := ∃ x ∈ c.edges, x.source = a ∧ x.target = b

structure Chain.Rooted (c : Chain) : Prop where
  first : c.nodes.head? = some c.root
  nodes : c.nodes.Nodup
  edges : c.edges.Nodup
  ends : ∀ x ∈ c.edges, x.source ∈ c.nodes ∧ x.target ∈ c.nodes
  earlier : ∀ n ∈ c.nodes, n ≠ c.root →
    ∃ x ∈ c.edges, x.target = n ∧ c.nodes.idxOf x.source < c.nodes.idxOf n
  reachable : ∀ n ∈ c.nodes, Relation.ReflTransGen c.Leads c.root n

theorem earlierReachable {c : Chain} (ends : ∀ x ∈ c.edges, x.source ∈ c.nodes)
    (earlier : ∀ n ∈ c.nodes, n ≠ c.root →
      ∃ x ∈ c.edges, x.target = n ∧ c.nodes.idxOf x.source < c.nodes.idxOf n) :
    ∀ n ∈ c.nodes, Relation.ReflTransGen c.Leads c.root n := by
  suffices placed : ∀ place n, c.nodes.idxOf n = place → n ∈ c.nodes →
      Relation.ReflTransGen c.Leads c.root n by
    intro n mem
    exact placed _ n rfl mem
  intro place
  induction place using Nat.strongRecOn with
  | _ place ih =>
    intro n here mem
    by_cases same : n = c.root
    · rw [same]
    · obtain ⟨x, drawn, target, before⟩ := earlier n mem same
      have source := ih _ (here ▸ before) x.source rfl (ends x drawn)
      exact source.tail ⟨x, drawn, rfl, target⟩

theorem placedBefore {before after : List Key} {p n : Key} (distinct : (before ++ n :: after).Nodup)
    (mem : p ∈ before) : (before ++ n :: after).idxOf p < (before ++ n :: after).idxOf n := by
  have absent : n ∉ before := fun inside =>
    (List.nodup_append.mp distinct).2.2 n inside n List.mem_cons_self rfl
  rw [List.idxOf_append, List.idxOf_append, if_pos mem, if_neg absent]
  have place := List.idxOf_lt_length_iff.mpr mem
  omega

section

variable {inv : Inventory} {root : Key} {first entered : List Trigger} {c : Chain}

theorem offeredSource (u : Unfolds inv root first entered c) {t : Trigger}
    (offered : Offered inv.index first entered t) : t.source ∈ c.nodes := by
  rcases offered with start | ⟨p, parent, next⟩
  · rw [u.rooted t start]
    exact (memNodes u).mpr (Or.inl rfl)
  · rw [nextSource next]
    exact (memNodes u).mpr (Or.inr ⟨p, parent, rfl⟩)

theorem edgeSource (u : Unfolds inv root first entered c) {x : Edge} (mem : x ∈ c.edges) :
    x.source ∈ c.nodes := by
  rcases u.drawn x mem with ⟨d, entry, rfl⟩ | ⟨t, offered, _, rfl⟩
  · exact offeredSource u (enteredOffered u entry)
  · exact offeredSource u offered

theorem discoverySourceEarlier (u : Unfolds inv root first entered c) {d : Trigger} (mem : d ∈ entered) :
    c.nodes.idxOf d.source < c.nodes.idxOf d.target := by
  obtain ⟨before, after, split⟩ := List.append_of_mem mem
  have nodes : c.nodes = (root :: before.map (·.target)) ++ d.target :: after.map (·.target) := by
    simp [u.nodes, split]
  have source : d.source ∈ root :: before.map (·.target) := by
    rcases u.origin split with found | ⟨p, earlier, found⟩
    · rw [u.rooted d (List.mem_of_find?_eq_some found)]
      exact List.mem_cons_self
    · rw [nextSource (List.mem_of_find?_eq_some found)]
      exact List.mem_cons_of_mem _ (List.mem_map_of_mem earlier)
  have distinct := u.distinct
  rw [nodes] at distinct ⊢
  exact placedBefore distinct source

theorem unfoldedRooted (u : Unfolds inv root first entered c) (edges : c.edges.Nodup) : c.Rooted := by
  have ends : ∀ x ∈ c.edges, x.source ∈ c.nodes ∧ x.target ∈ c.nodes :=
    fun x mem => ⟨edgeSource u mem, u.grounded x mem⟩
  have earlier : ∀ n ∈ c.nodes, n ≠ c.root →
      ∃ x ∈ c.edges, x.target = n ∧ c.nodes.idxOf x.source < c.nodes.idxOf n := by
    intro n mem other
    obtain ⟨d, entry, rfl⟩ := nodeEntered u mem (u.anchored ▸ other)
    have drawn : d.edge ∈ c.edges := List.mem_of_find?_eq_some (u.discovers d entry)
    exact ⟨d.edge, drawn, rfl, discoverySourceEarlier u entry⟩
  constructor
  case first => rw [u.nodes, u.anchored, List.head?_cons]
  case nodes => exact u.distinct
  case edges => exact edges
  case ends => exact ends
  case earlier => exact earlier
  case reachable => exact earlierReachable (fun x mem => (ends x mem).1) earlier

end

theorem chainFromRooted (inv : Inventory) (root : Key) : (inv.chainFrom root).Rooted := by
  obtain ⟨entered, u⟩ := chainFromUnfolds inv root
  exact unfoldedRooted u (walkEdgesDistinct inv.keys inv.index (Inventory.rootTriggers inv.index root) root)

theorem chainOfRooted (inv : Inventory) (d : Dispatch) : (inv.chainOf d).Rooted := by
  obtain ⟨entered, u⟩ := chainOfUnfolds inv d
  apply unfoldedRooted u
  rw [chainOfWalk]
  exact walkEdgesDistinct inv.keys inv.index [d.trigger] d.root

end FlowAtlas
