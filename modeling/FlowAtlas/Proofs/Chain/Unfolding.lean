import FlowAtlas.Proofs.Chain.Run
import FlowAtlas.Proofs.Chain.Reach
/-! How the chains of an inventory unfold from their roots. One relation between a chain and the triggers
that brought its nodes says all that later modules use; both ways of making a chain satisfy it. -/
namespace FlowAtlas

def Chain.discovery? (c : Chain) (n : Key) : Option Edge := c.edges.find? (fun x => x.target = n)

def Offered (ix : Index) (first entered : List Trigger) (t : Trigger) : Prop :=
  t ∈ first ∨ ∃ d ∈ entered, t ∈ d.next ix

structure Unfolds (inv : Inventory) (root : Key) (first entered : List Trigger) (c : Chain) : Prop where
  anchored : c.root = root
  rooted : ∀ t ∈ first, t = ⟨root, t.target, .command, false⟩
  nodes : c.nodes = root :: entered.map (·.target)
  distinct : c.nodes.Nodup
  known : ∀ d ∈ entered, d.target ∈ inv.keys
  grounded : ∀ x ∈ c.edges, x.target ∈ c.nodes
  discovers : ∀ d ∈ entered, c.discovery? d.target = some d.edge
  origin : ∀ {before after d}, entered = before ++ d :: after →
    first.find? (fun t => t.target = d.target) = some d ∨
      ∃ p ∈ before, (p.next inv.index).find? (fun t => t.target = d.target) = some d
  visited : ∀ {t}, Offered inv.index first entered t → t.target ∈ inv.keys → t.target ∈ c.nodes
  closed : ∀ {t}, Offered inv.index first entered t → t.target ∈ c.nodes → t.closes = true → t.edge ∈ c.edges
  drawn : ∀ x ∈ c.edges, (∃ d ∈ entered, x = d.edge) ∨
    ∃ t, Offered inv.index first entered t ∧ t.closes = true ∧ x = t.edge

theorem runUnfolds {inv : Inventory} {root : Key} {first entered : List Trigger} {last : Trail} (name : String)
    (run : Run inv.keys inv.index first (.start root) entered last)
    (rooted : ∀ t ∈ first, t = ⟨root, t.target, .command, false⟩) :
    Unfolds inv root first entered (last.toChain name root).toChain := by
  have grounded := Trail.startGrounded root
  have settles := runSettles run
  constructor
  case anchored => rfl
  case rooted => exact rooted
  case nodes => exact runNodes run
  case distinct => exact runNodup run (by simp [Trail.start])
  case known => exact runKnown run
  case grounded => exact runGrounded run grounded
  case discovers => exact runDiscovers run grounded
  case origin => exact runOrigin run
  case visited =>
    rintro t (here | ⟨d, mem, here⟩)
    · exact (settles.1 t here).visited
    · exact (settles.2 d mem t here).visited
  case closed =>
    rintro t (here | ⟨d, mem, here⟩)
    · exact (settles.1 t here).closed
    · exact (settles.2 d mem t here).closed
  case drawn =>
    intro x mem
    rcases runEdges run x mem with old | discovers | closing
    · simp [Trail.start] at old
    · exact Or.inl discovers
    · exact Or.inr closing

theorem walkUnfolds (inv : Inventory) (name : String) {root : Key} {first : List Trigger}
    (rooted : ∀ t ∈ first, t = ⟨root, t.target, .command, false⟩) :
    ∃ entered, Unfolds inv root first entered
      ((walk inv.keys inv.index first (.start root)).toChain name root).toChain := by
  obtain ⟨entered, run⟩ := walkRun inv.keys inv.index first (.start root)
  exact ⟨entered, runUnfolds name run rooted⟩

theorem rootTriggersRooted {ix : Index} {root : Key} :
    ∀ t ∈ Inventory.rootTriggers ix root, t = ⟨root, t.target, .command, false⟩ := by
  intro t mem
  obtain ⟨c, _, rfl⟩ := List.mem_map.mp mem
  rfl

theorem chainFromUnfolds (inv : Inventory) (root : Key) :
    ∃ entered, Unfolds inv root (Inventory.rootTriggers inv.index root) entered (inv.chainFrom root).toChain :=
  walkUnfolds inv root.simpleName rootTriggersRooted

def Dispatch.trigger (d : Dispatch) : Trigger := ⟨d.root, ⟨d.command, ""⟩, .command, false⟩

theorem walkUnlisted {keys : List Key} {ix : Index} {t : Trigger} {root : Key} (unlisted : t.target ∉ keys)
    (single : t.closes = false) :
    (walk keys ix [t] (.start root)).nodes = [root] ∧ (walk keys ix [t] (.start root)).edges = [] := by
  rw [walk]
  split
  · rw [walk]
    simp [Trail.revisit, single, Trail.start]
  · rw [walk]
    exact ⟨rfl, rfl⟩

theorem chainOfWalk (inv : Inventory) (d : Dispatch) : (inv.chainOf d).toChain =
    ((walk inv.keys inv.index [d.trigger] (.start d.root)).toChain d.name d.root).toChain := by
  unfold Inventory.chainOf
  by_cases listed : (⟨d.command, ""⟩ : Key) ∈ inv.keys
  · simp only [listed, if_true]
    rfl
  · have alone := @walkUnlisted inv.keys inv.index d.trigger d.root listed rfl
    simp only [listed, if_false, Trail.toChain, alone]
    rfl

theorem chainOfUnfolds (inv : Inventory) (d : Dispatch) :
    ∃ entered, Unfolds inv d.root [d.trigger] entered (inv.chainOf d).toChain := by
  have rooted : ∀ t ∈ [d.trigger], t = ⟨d.root, t.target, .command, false⟩ := by
    simp [Dispatch.trigger]
  rw [chainOfWalk]
  exact walkUnfolds inv d.name rooted

section

variable {inv : Inventory} {root : Key} {first entered : List Trigger} {c : Chain}

theorem enteredNotRoot (u : Unfolds inv root first entered c) {d : Trigger} (mem : d ∈ entered) :
    d.target ≠ root := by
  have distinct := u.distinct
  rw [u.nodes, List.nodup_cons] at distinct
  intro same
  exact distinct.1 (List.mem_map.mpr ⟨d, mem, same⟩)

theorem memNodes (u : Unfolds inv root first entered c) {n : Key} :
    n ∈ c.nodes ↔ n = root ∨ ∃ d ∈ entered, d.target = n := by
  rw [u.nodes, List.mem_cons, List.mem_map]

theorem nodeEntered (u : Unfolds inv root first entered c) {n : Key} (mem : n ∈ c.nodes) (other : n ≠ root) :
    ∃ d ∈ entered, d.target = n := by
  rcases (memNodes u).mp mem with same | found
  · exact absurd same other
  · exact found

theorem discoveryEntered (u : Unfolds inv root first entered c) {n : Key} {x : Edge} (other : n ≠ root)
    (found : c.discovery? n = some x) : ∃ d ∈ entered, d.target = n ∧ d.edge = x := by
  have mem := u.grounded x (List.mem_of_find?_eq_some found)
  have leads : x.target = n := by simpa using List.find?_some found
  obtain ⟨d, entered, rfl⟩ := nodeEntered u (leads ▸ mem) other
  exact ⟨d, entered, rfl, Option.some.inj ((u.discovers d entered).symm.trans found)⟩

theorem originOf (u : Unfolds inv root first entered c) {d : Trigger} (mem : d ∈ entered) :
    d ∈ first ∨ ∃ p ∈ entered, (p.next inv.index).find? (fun t => t.target = d.target) = some d := by
  obtain ⟨before, after, split⟩ := List.append_of_mem mem
  rcases u.origin split with found | ⟨p, earlier, found⟩
  · exact Or.inl (List.mem_of_find?_eq_some found)
  · exact Or.inr ⟨p, by simp [split, earlier], found⟩

theorem enteredOffered (u : Unfolds inv root first entered c) {d : Trigger} (mem : d ∈ entered) :
    Offered inv.index first entered d := by
  rcases originOf u mem with start | ⟨p, parent, found⟩
  · exact Or.inl start
  · exact Or.inr ⟨p, parent, List.mem_of_find?_eq_some found⟩

theorem enteredInduction (u : Unfolds inv root first entered c) {motive : Trigger → Prop}
    (start : ∀ d ∈ entered, d ∈ first → motive d)
    (step : ∀ p ∈ entered, motive p → ∀ d ∈ entered, d ∈ p.next inv.index → motive d) :
    ∀ d ∈ entered, motive d := by
  suffices placed : ∀ n before after d, before.length = n → entered = before ++ d :: after → motive d by
    intro d mem
    obtain ⟨before, after, split⟩ := List.append_of_mem mem
    exact placed before.length before after d rfl split
  intro n
  induction n using Nat.strongRecOn with
  | _ n ih =>
    intro before after d length split
    have mem : d ∈ entered := by simp [split]
    rcases u.origin split with found | ⟨p, earlier, found⟩
    · exact start d mem (List.mem_of_find?_eq_some found)
    · obtain ⟨ahead, between, rfl⟩ := List.append_of_mem earlier
      have shorter : ahead.length < n := by
        simp only [← length, List.length_append, List.length_cons]
        omega
      have parent := ih ahead.length shorter ahead (between ++ d :: after) p rfl (by simp [split])
      exact step p (by simp [split]) parent d mem (List.mem_of_find?_eq_some found)

theorem followedUp (u : Unfolds inv root first entered c) {d : Trigger} (mem : d ∈ entered) {role : Role} {key : Key}
    (step : SetsOff inv d.role d.target role key) :
    key ∈ c.nodes ∧ (role.closes = true → (⟨d.target, key, role.label⟩ : Edge) ∈ c.edges) := by
  obtain ⟨next, listed⟩ := setsOffNext step
  have offered : Offered inv.index first entered ⟨d.target, key, role, role.closes⟩ := Or.inr ⟨d, mem, next⟩
  have here := u.visited offered listed
  exact ⟨here, fun closes => u.closed offered here closes⟩

theorem discoveredFollowed (u : Unfolds inv root first entered c) {n : Key} {x : Edge} (other : n ≠ root)
    (found : c.discovery? n = some x) {given role : Role} {key : Key} (step : SetsOff inv given n role key)
    (label : x.label = given.label) (plain : given.closes = true) :
    key ∈ c.nodes ∧ (role.closes = true → (⟨n, key, role.label⟩ : Edge) ∈ c.edges) := by
  obtain ⟨d, mem, rfl, rfl⟩ := discoveryEntered u other found
  have same : d.role = given := labelRole plain label
  subst same
  exact followedUp u mem step

end

end FlowAtlas
