import FlowAtlas.Chain.Walk
import Mathlib.Data.List.Nodup
/-! The run of a walk as a relation. Beside the last trail it retains the triggers that were entered, in
order: each visited key came with exactly one of them. What one turn does to the trail is said first, what
a whole run leaves behind follows by induction on the run. -/
namespace FlowAtlas

namespace Trail

theorem edgesConnect (edge : Edge) (t : Trail) : t.edges <+: (t.connect edge).edges := by
  unfold connect
  split
  · exact List.prefix_rfl
  · exact List.prefix_append _ _

theorem memConnect {x edge : Edge} {t : Trail} : x ∈ (t.connect edge).edges ↔ x ∈ t.edges ∨ x = edge := by
  unfold connect
  split
  · constructor
    · exact Or.inl
    · rintro (old | rfl) <;> assumption
  · simp

theorem edgesVisit (key : Key) (t : Trail) : (t.visit key).edges = t.edges := by
  unfold visit
  split <;> rfl

theorem edgesEnter (t : Trigger) (trail : Trail) : trail.edges <+: (trail.enter t).edges := by
  simpa [enter, edgesVisit] using edgesConnect t.edge (trail.visit t.target)

theorem memEnter {x : Edge} {t : Trigger} {trail : Trail} :
    x ∈ (trail.enter t).edges ↔ x ∈ trail.edges ∨ x = t.edge := by
  simp [enter, memConnect, edgesVisit]

theorem edgesRevisit (t : Trigger) (trail : Trail) : trail.edges <+: (trail.revisit t).edges := by
  unfold revisit
  split
  · exact edgesConnect t.edge trail
  · exact List.prefix_rfl

theorem memRevisit {x : Edge} {t : Trigger} {trail : Trail} :
    x ∈ (trail.revisit t).edges ↔ x ∈ trail.edges ∨ (t.closes = true ∧ x = t.edge) := by
  unfold revisit
  split <;> rename_i closes <;> simp [closes, memConnect]

def Grounded (t : Trail) : Prop := ∀ x ∈ t.edges, x.target ∈ t.nodes

theorem startGrounded (root : Key) : (start root).Grounded := by
  simp [Grounded, start]

theorem revisitGrounded {t : Trigger} {trail : Trail} (visited : t.target ∈ trail.nodes)
    (grounded : trail.Grounded) : (trail.revisit t).Grounded := by
  intro x mem
  rw [nodesRevisit]
  rcases memRevisit.mp mem with old | ⟨_, rfl⟩
  · exact grounded x old
  · exact visited

theorem enterGrounded {t : Trigger} {trail : Trail} (fresh : t.target ∉ trail.nodes)
    (grounded : trail.Grounded) : (trail.enter t).Grounded := by
  intro x mem
  rw [nodesEnter fresh, List.mem_append]
  rcases memEnter.mp mem with old | rfl
  · exact Or.inl (grounded x old)
  · exact Or.inr (by simp [Trigger.edge])

theorem enterDiscovers {t : Trigger} {trail : Trail} (fresh : t.target ∉ trail.nodes)
    (grounded : trail.Grounded) :
    (trail.enter t).edges.find? (fun x => x.target = t.target) = some t.edge := by
  have none : trail.edges.find? (fun x => x.target = t.target) = none := by
    rw [List.find?_eq_none]
    intro x mem same
    exact fresh (by simpa [← of_decide_eq_true same] using grounded x mem)
  have new : t.edge ∉ trail.edges := fun mem => fresh (grounded t.edge mem)
  have edges : (trail.enter t).edges = trail.edges ++ [t.edge] := by
    simp [enter, connect, edgesVisit, new]
  simp [edges, none, Trigger.edge]

end Trail

inductive Run (keys : List Key) (ix : Index) : List Trigger → Trail → List Trigger → Trail → Prop
  | done (trail) : Run keys ix [] trail [] trail
  | again {t rest trail entered last} (visited : t.target ∈ trail.nodes)
      (next : Run keys ix rest (trail.revisit t) entered last) : Run keys ix (t :: rest) trail entered last
  | enter {t rest trail entered last} (fresh : t.target ∉ trail.nodes) (known : t.target ∈ keys)
      (next : Run keys ix (t.next ix ++ rest) (trail.enter t) entered last) :
      Run keys ix (t :: rest) trail (t :: entered) last
  | skip {t rest trail entered last} (fresh : t.target ∉ trail.nodes) (unknown : t.target ∉ keys)
      (next : Run keys ix rest (trail.skip ⟨t.target.typeName, t.source⟩) entered last) :
      Run keys ix (t :: rest) trail entered last

theorem walkRun (keys : List Key) (ix : Index) (agenda : List Trigger) (trail : Trail) :
    ∃ entered, Run keys ix agenda trail entered (walk keys ix agenda trail) := by
  fun_induction walk keys ix agenda trail with
  | case1 trail => exact ⟨[], .done trail⟩
  | case2 t rest trail visited ih =>
    obtain ⟨entered, run⟩ := ih
    exact ⟨entered, .again visited run⟩
  | case3 t rest trail fresh known ih =>
    obtain ⟨entered, run⟩ := ih
    exact ⟨t :: entered, .enter fresh known run⟩
  | case4 t rest trail fresh unknown ih =>
    obtain ⟨entered, run⟩ := ih
    exact ⟨entered, .skip fresh unknown run⟩

theorem walkAppend (keys : List Key) (ix : Index) (first second : List Trigger) (trail : Trail) :
    walk keys ix (first ++ second) trail = walk keys ix second (walk keys ix first trail) := by
  fun_induction walk keys ix first trail with
  | case1 trail => rfl
  | case2 t rest trail visited ih => rw [List.cons_append, walk, dif_pos visited, ih]
  | case3 t rest trail fresh known ih =>
    rw [List.cons_append, walk, dif_neg fresh, dif_pos known, ← List.append_assoc, ih]
  | case4 t rest trail fresh unknown ih =>
    rw [List.cons_append, walk, dif_neg fresh, dif_neg unknown, ih]

section

variable {keys : List Key} {ix : Index} {agenda entered : List Trigger} {trail last : Trail}

theorem runNodes (run : Run keys ix agenda trail entered last) :
    last.nodes = trail.nodes ++ entered.map (·.target) := by
  induction run with
  | done trail => simp
  | again visited next ih => simpa using ih
  | enter fresh known next ih => simpa [Trail.nodesEnter fresh] using ih
  | skip fresh unknown next ih => simpa using ih

theorem runNodup (run : Run keys ix agenda trail entered last) (distinct : trail.nodes.Nodup) :
    last.nodes.Nodup := by
  induction run with
  | done trail => exact distinct
  | again visited next ih => exact ih (by simpa using distinct)
  | enter fresh known next ih =>
    apply ih
    rw [Trail.nodesEnter fresh, ← List.concat_eq_append]
    exact distinct.concat fresh
  | skip fresh unknown next ih => exact ih (by simpa using distinct)

theorem runKnown (run : Run keys ix agenda trail entered last) : ∀ d ∈ entered, d.target ∈ keys := by
  induction run with
  | done trail => simp
  | again visited next ih => exact ih
  | enter fresh known next ih => simpa using ⟨known, ih⟩
  | skip fresh unknown next ih => exact ih

theorem runKeepsEdges (run : Run keys ix agenda trail entered last) : trail.edges <+: last.edges := by
  induction run with
  | done trail => exact List.prefix_rfl
  | again visited next ih => exact (Trail.edgesRevisit _ _).trans ih
  | enter fresh known next ih => exact (Trail.edgesEnter _ _).trans ih
  | skip fresh unknown next ih => exact ih

theorem runGrounded (run : Run keys ix agenda trail entered last) (grounded : trail.Grounded) :
    last.Grounded := by
  induction run with
  | done trail => exact grounded
  | again visited next ih => exact ih (Trail.revisitGrounded visited grounded)
  | enter fresh known next ih => exact ih (Trail.enterGrounded fresh grounded)
  | skip fresh unknown next ih => exact ih grounded

theorem runDiscovers (run : Run keys ix agenda trail entered last) (grounded : trail.Grounded) :
    ∀ d ∈ entered, last.edges.find? (fun x => x.target = d.target) = some d.edge := by
  induction run with
  | done trail => simp
  | again visited next ih => exact ih (Trail.revisitGrounded visited grounded)
  | enter fresh known next ih =>
    intro d mem
    rcases List.mem_cons.mp mem with rfl | later
    · exact (runKeepsEdges next).find?_eq_some (Trail.enterDiscovers fresh grounded)
    · exact ih (Trail.enterGrounded fresh grounded) d later
  | skip fresh unknown next ih => exact ih grounded

theorem runFresh (run : Run keys ix agenda trail entered last) : ∀ d ∈ entered, d.target ∉ trail.nodes := by
  induction run with
  | done trail => simp
  | again visited next ih => simpa using ih
  | enter fresh known next ih =>
    intro d mem
    rcases List.mem_cons.mp mem with rfl | later
    · exact fresh
    · have absent := ih d later
      rw [Trail.nodesEnter fresh, List.mem_append] at absent
      exact fun old => absent (Or.inl old)
  | skip fresh unknown next ih => simpa using ih

/- An entered trigger is the first one with its target: in the agenda, or among those that an earlier
entered trigger sets off. -/
theorem runOrigin (run : Run keys ix agenda trail entered last) {before after : List Trigger} {d : Trigger}
    (split : entered = before ++ d :: after) :
    agenda.find? (fun t => t.target = d.target) = some d ∨
      ∃ p ∈ before, (p.next ix).find? (fun t => t.target = d.target) = some d := by
  induction run generalizing before with
  | done trail => simp at split
  | @again t rest trail entered last visited next ih =>
    have mem : d ∈ entered := by simp [split]
    have other : t.target ≠ d.target := fun same =>
      runFresh next d mem (by simpa [← same] using visited)
    simpa [other] using ih split
  | @enter t rest trail entered last fresh known next ih =>
    cases before with
    | nil =>
      obtain ⟨rfl, rfl⟩ := List.cons.inj split
      simp
    | cons head before =>
      obtain ⟨rfl, later⟩ := List.cons.inj split
      have mem : d ∈ entered := by simp [later]
      have other : t.target ≠ d.target := by
        intro same
        apply runFresh next d mem
        simp [Trail.nodesEnter fresh, same]
      rcases ih later with found | ⟨p, earlier, found⟩
      · rw [List.find?_append, Option.or_eq_some_iff] at found
        rcases found with inside | ⟨_, outside⟩
        · exact Or.inr ⟨t, by simp, inside⟩
        · exact Or.inl (by simpa [other] using outside)
      · exact Or.inr ⟨p, List.mem_cons_of_mem _ earlier, found⟩
  | @skip t rest trail entered last fresh unknown next ih =>
    have mem : d ∈ entered := by simp [split]
    have other : t.target ≠ d.target := fun same => unknown (same ▸ runKnown next d mem)
    simpa [other] using ih split

structure Settled (keys : List Key) (t : Trigger) (trail : Trail) : Prop where
  visited : t.target ∈ keys → t.target ∈ trail.nodes
  closed : t.target ∈ trail.nodes → t.closes = true → t.edge ∈ trail.edges

theorem runSettles (run : Run keys ix agenda trail entered last) :
    (∀ t ∈ agenda, Settled keys t last) ∧ ∀ d ∈ entered, ∀ t ∈ d.next ix, Settled keys t last := by
  induction run with
  | done trail => simp
  | @again t rest trail entered last visited next ih =>
    refine ⟨List.forall_mem_cons.mpr ⟨⟨fun _ => ?_, fun _ closes => ?_⟩, ih.1⟩, ih.2⟩
    · rw [runNodes next]
      simp [visited]
    · exact (runKeepsEdges next).subset (Trail.memRevisit.mpr (Or.inr ⟨closes, rfl⟩))
  | @enter t rest trail entered last fresh known next ih =>
    obtain ⟨pending, settled⟩ := ih
    rw [List.forall_mem_append] at pending
    refine ⟨List.forall_mem_cons.mpr ⟨⟨fun _ => ?_, fun _ _ => ?_⟩, pending.2⟩, ?_⟩
    · rw [runNodes next]
      simp [Trail.nodesEnter fresh]
    · exact (runKeepsEdges next).subset (Trail.memEnter.mpr (Or.inr rfl))
    · exact List.forall_mem_cons.mpr ⟨pending.1, settled⟩
  | @skip t rest trail entered last fresh unknown next ih =>
    refine ⟨List.forall_mem_cons.mpr ⟨⟨fun known => absurd known unknown, fun reached _ => ?_⟩, ih.1⟩, ih.2⟩
    rw [runNodes next, List.mem_append] at reached
    rcases reached with old | new
    · exact absurd old fresh
    · obtain ⟨d, mem, same⟩ := List.mem_map.mp new
      exact absurd (same ▸ runKnown next d mem) unknown

theorem runEdges (run : Run keys ix agenda trail entered last) : ∀ x ∈ last.edges,
    x ∈ trail.edges ∨ (∃ d ∈ entered, x = d.edge) ∨
      ∃ t, (t ∈ agenda ∨ ∃ d ∈ entered, t ∈ d.next ix) ∧ t.closes = true ∧ x = t.edge := by
  induction run with
  | done trail => exact fun x mem => Or.inl mem
  | @again t rest trail entered last visited next ih =>
    intro x mem
    rcases ih x mem with old | discovers | ⟨u, source, closes, same⟩
    · rcases Trail.memRevisit.mp old with old | ⟨closes, same⟩
      · exact Or.inl old
      · exact Or.inr (Or.inr ⟨t, Or.inl (by simp), closes, same⟩)
    · exact Or.inr (Or.inl discovers)
    · exact Or.inr (Or.inr ⟨u, source.imp_left (List.mem_cons_of_mem t), closes, same⟩)
  | @enter t rest trail entered last fresh known next ih =>
    intro x mem
    rcases ih x mem with old | ⟨d, later, same⟩ | ⟨u, source, closes, same⟩
    · rcases Trail.memEnter.mp old with old | same
      · exact Or.inl old
      · exact Or.inr (Or.inl ⟨t, by simp, same⟩)
    · exact Or.inr (Or.inl ⟨d, List.mem_cons_of_mem t later, same⟩)
    · refine Or.inr (Or.inr ⟨u, ?_, closes, same⟩)
      rcases source with pending | ⟨d, later, inside⟩
      · rcases List.mem_append.mp pending with inside | outside
        · exact Or.inr ⟨t, by simp, inside⟩
        · exact Or.inl (List.mem_cons_of_mem t outside)
      · exact Or.inr ⟨d, List.mem_cons_of_mem t later, inside⟩
  | @skip t rest trail entered last fresh unknown next ih =>
    intro x mem
    rcases ih x mem with old | discovers | ⟨u, source, closes, same⟩
    · exact Or.inl old
    · exact Or.inr (Or.inl discovers)
    · exact Or.inr (Or.inr ⟨u, source.imp_left (List.mem_cons_of_mem t), closes, same⟩)

end

end FlowAtlas
