import FlowAtlas.Proofs.Chain.Reach
import FlowAtlas.Proofs.Chain.Run
import Mathlib.Data.Finset.Card
import Mathlib.Data.Finset.Image
/-! How deep the walk goes when each key is expanded in a call of its own. A call is open for every key on the
way down, all of them distinct and all among the keys of the inventory; so their number bounds the depth, and
with that much room the calls end and leave the trail of the walk. -/
namespace FlowAtlas

/-- The walk as calls within calls, at most `limit` of them open at once, with the keys that were expanded.
Every trigger takes room for its call, also where its target turns out to be visited or unknown, and a converter
takes room of its own inside that of its event. -/
def descend (keys : List Key) (ix : Index) : Nat → List Trigger → Trail → Option (List Key × Trail)
  | _, [], trail => some ([], trail)
  | 0, _ :: _, _ => none
  | limit + 1, t :: rest, trail =>
    if t.target ∈ trail.nodes then descend keys ix (limit + 1) rest (trail.revisit t)
    else if t.target ∈ keys then do
      let (inner, trail) ← descend keys ix limit (t.next ix) (trail.enter t)
      let (later, trail) ← descend keys ix (limit + 1) rest trail
      some (t.target :: inner ++ later, trail)
    else descend keys ix (limit + 1) rest (trail.skip ⟨t.target.typeName, t.source⟩)
termination_by limit agenda => (limit, agenda.length)

theorem freshShrinks (keys : List Key) {before after : Trail} (kept : before.nodes ⊆ after.nodes) :
    fresh keys after ≤ fresh keys before := by
  apply List.Sublist.length_le
  apply List.monotone_filter_right
  intro k new
  simp only [decide_eq_true_eq] at new ⊢
  exact fun old => new (kept old)

/- Each call that is open has taken one key out of the fresh ones. -/
theorem descendWalk {keys : List Key} {ix : Index} {limit : Nat} (agenda : List Trigger) (trail : Trail)
    (room : fresh keys.dedup trail < limit) :
    ∃ expanded, descend keys ix limit agenda trail = some (expanded, walk keys ix agenda trail) ∧
      (walk keys ix agenda trail).nodes = trail.nodes ++ expanded := by
  induction limit generalizing agenda trail with
  | zero => omega
  | succ limit inside =>
    induction agenda generalizing trail with
    | nil => exact ⟨[], by simp [descend, walk], by simp [walk]⟩
    | cons t rest ih =>
      by_cases visited : t.target ∈ trail.nodes
      · rw [descend, walk, if_pos visited, dif_pos visited]
        have same : fresh keys.dedup (trail.revisit t) = fresh keys.dedup trail := by simp [fresh]
        obtain ⟨expanded, ends, nodes⟩ := ih (trail.revisit t) (same ▸ room)
        exact ⟨expanded, ends, by rw [nodes, Trail.nodesRevisit]⟩
      · by_cases known : t.target ∈ keys
        · rw [descend, walk, if_neg visited, dif_neg visited, if_pos known, dif_pos known, walkAppend]
          have less := freshEnter visited (List.mem_dedup.mpr known)
          obtain ⟨inner, innerEnds, innerNodes⟩ := inside (t.next ix) (trail.enter t) (by omega)
          have kept : (trail.enter t).nodes ⊆ (walk keys ix (t.next ix) (trail.enter t)).nodes := by
            rw [innerNodes]
            exact List.subset_append_left _ _
          have shrinks := freshShrinks keys.dedup kept
          obtain ⟨later, laterEnds, laterNodes⟩ := ih (walk keys ix (t.next ix) (trail.enter t)) (by omega)
          refine ⟨t.target :: inner ++ later, by simp [innerEnds, laterEnds], ?_⟩
          rw [laterNodes, innerNodes, Trail.nodesEnter visited]
          simp
        · rw [descend, walk, if_neg visited, dif_neg visited, if_neg known, dif_neg known]
          exact ih (trail.skip ⟨t.target.typeName, t.source⟩) room

namespace Inventory

def nameCount (inv : Inventory) : Nat := (inv.elements.map (·.fullName)).dedup.length

def methodCount (inv : Inventory) : Nat :=
  ((inv.relationships.filter (·.isOf .commandToAggregateMethod)).map (·.target)).dedup.length

theorem keyCount (inv : Inventory) : inv.keys.dedup.length ≤ inv.nameCount + inv.methodCount := by
  have sub : inv.keys.toFinset ⊆ (inv.elements.map (·.fullName)).toFinset.image (fun name => (⟨name, ""⟩ : Key)) ∪
      ((inv.relationships.filter (·.isOf .commandToAggregateMethod)).map (·.target)).toFinset := by
    intro key mem
    rw [List.mem_toFinset, keys, List.mem_append] at mem
    rw [Finset.mem_union, List.mem_toFinset]
    rcases mem with type | method
    · obtain ⟨e, listed, rfl⟩ := List.mem_map.mp type
      exact Or.inl (Finset.mem_image_of_mem _ (List.mem_toFinset.mpr (List.mem_map_of_mem listed)))
    · exact Or.inr (List.mem_filter.mp method).1
  calc inv.keys.dedup.length
      = inv.keys.toFinset.card := (List.card_toFinset _).symm
    _ ≤ _ := Finset.card_le_card sub
    _ ≤ _ := Finset.card_union_le _ _
    _ ≤ inv.nameCount + inv.methodCount := by
      rw [nameCount, methodCount, ← List.card_toFinset, ← List.card_toFinset]
      exact Nat.add_le_add_right Finset.card_image_le _

def descendFrom (inv : Inventory) (root : Key) : Nat → Option (List Key × Trail)
  | 0 => none
  | limit + 1 => do
    let (expanded, trail) ← descend inv.keys inv.index limit (rootTriggers inv.index root) (.start root)
    some (root :: expanded, trail)

end Inventory

theorem chainNodesBounded (inv : Inventory) (root : Key) :
    (inv.chainFrom root).nodes.Nodup ∧
      (inv.chainFrom root).nodes.length ≤ 1 + inv.nameCount + inv.methodCount := by
  obtain ⟨entered, run⟩ := walkRun inv.keys inv.index (Inventory.rootTriggers inv.index root) (.start root)
  have nodes : (inv.chainFrom root).nodes = root :: entered.map (·.target) := runNodes run
  have distinct : (inv.chainFrom root).nodes.Nodup := runNodup run (by simp [Trail.start])
  refine ⟨distinct, ?_⟩
  have sub : entered.map (·.target) ⊆ inv.keys.dedup := by
    intro key mem
    obtain ⟨d, entry, rfl⟩ := List.mem_map.mp mem
    exact List.mem_dedup.mpr (runKnown run d entry)
  rw [nodes] at distinct ⊢
  have few := ((List.nodup_cons.mp distinct).2.subperm sub).length_le
  have count := inv.keyCount
  rw [List.length_cons]
  omega

theorem nextTarget {inv : Inventory} {d t : Trigger} (mem : t ∈ d.next inv.index) : t.target.method = "" ∨
    ∃ r ∈ inv.relationships, r.isOf .commandToAggregateMethod = true ∧ t.target = r.target := by
  obtain ⟨source, target, role, closes⟩ := d
  cases role <;> simp only [Trigger.next, List.mem_append, List.mem_map, List.mem_singleton] at mem
  case command =>
    obtain ⟨r, out, rfl⟩ := mem
    obtain ⟨listed, kind, _⟩ := Inventory.memOutgoingOf.mp out
    exact Or.inr ⟨r, listed, kind, rfl⟩
  case aggregateMethod => obtain ⟨r, _, rfl⟩ := mem; exact Or.inl rfl
  case domainEvent => rcases mem with ⟨h, _, rfl⟩ | ⟨v, _, rfl⟩ <;> exact Or.inl rfl
  case integrationEvent => obtain ⟨h, _, rfl⟩ := mem; exact Or.inl rfl
  case handler commands => obtain ⟨c, _, rfl⟩ := mem; exact Or.inl rfl
  case converter event => rw [mem]; exact Or.inl rfl

/- For every trigger that a walk can meet, being a key of the walk is being of a known type. -/
theorem guardKnown (inv : Inventory) :
    (∀ name, (⟨name, ""⟩ : Key) ∈ inv.keys ↔ inv.index.isKnown name = true) ∧
      (∀ root, ∀ t ∈ Inventory.rootTriggers inv.index root,
        t.target ∈ inv.keys ↔ inv.index.isKnown t.target.typeName = true) ∧
      ∀ d : Trigger, ∀ t ∈ d.next inv.index, t.target ∈ inv.keys ↔ inv.index.isKnown t.target.typeName = true := by
  have type (name : String) : (⟨name, ""⟩ : Key) ∈ inv.keys ↔ inv.index.isKnown name = true :=
    ⟨Inventory.keyKnown, Inventory.typeListed⟩
  refine ⟨type, ?_, ?_⟩
  · intro root t offered
    obtain ⟨command, rfl, _⟩ := memRootTriggers.mp offered
    exact type command
  · intro d t next
    refine ⟨Inventory.keyKnown, fun known => ?_⟩
    rcases nextTarget next with plain | ⟨r, listed, kind, same⟩
    · have bare : t.target = ⟨t.target.typeName, ""⟩ := congrArg (Key.mk t.target.typeName) plain
      rw [bare]
      exact (type t.target.typeName).mpr known
    · rw [same] at known ⊢
      exact Inventory.methodListed listed kind known

theorem chainBuildingBounded (inv : Inventory) (root : Key) :
    (inv.chainFrom root).nodes.Nodup ∧
      (inv.chainFrom root).nodes.length ≤ 1 + inv.nameCount + inv.methodCount ∧
      ∃ trail, trail.toChain root.simpleName root = inv.chainFrom root ∧
        inv.descendFrom root (2 + inv.nameCount + inv.methodCount) = some ((inv.chainFrom root).nodes, trail) := by
  obtain ⟨distinct, few⟩ := chainNodesBounded inv root
  have room : fresh inv.keys.dedup (.start root) < 1 + inv.nameCount + inv.methodCount := by
    have all : fresh inv.keys.dedup (.start root) ≤ inv.keys.dedup.length := List.length_filter_le _ _
    have count := inv.keyCount
    omega
  obtain ⟨expanded, ends, nodes⟩ := descendWalk (Inventory.rootTriggers inv.index root) (.start root) room
  have all : (inv.chainFrom root).nodes = root :: expanded := nodes
  have limit : 2 + inv.nameCount + inv.methodCount = (1 + inv.nameCount + inv.methodCount) + 1 := by omega
  refine ⟨distinct, few, _, rfl, ?_⟩
  rw [limit, Inventory.descendFrom, ends, all]
  rfl

end FlowAtlas
