import FlowAtlas.Proofs.Chain.Reentry
import FlowAtlas.Proofs.Chain.Repeats
import Mathlib.Data.List.Forall2
/-! The chains of single commands: one for each pair of a sender and a command that some relationship or handler of
integration events gives, and nothing but that command leaves its root. -/
namespace FlowAtlas

def Relationship.pair (r : Relationship) : String × String := (r.sourceType, r.targetType)

def Dispatch.pair (d : Dispatch) : String × String := (d.root.typeName, d.command)

namespace Inventory

def sent (inv : Inventory) : List Relationship := inv.relationships.filter (·.isOf .methodToCommand)

def sentBySender (inv : Inventory) : List Relationship :=
  (inv.sent.map (·.sourceType)).eraseDups.flatMap fun sender => inv.sent.filter (·.sourceType = sender)

def sentPairs (inv : Inventory) : List (String × String) := (inv.sentBySender.map (·.pair)).eraseDups

def handledPairs (inv : Inventory) : List (String × String) :=
  inv.integrationEventHandlers.flatMap fun h => h.commands.map fun c => (h.fullName, c)

def commandPairs (inv : Inventory) : List (String × String) :=
  inv.sentPairs ++ (inv.handledPairs.filter (· ∉ inv.sentPairs)).eraseDups

def senderKey (inv : Inventory) (pair : String × String) : Key :=
  ⟨pair.1, ((inv.sent.find? (·.pair = pair)).map (·.sourceMethod)).getD "Handle"⟩

end Inventory

structure FollowsOnly (inv : Inventory) (root : Key) (command : String) (c : Chain) : Prop where
  anchored : c.root = root
  leaving : ∀ x, x ∈ c.edges ∧ x.source = root ↔
    inv.index.isKnown command = true ∧ (⟨command, ""⟩ : Key) ≠ root ∧ x = ⟨root, ⟨command, ""⟩, "sends"⟩
  alone : ¬ (inv.index.isKnown command = true ∧ (⟨command, ""⟩ : Key) ≠ root) → c.nodes = [root] ∧ c.edges = []

section

variable {inv : Inventory}

theorem dispatchEntered {d : Dispatch} {entered : List Trigger} {c : Chain} (u : Unfolds inv d.root [d.trigger] entered c)
    (mem : d.trigger ∈ entered) : inv.index.isKnown d.command = true ∧ (⟨d.command, ""⟩ : Key) ≠ d.root :=
  ⟨Inventory.keyKnown (u.known d.trigger mem), enteredNotRoot u mem⟩

theorem dispatchFirst {d : Dispatch} {entered : List Trigger} {c : Chain} (u : Unfolds inv d.root [d.trigger] entered c)
    {t : Trigger} (mem : t ∈ entered) : d.trigger ∈ entered := by
  revert t
  apply enteredInduction u (motive := fun _ => d.trigger ∈ entered)
  · intro t entry start
    rwa [← List.mem_singleton.mp start]
  · intro p _ first t _ _
    exact first

theorem chainOfFollows (inv : Inventory) (d : Dispatch) :
    FollowsOnly inv d.root d.command (inv.chainOf d).toChain := by
  obtain ⟨entered, u⟩ := chainOfUnfolds inv d
  constructor
  case anchored => exact u.anchored
  case leaving =>
    intro x
    constructor
    · rintro ⟨drawn, source⟩
      obtain ⟨t, entry, start, rfl⟩ := rootEdge u drawn source
      obtain rfl := List.mem_singleton.mp start
      obtain ⟨known, other⟩ := dispatchEntered u entry
      exact ⟨known, other, rfl⟩
    · rintro ⟨known, other, rfl⟩
      have reached : (⟨d.command, ""⟩ : Key) ∈ (inv.chainOf d).nodes :=
        u.visited (t := d.trigger) (Or.inl (List.mem_singleton.mpr rfl)) (Inventory.typeListed known)
      obtain ⟨t, entry, _⟩ := nodeEntered u reached other
      exact ⟨List.mem_of_find?_eq_some (u.discovers _ (dispatchFirst u entry)), rfl⟩
  case alone =>
    intro none
    have idle : entered = [] := by
      rw [List.eq_nil_iff_forall_not_mem]
      intro t entry
      exact none (dispatchEntered u (dispatchFirst u entry))
    have nodes : (inv.chainOf d).nodes = [d.root] := by rw [u.nodes, idle, List.map_nil]
    refine ⟨nodes, List.eq_nil_iff_forall_not_mem.mpr fun x drawn => ?_⟩
    rcases u.drawn x drawn with ⟨t, entry, _⟩ | ⟨t, start | ⟨p, entry, _⟩, closes, _⟩
    · simp [idle] at entry
    · rw [u.rooted t start] at closes
      cases closes
    · simp [idle] at entry

end

namespace Inventory

variable (inv : Inventory)

def sentDispatch (r : Relationship) : Dispatch :=
  ⟨⟨r.sourceType, r.sourceMethod⟩, r.targetType, simpleName r.sourceType ++ " -> " ++ simpleName r.targetType⟩

def handledDispatches : List Dispatch :=
  inv.integrationEventHandlers.flatMap fun h =>
    h.commands.map fun c => ⟨⟨h.fullName, entryMethod⟩, c, h.name ++ " -> " ++ simpleName c⟩

theorem dispatchesGathered : inv.dispatches =
    Selection.firsts Dispatch.pair (inv.sentBySender.map sentDispatch ++ inv.handledDispatches) := by
  have sent : (inv.sendings.flatMap fun entry => entry.2.map fun r =>
      (⟨⟨entry.1, r.sourceMethod⟩, r.targetType, simpleName entry.1 ++ " -> " ++ simpleName r.targetType⟩ : Dispatch)) =
      inv.sentBySender.map sentDispatch := by
    rw [sendingsGathered, Selection.firstsErases, List.flatMap_map, sentBySender, List.map_flatMap]
    apply List.flatMap_congr
    intro sender _
    apply List.map_congr_left
    intro r mem
    obtain rfl : r.sourceType = sender := of_decide_eq_true (List.mem_filter.mp mem).2
    rfl
  rw [← sent]
  rfl

theorem handledPair : inv.handledDispatches.map (·.pair) = inv.handledPairs := by
  rw [handledDispatches, handledPairs, List.map_flatMap]
  apply List.flatMap_congr
  intro h _
  rw [List.map_map]
  rfl

theorem dispatchPairs : inv.dispatches.map (·.pair) = inv.commandPairs := by
  have sent : (inv.sentBySender.map sentDispatch).map (·.pair) = inv.sentBySender.map (·.pair) := by
    rw [List.map_map]
    rfl
  have equality : (instBEqOfDecidableEq : BEq (String × String)) = instBEqProd := lawful_beq_subsingleton _ _
  have others : inv.handledPairs.removeAll (inv.sentBySender.map (·.pair)) =
      inv.handledPairs.filter (· ∉ inv.sentPairs) := by
    apply List.filter_congr
    intro pair _
    rw [Bool.eq_iff_iff]
    simp [sentPairs]
  rw [dispatchesGathered, Selection.firstsMarks, List.map_append, sent, handledPair, equality,
    List.eraseDups_append, others]
  rfl

theorem commandPairsNodup : inv.commandPairs.Nodup := by
  rw [← dispatchPairs, dispatchesGathered]
  exact Selection.addAllNodup _ List.nodup_nil

theorem memSentBySender {r : Relationship} : r ∈ inv.sentBySender ↔ r ∈ inv.sent := by
  rw [sentBySender, List.mem_flatMap]
  constructor
  · rintro ⟨sender, _, mem⟩
    exact (List.mem_filter.mp mem).1
  · intro mem
    refine ⟨r.sourceType, List.mem_eraseDups.mpr (List.mem_map_of_mem mem), ?_⟩
    exact List.mem_filter.mpr ⟨mem, decide_eq_true rfl⟩

theorem memSentPairs {pair : String × String} : pair ∈ inv.sentPairs ↔
    ∃ r ∈ inv.relationships, r.isOf .methodToCommand = true ∧ pair = (r.sourceType, r.targetType) := by
  rw [sentPairs, List.mem_eraseDups, List.mem_map]
  constructor
  · rintro ⟨r, mem, rfl⟩
    obtain ⟨listed, kind⟩ := List.mem_filter.mp (inv.memSentBySender.mp mem)
    exact ⟨r, listed, kind, rfl⟩
  · rintro ⟨r, listed, kind, rfl⟩
    exact ⟨r, inv.memSentBySender.mpr (List.mem_filter.mpr ⟨listed, kind⟩), rfl⟩

theorem memHandledPairs {pair : String × String} : pair ∈ inv.handledPairs ↔
    ∃ h ∈ inv.integrationEventHandlers, ∃ c ∈ h.commands, pair = (h.fullName, c) := by
  rw [handledPairs, List.mem_flatMap]
  apply exists_congr
  intro h
  rw [List.mem_map]
  simp only [eq_comm]

theorem memCommandPairs {pair : String × String} : pair ∈ inv.commandPairs ↔
    pair ∈ inv.sentPairs ∨ pair ∈ inv.handledPairs := by
  rw [commandPairs, List.mem_append, List.mem_eraseDups, List.mem_filter]
  by_cases sent : pair ∈ inv.sentPairs <;> simp [sent]

theorem sentFirstOf (pair : String × String) (sender : String) :
    (inv.sent.filter (·.sourceType = sender)).find? (·.pair = pair) =
      if sender = pair.1 then inv.sent.find? (·.pair = pair) else none := by
  rw [List.find?_filter]
  split
  · rename_i same
    congr 1
    funext r
    rw [decide_eq_decide, decide_eq_true_eq, decide_eq_true_eq, same]
    exact and_iff_right_of_imp fun given => congrArg Prod.fst given
  · rename_i other
    rw [List.find?_eq_none]
    intro r _ both
    obtain ⟨source, given⟩ := of_decide_eq_true both
    rw [decide_eq_true_eq] at source given
    exact other (source.symm.trans (congrArg Prod.fst given))

theorem sentFirst (pair : String × String) :
    inv.sentBySender.find? (·.pair = pair) = inv.sent.find? (·.pair = pair) := by
  rw [sentBySender, List.find?_flatMap]
  simp only [sentFirstOf]
  cases found : inv.sent.find? (·.pair = pair) with
  | none => simp
  | some r =>
    have given : r.pair = pair := by simpa using List.find?_some found
    have sender : pair.1 ∈ (inv.sent.map (·.sourceType)).eraseDups := by
      rw [List.mem_eraseDups, ← given]
      exact List.mem_map_of_mem (List.mem_of_find?_eq_some found)
    cases grouped : (inv.sent.map (·.sourceType)).eraseDups.findSome? (fun s => if s = pair.1 then some r else none) with
    | none => simpa using List.findSome?_eq_none_iff.mp grouped pair.1 sender
    | some other =>
      obtain ⟨s, _, same⟩ := List.exists_of_findSome?_eq_some grouped
      split at same
      · exact same.symm
      · cases same

theorem dispatchRoot {d : Dispatch} (mem : d ∈ inv.dispatches) : d.root = inv.senderKey d.pair := by
  rw [dispatchesGathered] at mem
  have first := Selection.firstsFirst mem
  rw [List.find?_append, Option.or_eq_some_iff, List.find?_map] at first
  have by_pair : (fun e : Dispatch => decide (e.pair = d.pair)) ∘ sentDispatch = fun r => decide (r.pair = d.pair) := rfl
  rw [by_pair, sentFirst] at first
  rcases first with sent | ⟨unsent, handled⟩
  · obtain ⟨r, found, rfl⟩ := Option.map_eq_some_iff.mp sent
    rw [senderKey, found]
    rfl
  · obtain ⟨h, _, within⟩ := List.mem_flatMap.mp (List.mem_of_find?_eq_some handled)
    obtain ⟨c, _, rfl⟩ := List.mem_map.mp within
    rw [senderKey, Option.map_eq_none_iff.mp unsent]
    rfl

end Inventory

theorem commandChainsByPair (inv : Inventory) :
    inv.commandPairs.Nodup ∧
      (∀ pair, pair ∈ inv.commandPairs ↔
        (∃ r ∈ inv.relationships, r.isOf .methodToCommand = true ∧ pair = (r.sourceType, r.targetType)) ∨
          ∃ h ∈ inv.integrationEventHandlers, ∃ c ∈ h.commands, pair = (h.fullName, c)) ∧
      List.Forall₂ (fun pair c => FollowsOnly inv (inv.senderKey pair) pair.2 c.toChain)
        inv.commandPairs inv.commandChains := by
  refine ⟨inv.commandPairsNodup, fun pair => ?_, ?_⟩
  · rw [inv.memCommandPairs, inv.memSentPairs, inv.memHandledPairs]
  · rw [← inv.dispatchPairs, Inventory.commandChains, List.forall₂_map_left_iff, List.forall₂_map_right_iff,
      List.forall₂_same]
    intro d mem
    rw [← inv.dispatchRoot mem]
    exact chainOfFollows inv d

end FlowAtlas
