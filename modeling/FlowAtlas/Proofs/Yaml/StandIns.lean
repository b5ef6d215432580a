import FlowAtlas.Proofs.Yaml.Merging
import Mathlib.Data.Finset.Card
import Mathlib.Logic.Relation
/-! Mappings that stand for a scalar, which may be a mapping again. Looking for the scalar has an end unless that
leads back to where it has been. -/
namespace FlowAtlas.Yaml

open Node (numbered)
open Relation (TransGen)

/-- The mapping `id` has an equals sign for a key, and `part` stands there. -/
def Stands (nodes : Array Node) (id part : Nat) : Prop :=
  ∃ key, (key, part) ∈ (numbered nodes id).content.pairs ∧ (numbered nodes key).tag = .value

variable {nodes s t : Array Node}

theorem standInStands {id part : Nat} (found : Build.standIn? nodes id = some part) : Stands nodes id part := by
  obtain ⟨⟨key, value⟩, first, rfl⟩ := Option.map_eq_some_iff.mp found
  exact ⟨key, List.mem_of_find?_eq_some first, by simpa using List.find?_some first⟩

theorem standsBound {id part : Nat} (stands : Stands nodes id part) : id < nodes.size := by
  obtain ⟨key, mem, _⟩ := stands
  exact numberedBound fun none => by
    rw [none] at mem
    cases mem

/- Flattening makes no mapping stand for anything new: what it brings in has no equals sign for a key. -/
theorem Merging.Flattened.stands {id part : Nat} (flattened : Flattened s t) (stands : Stands t id part) :
    Stands s id part := by
  obtain ⟨key, mem, value⟩ := stands
  rcases flattened.pairs id with same | flat
  · refine ⟨key, same ▸ mem, ?_⟩
    by_contra other
    exact flattened.notValue other value
  · exact absurd value (flat _ mem).2

def Loops (nodes : Array Node) : Prop := ∃ id, TransGen (Stands nodes) id id

/-- What stands for a node after so many steps. -/
def standing (nodes : Array Node) (id : Nat) : Nat → Option Nat
  | 0 => some id
  | n + 1 => (standing nodes id n).bind (Build.standIn? nodes)

section

variable {id part : Nat}

theorem standingAdd {i : Nat} (reached : standing nodes id i = some part) (n : Nat) :
    standing nodes id (i + n) = standing nodes part n := by
  induction n with
  | zero => exact reached
  | succ n ih => rw [← Nat.add_assoc, standing, ih, standing]

theorem standingEnds (none : Build.standIn? nodes id = none) (n : Nat) : standing nodes id (n + 1) = .none := by
  induction n with
  | zero => exact none
  | succ n ih => rw [standing, ih, Option.bind_none]

theorem standingBefore {i n : Nat} (before : i ≤ n) (goes : (standing nodes id n).isSome) :
    (standing nodes id i).isSome := by
  induction n with
  | zero => rwa [Nat.le_zero.mp before]
  | succ n ih =>
    rcases Nat.lt_or_eq_of_le before with less | rfl
    · refine ih (Nat.le_of_lt_succ less) ?_
      cases step : standing nodes id n with
      | none => simp [standing, step] at goes
      | some part => rfl
    · exact goes

theorem standingStands {n : Nat} (reached : standing nodes id (n + 1) = some part) :
    TransGen (Stands nodes) id part := by
  induction n generalizing part with
  | zero => exact .single (standInStands reached)
  | succ n ih =>
    rw [standing, Option.bind_eq_some_iff] at reached
    obtain ⟨mid, before, last⟩ := reached
    exact (ih before).tail (standInStands last)

/- There are more steps than mappings, so that two of them come to the same one. -/
theorem standingRepeats (goes : (standing nodes id (nodes.size + 1)).isSome) :
    ∃ i n part, i + (n + 1) ≤ nodes.size ∧ standing nodes id i = some part ∧
      standing nodes part (n + 1) = some part := by
  have each (i : Nat) (within : i ≤ nodes.size) : ∃ part < nodes.size, standing nodes id i = some part := by
    have next := standingBefore (Nat.succ_le_succ within) goes
    cases step : standing nodes id i with
    | none => simp [standing, step] at next
    | some part =>
      obtain ⟨after, found⟩ := Option.isSome_iff_exists.mp next
      rw [standing, step] at found
      exact ⟨part, standsBound (standInStands found), rfl⟩
  have held (i : Nat) (mem : i ∈ Finset.range (nodes.size + 1)) :
      (standing nodes id i).getD 0 ∈ Finset.range nodes.size := by
    obtain ⟨part, bound, step⟩ := each i (Nat.le_of_lt_succ (Finset.mem_range.mp mem))
    simpa [step] using bound
  obtain ⟨i, first, j, second, apart, same⟩ :=
    Finset.exists_ne_map_eq_of_card_lt_of_maps_to (by simp) held
  wlog before : i < j generalizing i j
  · exact this j second i first apart.symm same.symm (by omega)
  obtain ⟨part, _, reached⟩ := each i (Nat.le_of_lt_succ (Finset.mem_range.mp first))
  obtain ⟨other, _, again⟩ := each j (Nat.le_of_lt_succ (Finset.mem_range.mp second))
  obtain ⟨n, rfl⟩ := Nat.exists_eq_add_of_lt before
  have twice : part = other := by simpa [reached, again] using same
  refine ⟨i, n, part, Nat.le_of_lt_succ (Finset.mem_range.mp second), reached, ?_⟩
  rw [← standingAdd reached, ← Nat.add_assoc, again, twice]

/-- Whoever goes on for more steps than there are mappings goes on for ever. -/
theorem standingGoesOn (goes : (standing nodes id (nodes.size + 1)).isSome) (n : Nat) :
    (standing nodes id n).isSome := by
  obtain ⟨i, round, part, within, reached, again⟩ := standingRepeats goes
  induction n using Nat.strongRecOn with
  | ind n ih =>
    by_cases few : n ≤ nodes.size + 1
    · exact standingBefore few goes
    · obtain ⟨rest, rfl⟩ : ∃ rest, n = i + ((round + 1) + rest) := ⟨n - (i + (round + 1)), by omega⟩
      rw [standingAdd reached, standingAdd again, ← standingAdd reached]
      exact ih (i + rest) (by omega)

end

namespace Build

variable {b : Building} {id : Nat}

theorem scalarTextEnds (fuel id : Nat) :
    Ends (fun fault => fault = .scalar .endless ↔ (standing b.nodes id fuel).isSome) (scalarText fuel id) b
      fun _ c => c = b ∧ standing b.nodes id fuel = none := by
  induction fuel generalizing id with
  | zero => exact iff_of_true rfl rfl
  | succ fuel ih =>
    simp only [scalarText, nodeOfThen, Ends.getThen]
    split
    · rename_i text _ content
      exact ⟨rfl, standingEnds (by simp [standIn?, content, Content.pairs]) fuel⟩
    · rename_i part found _
      rw [Nat.add_comm, standingAdd (i := 1) found]
      exact ih part
    · rename_i none _
      exact iff_of_false (by simp) (by simp [standingEnds none fuel])

theorem scalarTextEndless {fuel : Nat} :
    scalarText fuel id b = .error (.scalar .endless) ↔ (standing b.nodes id fuel).isSome := by
  have ends := scalarTextEnds (b := b) fuel id
  unfold Ends at ends
  split at ends
  · rename_i taken
    simp [taken, ends.2]
  · rename_i taken
    simpa [taken] using ends

/-- The fuel is enough, unless no fuel is. -/
theorem textOfEndless :
    textOf id b = .error (.scalar .endless) ↔ ∀ fuel, scalarText fuel id b = .error (.scalar .endless) := by
  have run : textOf id b = scalarText (b.nodes.size + 1) id b := rfl
  rw [run]
  refine ⟨fun endless fuel => ?_, fun endless => endless _⟩
  exact scalarTextEndless.mpr (standingGoesOn (scalarTextEndless.mp endless) fuel)

theorem textOfEnds (id : Nat) :
    Ends (fun fault => fault = .scalar .endless → Loops b.nodes) (textOf id) b fun _ c => c = b := by
  refine ((scalarTextEnds (b.nodes.size + 1) id).allow fun fault same endless => ?_).weaken fun _ _ ends => ends.1
  obtain ⟨i, n, part, _, _, again⟩ := standingRepeats (same.mp endless)
  exact ⟨part, standingStands again⟩

end Build

end FlowAtlas.Yaml
