import FlowAtlas.Proofs.Yaml.Reading
import FlowAtlas.Proofs.Yaml.Scalars
import FlowAtlas.Proofs.Yaml.StandIns
import FlowAtlas.Yaml.Value
/-! Building the objects of a document comes to an end, unless a mapping stands for the scalar that it holds itself. -/
namespace FlowAtlas.Yaml

open Merging (Flattened)
open Relation (TransGen)

variable {nodes : Array Node}

namespace Build

/-! All steps, from nodes on which nothing has been done but flattening. -/

section

variable {α β : Type}

def Safe (nodes : Array Node) (step : Build α) : Prop :=
  ∀ b : Building, Flattened nodes b.nodes →
    Ends (fun fault => fault = .scalar .endless → Loops nodes) step b fun _ c => Flattened nodes c.nodes

theorem safeThen {step : Build α} {next : α → Build β} (first : Safe nodes step)
    (second : ∀ a, Safe nodes (next a)) : Safe nodes (step >>= next) :=
  fun b flattened => (first b flattened).andThen fun a c kept => second a c kept

theorem safePure (a : α) : Safe nodes (pure a : Build α) := fun _ flattened => flattened

theorem safeGet : Safe nodes (get : Build Building) := fun _ flattened => flattened

theorem safeModify {change : Building → Building} (keeps : ∀ b, (change b).nodes = b.nodes) :
    Safe nodes (modify change : Build Unit) := by
  intro b flattened
  rw [Ends.modifyIff, keeps]
  exact flattened

theorem safeFail (wrong : Wrong) (place : Place) : Safe nodes (fail wrong place : Build α) := fun _ _ => nofun

theorem safeFailAt (task : Task) (start : Place) (wrong : Wrong) (place : Place) :
    Safe nodes (failAt task start wrong place : Build α) := fun _ _ => nofun

theorem safeLoop {γ : Type} {items : List γ} {init : β} {body : γ → β → Build (ForInStep β)}
    (each : ∀ item b, Safe nodes (body item b)) : Safe nodes (forIn items init body) := by
  intro b flattened
  refine Ends.loopOver (I := fun _ _ (c : Building) => Flattened nodes c.nodes) flattened ?_ fun _ _ kept => kept
  intro item rest a c kept
  refine (each item a c kept).weaken fun step d kept => ?_
  cases step <;> exact kept

theorem safeMapM {γ : Type} {items : List γ} {step : γ → Build β} (each : ∀ item, Safe nodes (step item)) :
    Safe nodes (items.mapM step) := by
  induction items with
  | nil => exact safePure []
  | cons item rest ih =>
    rw [List.mapM_cons]
    exact safeThen (each item) fun _ => safeThen ih fun _ => safePure _

theorem safeAnyM {γ : Type} {items : List γ} {test : γ → Build Bool} (each : ∀ item, Safe nodes (test item)) :
    Safe nodes (items.anyM test) := by
  induction items with
  | nil => exact safePure false
  | cons item rest ih =>
    simp only [List.anyM]
    refine safeThen (each item) fun found => ?_
    cases found
    · exact ih
    · exact safePure true

theorem safeTextOf (id : Nat) : Safe nodes (textOf id) := by
  intro b flattened
  refine ((textOfEnds id).allow fun fault loops endless => ?_).weaken fun _ _ same => same ▸ flattened
  obtain ⟨other, path⟩ := loops endless
  exact ⟨other, TransGen.mono (fun _ _ => flattened.stands) _ _ path⟩

theorem safeFlattenAll (id : Nat) : Safe nodes (flattenAll id) := by
  intro b flattened
  refine ((leadsFlattenAll id).allow fun fault other endless => absurd endless other).weaken ?_
  exact fun _ c ⟨more, _⟩ => flattened.trans more

theorem safeNodeOf (id : Nat) : Safe nodes (nodeOf id) := safeThen safeGet fun _ => safePure _

theorem safePairsOf (id : Nat) : Safe nodes (pairsOf id) := safeThen (safeNodeOf id) fun _ => safePure _

theorem safeSetObject (id : Nat) (object : Object) : Safe nodes (setObject id object) := safeModify fun _ => rfl

theorem safeReading {read : String → Except ScalarFault α} (ready : ∀ text, Scalar.Ready (read text)) (id : Nat) :
    Safe nodes (reading read id) := by
  refine safeThen (safeTextOf id) fun text => ?_
  split
  · exact safePure _
  · rename_i fault failed
    intro b _ endless
    cases endless
    exact absurd failed (ready text)

theorem safeBytesOf (id : Nat) : Safe nodes (bytesOf id) := by
  refine safeThen (safeTextOf id) fun text => ?_
  split
  · exact safePure _
  · exact safeThen (safeNodeOf id) fun _ => safeFail _ _

theorem safeTimestampOf (id : Nat) : Safe nodes (timestampOf id) := by
  refine safeThen (safeTextOf id) fun text => safeThen (safeNodeOf id) fun node => ?_
  split
  · exact safeReading Scalar.timestampReady id
  · exact fun _ _ => nofun

theorem safeScalar (id : Nat) : Safe nodes (scalar id) := by
  refine safeThen (safeNodeOf id) fun node => ?_
  split
  · exact safeThen (safeTextOf id) fun _ => safePure _
  · exact safeThen (safeReading Scalar.boolReady id) fun _ => safePure _
  · exact safeThen (safeReading Scalar.intReady id) fun _ => safePure _
  · exact safeThen (safeReading Scalar.floatReady id) fun _ => safePure _
  · exact safeThen (safeBytesOf id) fun _ => safePure _
  · exact safeThen (safeTimestampOf id) fun _ => safePure _
  · exact safeThen (safeTextOf id) fun _ => safePure _
  · exact safeFail _ _

theorem safeObject (id : Nat) : Safe nodes (object id) := by
  refine safeThen safeGet fun b => ?_
  split
  · exact safePure _
  · refine safeThen (safeNodeOf id) fun node => ?_
    split
    · refine safeThen (safeSetObject id _) fun _ => ?_
      exact safeThen (safeModify fun _ => rfl) fun _ => safePure _
    · refine safeThen (safeScalar id) fun object => ?_
      exact safeThen (safeSetObject id object) fun _ => safePure object

theorem safeEntries (id : Nat) : Safe nodes (entries id) := by
  refine safeThen (safeNodeOf id) fun node => ?_
  split
  · refine safeThen (safeFlattenAll id) fun _ => safeThen (safePairsOf id) fun pairs => ?_
    refine safeThen (safeLoop fun pair _ => ?_) fun _ => safePure pairs
    refine safeThen (safeObject pair.1) fun key => ?_
    dsimp only
    split
    · exact safeThen (safeNodeOf pair.1) fun _ => safeThen (safeFailAt _ _ _ _) fun _ =>
        safeThen (safeObject pair.2) fun _ => safePure _
    · exact safeThen (safeObject pair.2) fun _ => safePure _
  · exact safeFail _ _

theorem safeSinglePairs (task : Task) (id : Nat) : Safe nodes (singlePairs task id) := by
  refine safeThen (safeNodeOf id) fun node => ?_
  split
  · refine safeMapM fun item => safeThen (safeNodeOf item) fun part => ?_
    split
    · exact safeThen (safeObject _) fun _ => safeThen (safeObject _) fun _ => safePure _
    · exact safeFailAt _ _ _ _
    · exact safeFailAt _ _ _ _
  · exact safeFailAt _ _ _ _

theorem safeSameKey (first second : Nat) : Safe nodes (sameKey first second) := by
  unfold sameKey
  split
  · exact safePure true
  · refine safeThen (safeObject first) fun x => safeThen (safeObject second) fun y => ?_
    split
    · exact safeThen (safeTextOf first) fun _ => safeThen (safeTextOf second) fun _ => safePure _
    · exact safePure _

theorem safeDistinct (keys : List Nat) : Safe nodes (distinct keys) := by
  refine safeThen (safeLoop fun key kept => ?_) fun _ => safePure _
  refine safeThen (safeAnyM fun other => safeSameKey other key) fun found => ?_
  split <;> exact safePure _

theorem safeFill (id : Nat) : Safe nodes (fill id) := by
  refine safeThen (safeNodeOf id) fun node => ?_
  split
  · exact safeThen (safeEntries id) fun _ => safeSetObject id _
  · exact safeThen (safeEntries id) fun _ => safeThen (safeDistinct _) fun _ => safeSetObject id _
  · exact safeThen (safeSinglePairs _ id) fun _ => safeSetObject id _
  · exact safeThen (safeSinglePairs _ id) fun _ => safeSetObject id _
  · split
    · refine safeThen (safeLoop fun item _ => ?_) fun _ => safeSetObject id _
      exact safeThen (safeObject item) fun _ => safePure _
    · exact safeFail _ _

theorem safeDocument (root : Nat) : Safe nodes (document root) := by
  refine safeThen (safeObject root) fun _ => safeThen safeGet fun b => ?_
  refine safeThen ?_ fun _ => safePure _
  rw [Std.Legacy.Range.forIn_eq_forIn_range']
  refine safeLoop fun i _ => safeThen safeGet fun c => ?_
  split
  · exact safeThen (safeFill _) fun _ => safePure _
  · exact safePure _

end

end Build

theorem Document.objectsEnd (d : Document) (endless : d.objects = .error (.scalar .endless)) : Loops d.nodes := by
  have ends := Build.safeDocument d.root { nodes := d.nodes, objects := d.nodes.map fun _ => none } (.refl d.nodes)
  unfold objects at endless
  unfold Ends at ends
  split at ends
  · rename_i taken
    rw [StateT.run, taken] at endless
    cases endless
  · rename_i fault taken
    rw [StateT.run, taken] at endless
    exact ends (Except.error.inj endless)

/- A mapping with the tag of a text, for whose equals sign it stands itself. -/
example : Document.objects ⟨#[⟨.str, .mapping [(1, 0)], {}⟩, ⟨.value, .scalar "=", {}⟩], 0⟩ =
    .error (.scalar .endless) := by cbv

/-- Giving a text its value runs out of fuel on no text but one with a mapping that stands for itself. -/
theorem Value.textEnds (text : String) (endless : ofText text = .error (.scalar .endless)) :
    ∃ d, Document.ofText? text.toList = .ok (some d) ∧ Loops d.nodes := by
  unfold ofText at endless
  cases read : Document.ofText? text.toList with
  | error fault =>
    rw [read] at endless
    rw [Except.error.inj endless] at read
    exact absurd read (Document.fuelSuffices _)
  | ok found =>
    rw [read] at endless
    cases found with
    | none => cases endless
    | some d =>
      refine ⟨d, rfl, Document.objectsEnd d ?_⟩
      cases built : d.objects with
      | error fault =>
        simp only [bind, Except.bind, built] at endless
        exact congrArg _ (Except.error.inj endless)
      | ok objects =>
        simp only [bind, Except.bind, built] at endless
        cases endless

end FlowAtlas.Yaml
