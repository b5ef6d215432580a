import FlowAtlas.Chain.Trail
import FlowAtlas.Inventory.Index
/-! Walking from trigger to trigger, depth first. A key is expanded on its first visit only; a trigger
whose target has been visited before draws at most the edge that closes the circle. -/
namespace FlowAtlas

/-- What a key is reached as, with what it sets off when that does not follow from the key alone. -/
inductive Role
  | command
  | aggregateMethod
  | domainEvent
  | integrationEvent
  | handler (commands : List String)
  | converter (event : String)
  deriving DecidableEq, Repr

def Role.label : Role → String
  | command => "sends"
  | aggregateMethod => "execute"
  | domainEvent => "publishes"
  | integrationEvent => "to"
  | handler _ => "handles"
  | converter _ => "converts"

/-- One key setting off another; `closes` says whether the edge is drawn to a target that has been
visited before. -/
structure Trigger where
  source : Key
  target : Key
  role : Role
  closes : Bool
  deriving DecidableEq, Repr

namespace Trigger

def edge (t : Trigger) : Edge := ⟨t.source, t.target, t.role.label⟩

def next (ix : Index) (t : Trigger) : List Trigger :=
  let key := t.target
  match t.role with
  | .command =>
    (ix.outgoingOf .commandToAggregateMethod key.typeName).map fun r =>
      ⟨key, r.target, .aggregateMethod, true⟩
  | .aggregateMethod =>
    ((ix.outgoingOf .methodToDomainEvent key.typeName).filter (·.sourceMethod = key.method)).map fun r =>
      ⟨key, ⟨r.targetType, ""⟩, .domainEvent, true⟩
  | .domainEvent =>
    (ix.domainHandlersFor key.typeName).map (fun h => ⟨key, ⟨h.fullName, ""⟩, .handler h.commands, false⟩) ++
      (ix.convertersFor key.typeName).map fun v =>
        ⟨key, ⟨v.fullName, ""⟩, .converter v.integrationEventType, false⟩
  | .integrationEvent =>
    (ix.integrationHandlersFor key.typeName).map fun h =>
      ⟨key, ⟨h.fullName, ""⟩, .handler h.commands, false⟩
  | .handler commands => commands.map fun c => ⟨key, ⟨c, ""⟩, .command, true⟩
  | .converter event => [⟨key, ⟨event, ""⟩, .integrationEvent, true⟩]

end Trigger

namespace Trail

def revisit (t : Trigger) (trail : Trail) : Trail :=
  if t.closes then trail.connect t.edge else trail

def enter (t : Trigger) (trail : Trail) : Trail := (trail.visit t.target).connect t.edge

@[simp] theorem nodesRevisit (t : Trigger) (trail : Trail) : (trail.revisit t).nodes = trail.nodes := by
  unfold revisit
  split <;> simp

theorem nodesEnter {t : Trigger} {trail : Trail} (h : t.target ∉ trail.nodes) :
    (trail.enter t).nodes = trail.nodes ++ [t.target] := by
  simp [enter, nodesVisitNew h]

end Trail

def fresh (keys : List Key) (trail : Trail) : Nat := (keys.filter (· ∉ trail.nodes)).length

theorem freshEnter {keys : List Key} {t : Trigger} {trail : Trail} (visited : t.target ∉ trail.nodes)
    (known : t.target ∈ keys) : fresh keys (trail.enter t) < fresh keys trail := by
  unfold fresh
  have h : keys.filter (· ∉ (trail.enter t).nodes) =
      (keys.filter (· ∉ trail.nodes)).filter (· ≠ t.target) := by
    rw [List.filter_filter]
    congr 1
    funext k
    simp [Trail.nodesEnter visited, and_comm]
  rw [h]
  have mem : t.target ∈ keys.filter (· ∉ trail.nodes) := by simp [known, visited]
  exact List.length_filter_lt_length_iff_exists.mpr ⟨t.target, mem, by simp⟩

/-- Works off an agenda of triggers. What a visited target sets off comes before the rest of the
agenda; a target outside `keys` is skipped. -/
def walk (keys : List Key) (ix : Index) : List Trigger → Trail → Trail
  | [], trail => trail
  | t :: rest, trail =>
    if _visited : t.target ∈ trail.nodes then walk keys ix rest (trail.revisit t)
    else if _known : t.target ∈ keys then walk keys ix (t.next ix ++ rest) (trail.enter t)
    else walk keys ix rest (trail.skip ⟨t.target.typeName, t.source⟩)
termination_by agenda trail => (fresh keys trail, agenda.length)
decreasing_by
  · simp only [fresh, Trail.nodesRevisit]
    exact Prod.Lex.right _ (by simp)
  · exact Prod.Lex.left _ _ (freshEnter _visited _known)
  · simp only [fresh, Trail.nodesSkip]
    exact Prod.Lex.right _ (by simp)

end FlowAtlas
