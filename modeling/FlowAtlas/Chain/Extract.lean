import FlowAtlas.Chain.Walk
import FlowAtlas.Selection
/-! Chains of an inventory: its roots are the entry points that nothing sets off; each root has its
chain, and so has each pair of a sender and a command. -/
namespace FlowAtlas

def entryMethod : String := "Handle"

def triggerMarks : List String := ["EventToHandler", "ToIntegrationEvent", "ToDomainEvent"]

def Relationship.triggered? (r : Relationship) : Option Key :=
  if r.isOf .commandToAggregateMethod then some r.target
  else if triggerMarks.any (containsText r.callType) then some ⟨r.targetType, ""⟩
  else none

structure TracedChain extends Chain where
  skipped : List Skip
  deriving DecidableEq, Repr

def Trail.toChain (t : Trail) (name : String) (root : Key) : TracedChain :=
  ⟨⟨name, root, t.nodes, t.edges⟩, t.skipped⟩

structure Dispatch where
  root : Key
  command : String
  name : String
  deriving DecidableEq, Repr

namespace Inventory

def triggered (inv : Inventory) : List Key := inv.relationships.filterMap (·.triggered?)

def keys (inv : Inventory) : List Key :=
  let ix := inv.index
  inv.elements.map (fun e => ⟨e.fullName, ""⟩) ++
    ((inv.relationships.filter (·.isOf .commandToAggregateMethod)).map (·.target)).filter fun key =>
      ix.isKnown key.typeName

def senders (inv : Inventory) : List Key :=
  let ix := inv.index
  inv.controllers.flatMap fun c =>
    (ix.outgoingOf .methodToCommand c.fullName).map fun r => ⟨c.fullName, r.sourceMethod⟩

def idleHandlers (inv : Inventory) : List Key :=
  (inv.handlers.filter fun h => (⟨h.fullName, ""⟩ : Key) ∉ inv.triggered).map fun h =>
    ⟨h.fullName, entryMethod⟩

def roots (inv : Inventory) : List Key :=
  Selection.firsts id ((inv.senders ++ inv.idleHandlers).filter (· ∉ inv.triggered))

def rootTriggers (ix : Index) (root : Key) : List Trigger :=
  let sent := (ix.outgoingOf .methodToCommand root.typeName).filter fun r =>
    root.method = "" || r.sourceMethod = root.method
  (sent.map (·.targetType) ++ (ix.handlerCommands root.typeName).getD []).map fun c =>
    ⟨root, ⟨c, ""⟩, .command, false⟩

def chainFrom (inv : Inventory) (root : Key) : TracedChain :=
  let ix := inv.index
  (walk inv.keys ix (rootTriggers ix root) (.start root)).toChain root.simpleName root

def chains (inv : Inventory) : List TracedChain := inv.roots.map inv.chainFrom

def sendings (inv : Inventory) : List (String × List Relationship) :=
  (inv.relationships.filter (·.isOf .methodToCommand)).foldl
    (fun table r => Table.push r.sourceType r table) []

def dispatches (inv : Inventory) : List Dispatch :=
  let label (sender command : String) := sender ++ " -> " ++ simpleName command
  let sent := inv.sendings.flatMap fun (sender, relationships) =>
    relationships.map fun r =>
      ⟨⟨sender, r.sourceMethod⟩, r.targetType, label (simpleName sender) r.targetType⟩
  let handled := inv.integrationEventHandlers.flatMap fun h =>
    h.commands.map fun c => ⟨⟨h.fullName, entryMethod⟩, c, label h.name c⟩
  Selection.firsts (fun (d : Dispatch) => (d.root.typeName, d.command)) (sent ++ handled)

def chainOf (inv : Inventory) (d : Dispatch) : TracedChain :=
  let key : Key := ⟨d.command, ""⟩
  let start := Trail.start d.root
  let trail :=
    if key ∈ inv.keys then walk inv.keys inv.index [⟨d.root, key, .command, false⟩] start
    else start.skip ⟨d.command, d.root⟩
  trail.toChain d.name d.root

def commandChains (inv : Inventory) : List TracedChain := inv.dispatches.map inv.chainOf

end Inventory

end FlowAtlas
