import FlowAtlas.Chain.Extract
import FlowAtlas.FlowGraph.Reach
/-! Figures about an inventory: elements by category, relationships by call type, chains, and how well
the references fit together. -/
namespace FlowAtlas

structure Statistics where
  elements : List (String × Nat)
  relationships : List (String × Nat)
  roots : Nat
  commandChains : Nat
  unresolvedReferences : Nat
  orphans : Nat
  hasCycles : Bool
  deriving DecidableEq, Repr

def Inventory.statistics (inv : Inventory) : Statistics where
  elements := tally (inv.elements.map (·.category.name))
  relationships := tally (inv.relationships.map (·.callType))
  roots := inv.roots.length
  commandChains := inv.dispatches.length
  unresolvedReferences := inv.unresolvedReferences.length
  orphans := inv.flowGraph.summary.orphans
  hasCycles := inv.flowGraph.hasCycles

def Json.ofTally (counts : List (String × Nat)) : Json :=
  .object (counts.map fun (name, count) => (name, .int count))

def Statistics.toJson (s : Statistics) : Json :=
  .object [("elements", .ofTally s.elements), ("relationships", .ofTally s.relationships),
    ("roots", .int s.roots), ("command_chains", .int s.commandChains),
    ("unresolved_references", .int s.unresolvedReferences), ("orphans", .int s.orphans),
    ("has_cycles", .bool s.hasCycles)]

end FlowAtlas
