import FlowAtlas.Diagram.Chains
import FlowAtlas.Diagram.Classes
import FlowAtlas.Diagram.Whole
/-! The kinds of diagrams of an inventory, each with the name by which it is chosen. -/
namespace FlowAtlas

inductive DiagramKind
  | architecture
  | command
  | event
  | classes
  | multiChain
  deriving DecidableEq, Repr

namespace DiagramKind

def all : List DiagramKind := [.architecture, .command, .event, .classes, .multiChain]

def name : DiagramKind → String
  | .architecture => "architecture"
  | .command => "command"
  | .event => "event"
  | .classes => "class"
  | .multiChain => "multi-chain"

def ofName? (s : String) : Option DiagramKind := all.find? (·.name = s)

def names : List String := all.map (·.name)

end DiagramKind

def defaultMethodLimit : Nat := 5

def Inventory.diagram (inv : Inventory) (methodLimit : Int) : DiagramKind → String
  | .architecture => inv.architectureSheet.text
  | .command => inv.commandSheet.text
  | .event => inv.eventSheet.text
  | .classes => inv.classDiagram methodLimit
  | .multiChain => inv.groupedChainsSheet.text

end FlowAtlas
