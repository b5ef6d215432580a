import FlowAtlas.Diagram.Style
import FlowAtlas.Inventory.Index
import FlowAtlas.Selection
/-! Class diagrams: a block for each controller, command and entity, and a line for each different
relationship between known types. -/
namespace FlowAtlas.Diagram

structure ClassBlock where
  identifier : String
  stereotype : String
  methods : List String
  more : Bool
  deriving DecidableEq, Repr

namespace ClassBlock

/-- The first `limit` methods; a negative limit leaves out as many at the end. -/
def shownMethods (limit : Int) (methods : List String) : List String :=
  if limit < 0 then methods.take (methods.length - limit.natAbs) else methods.take limit.toNat

def of (limit : Int) (name stereotype : String) (methods : List String) : ClassBlock :=
  ⟨classIdentifier name, stereotype, shownMethods limit methods, limit < methods.length⟩

def lines (b : ClassBlock) : List String :=
  ("    class " ++ b.identifier ++ " \x7b") :: ("        <<" ++ b.stereotype ++ ">>") ::
    b.methods.map (fun m => "        +" ++ escapeLabel m ++ "()") ++
    (if b.more then ["        +..."] else []) ++ ["    \x7d", ""]

end ClassBlock

structure ClassLink where
  source : String
  arrow : String
  target : String
  deriving DecidableEq, Repr

namespace ClassLink

def arrowFor (callType : String) : String :=
  match CallKind.ofName? callType with
  | some .methodToCommand => "..>"
  | some .domainEventToHandler => "..>"
  | some .integrationEventToHandler => "..>"
  | _ => "-->"

def of? (ix : Index) (r : Relationship) : Option ClassLink :=
  let source := classIdentifier (simpleName r.sourceType)
  let target := classIdentifier (simpleName r.targetType)
  if ix.isKnown r.sourceType && ix.isKnown r.targetType && source ≠ "" && target ≠ "" then
    some ⟨source, arrowFor r.callType, target⟩
  else none

def line (l : ClassLink) : String := "    " ++ l.source ++ " " ++ l.arrow ++ " " ++ l.target

end ClassLink

end FlowAtlas.Diagram

namespace FlowAtlas.Inventory

open Diagram

def classBlocks (inv : Inventory) (limit : Int) : List ClassBlock :=
  inv.controllers.map (fun c => .of limit c.name "Controller" c.methods) ++
    inv.commands.map (fun c => .of limit c.name "Command" []) ++
    inv.entities.map fun e =>
      .of limit e.name (if e.isAggregateRoot then "AggregateRoot" else "Entity") e.methods

def classLinks (inv : Inventory) : List ClassLink :=
  let ix := inv.index
  inv.relationships.filterMap (ClassLink.of? ix)

def classDiagram (inv : Inventory) (limit : Int) : String :=
  let lines := "classDiagram" :: "" :: (inv.classBlocks limit).flatMap (·.lines) ++
    Selection.firsts id (inv.classLinks.map (·.line))
  joinTexts "\n" lines ++ "\n"

end FlowAtlas.Inventory
