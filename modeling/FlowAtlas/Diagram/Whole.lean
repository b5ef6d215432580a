import FlowAtlas.Diagram.Numbering
import FlowAtlas.Diagram.Statement
/-! Flowcharts of a whole inventory: all of it, its commands, or its events. Relationships are drawn
between the nodes of the sheet; one with an end that is not drawn is left out. -/
namespace FlowAtlas.Diagram

def Statement.ofElement (id : String) (e : Listed) : Statement :=
  .node indentation id (some e.category) e.name e.isAggregateRoot

structure Section where
  heading : String
  elements : List Listed
  deriving Repr

def drawSections (n : Numbering) : List Section → Sheet × Numbering
  | [] => ([], n)
  | s :: rest =>
    let (nodes, n) := n.resolveAll s.elements
    let (sheet, n) := drawSections n rest
    (.comment indentation s.heading :: nodes.map (fun (id, e) => .ofElement id e) ++ .blank :: sheet, n)

def ends (n : Numbering) (source target : String) : Option (String × String) :=
  match n.find source, n.find target with
  | some a, some b => some (a, b)
  | _, _ => none

def touched (relationships : List Relationship) : List String :=
  relationships.flatMap fun r => [r.sourceType, r.targetType]

def touchedElements (inv : Inventory) (names : List String) (categories : List Category) : List Listed :=
  (categories.flatMap inv.listed).filter fun e => e.fullName ∈ names

end FlowAtlas.Diagram

namespace FlowAtlas

open Diagram

namespace Inventory

def architectureSections (inv : Inventory) : List Section :=
  [⟨"Controllers", inv.listed .controller⟩,
    ⟨"Commands", inv.listed .command⟩,
    ⟨"Entities", inv.listed .entity⟩,
    ⟨"Domain Events", inv.listed .domainEvent⟩,
    ⟨"Integration Events", inv.listed .integrationEvent⟩,
    ⟨"Event Handlers", inv.listed .domainEventHandler ++ inv.listed .integrationEventHandler⟩,
    ⟨"Integration Event Converters", inv.listed .integrationEventConverter⟩]

def architectureSheet (inv : Inventory) : Sheet :=
  let (sections, n) := drawSections {} inv.architectureSections
  let edges := inv.relationships.filterMap fun r =>
    (ends n r.sourceType r.targetType).map fun (source, target) =>
      .edge source (arrowFor r.callType) target (labelFor r.callType r.sourceMethod r.targetMethod)
  let sendings := inv.handlerCommands.filterMap fun (handler, command) =>
    (ends n handler command).map fun (source, target) =>
      .edge source CallKind.handlerToCommand.arrow target (CallKind.handlerToCommand.label "" "")
  let body := Sheet.start "flowchart TD" ++ sections ++ .comment indentation "Relationships" :: edges ++
    sendings ++ [.blank]
  body ++ body.styleBlock "Styles" StyleClass.all ""

def droppedRelationships (inv : Inventory) : List Relationship :=
  let (_, n) := drawSections {} inv.architectureSections
  inv.relationships.filter fun r => (ends n r.sourceType r.targetType).isNone

def commandCallLabel (callType : String) : String :=
  match CallKind.ofName? callType with
  | some .methodToCommand => "send"
  | some .commandToAggregateMethod => "execute"
  | _ => "call"

def commandCalls (inv : Inventory) : List Relationship :=
  inv.relationships.filter fun r => containsText r.callType "Command"

def commandSheet (inv : Inventory) : Sheet :=
  let calls := inv.commandCalls
  let elements := touchedElements inv (touched calls) [.controller, .command, .entity]
  let (nodes, n) := Numbering.resolveAll {} elements
  let edges := calls.filterMap fun r =>
    (ends n r.sourceType r.targetType).map fun (source, target) =>
      .call source target (commandCallLabel r.callType)
  let body := Sheet.start "flowchart LR" ++ nodes.map (fun (id, e) => .ofElement id e) ++ .blank :: edges ++
    [.blank]
  body ++ body.styleBlock "Styles" [.controller, .command, .entity] ""

def eventArrow (callType : String) : String :=
  match CallKind.ofName? callType with
  | some .domainEventToHandler => "-.->"
  | some .domainEventToIntegrationEvent => "===>"
  | some .integrationEventToHandler => "-.->"
  | _ => "-->"

def eventLabel (callType : String) : String :=
  match CallKind.ofName? callType with
  | some .domainEventToHandler => "triggers"
  | some .domainEventToIntegrationEvent => "converts"
  | some .integrationEventToHandler => "handles"
  | _ => "processes"

def eventCalls (inv : Inventory) : List Relationship :=
  inv.relationships.filter fun r => containsText r.callType "Event" || containsText r.callType "Handler"

def touchedConverters (inv : Inventory) (names : List String) : List Listed :=
  (inv.integrationEventConverters.filter (·.domainEventType ∈ names)).map fun v =>
    ⟨v.toElement, .integrationEventConverter, false⟩

def eventSections (inv : Inventory) : List Section :=
  let names := touched inv.eventCalls
  [⟨"Domain Events", touchedElements inv names [.domainEvent]⟩,
    ⟨"Integration Events", touchedElements inv names [.integrationEvent]⟩,
    ⟨"Event Handlers", touchedElements inv names [.domainEventHandler, .integrationEventHandler]⟩,
    ⟨"Integration Event Converters", touchedConverters inv names⟩]

def eventSheet (inv : Inventory) : Sheet :=
  let (sections, n) := drawSections {} inv.eventSections
  let edges := inv.eventCalls.filterMap fun r =>
    (ends n r.sourceType r.targetType).map fun (source, target) =>
      .edge source (eventArrow r.callType) target (eventLabel r.callType)
  let body := Sheet.start "flowchart TD" ++ sections ++ edges ++ [.blank]
  body ++ body.styleBlock "Styles" [.domainEvent, .integrationEvent, .handler, .converter] ""

end Inventory

end FlowAtlas
