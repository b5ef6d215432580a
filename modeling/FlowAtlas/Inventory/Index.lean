import FlowAtlas.Inventory.Basic
import FlowAtlas.Table
/-! Look-up tables of an inventory. A name that several collections list belongs to the first of
them; of entities and handlers with one name the first counts; handlers and converters are grouped
by event, relationships by their source. -/
namespace FlowAtlas

structure Index where
  categories : List (String × Category) := []
  entities : List (String × Entity) := []
  domainHandlers : List (String × Handler) := []
  integrationHandlers : List (String × Handler) := []
  domainHandlersByEvent : List (String × List Handler) := []
  integrationHandlersByEvent : List (String × List Handler) := []
  convertersByEvent : List (String × List Converter) := []
  relationshipsBySource : List (String × List Relationship) := []
  deriving Repr, Inhabited

namespace Inventory

def categoryTable (inv : Inventory) : List (String × Category) :=
  inv.elements.foldl (fun table e => Table.insertNew e.fullName e.category table) []

def index (inv : Inventory) : Index where
  categories := inv.categoryTable
  entities := inv.entities.foldl (fun table e => Table.insertNew e.fullName e table) []
  domainHandlers :=
    inv.domainEventHandlers.foldl (fun table h => Table.insertNew h.fullName h table) []
  integrationHandlers :=
    inv.integrationEventHandlers.foldl (fun table h => Table.insertNew h.fullName h table) []
  domainHandlersByEvent :=
    inv.domainEventHandlers.foldl (fun table h => Table.push h.handledEventType h table) []
  integrationHandlersByEvent :=
    inv.integrationEventHandlers.foldl (fun table h => Table.push h.handledEventType h table) []
  convertersByEvent :=
    inv.integrationEventConverters.foldl (fun table v => Table.push v.domainEventType v table) []
  relationshipsBySource :=
    inv.relationships.foldl (fun table r => Table.push r.sourceType r table) []

end Inventory

namespace Index

def categoryOf (ix : Index) (name : String) : Option Category := Table.get? name ix.categories

def isKnown (ix : Index) (name : String) : Bool := (ix.categoryOf name).isSome

def entity (ix : Index) (name : String) : Option Entity := Table.get? name ix.entities

def isAggregateRoot (ix : Index) (name : String) : Bool :=
  (ix.entity name).any (·.isAggregateRoot)

def handlerCommands (ix : Index) (name : String) : Option (List String) :=
  ((Table.get? name ix.domainHandlers).or (Table.get? name ix.integrationHandlers)).map (·.commands)

def domainHandlersFor (ix : Index) (event : String) : List Handler :=
  Table.group event ix.domainHandlersByEvent

def integrationHandlersFor (ix : Index) (event : String) : List Handler :=
  Table.group event ix.integrationHandlersByEvent

def convertersFor (ix : Index) (event : String) : List Converter :=
  Table.group event ix.convertersByEvent

def outgoing (ix : Index) (source : String) : List Relationship :=
  Table.group source ix.relationshipsBySource

def outgoingOf (ix : Index) (kind : CallKind) (source : String) : List Relationship :=
  (ix.outgoing source).filter (·.isOf kind)

end Index

structure Clash where
  name : String
  kept : Category
  other : Category
  deriving DecidableEq, Repr

inductive ReferenceField
  | sourceType
  | targetType
  | handledEventType
  | commands
  | domainEventType
  | integrationEventType
  deriving DecidableEq, Repr

def ReferenceField.name : ReferenceField → String
  | sourceType => "source_type"
  | targetType => "target_type"
  | handledEventType => "handled_event_type"
  | commands => "commands"
  | domainEventType => "domain_event_type"
  | integrationEventType => "integration_event_type"

structure UnresolvedReference where
  referencedBy : String
  field : ReferenceField
  name : String
  deriving DecidableEq, Repr

namespace Inventory

def clashes (inv : Inventory) : List Clash :=
  let ix := inv.categoryTable
  inv.elements.filterMap fun e =>
    match Table.get? e.fullName ix with
    | some kept => if kept = e.category then none else some ⟨e.fullName, kept, e.category⟩
    | none => none

def unresolved (ix : Index) (referencedBy : String) (field : ReferenceField) (name : String) :
    List UnresolvedReference :=
  if ix.isKnown name then [] else [⟨referencedBy, field, name⟩]

def unresolvedOptional (ix : Index) (referencedBy : String) (field : ReferenceField) (name : String) :
    List UnresolvedReference :=
  if name = "" then [] else unresolved ix referencedBy field name

def unresolvedReferences (inv : Inventory) : List UnresolvedReference :=
  let ix := inv.index
  let ofRelationship (r : Relationship) :=
    let label := r.callType ++ ":" ++ r.sourceType ++ "->" ++ r.targetType
    unresolved ix label .sourceType r.sourceType ++ unresolved ix label .targetType r.targetType
  let ofHandler (h : Handler) :=
    unresolvedOptional ix h.fullName .handledEventType h.handledEventType ++
      h.commands.flatMap (unresolved ix h.fullName .commands)
  let ofConverter (v : Converter) :=
    unresolvedOptional ix v.fullName .domainEventType v.domainEventType ++
      unresolvedOptional ix v.fullName .integrationEventType v.integrationEventType
  inv.relationships.flatMap ofRelationship ++ inv.handlers.flatMap ofHandler ++
    inv.integrationEventConverters.flatMap ofConverter

end Inventory

end FlowAtlas
