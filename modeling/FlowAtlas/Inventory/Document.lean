import FlowAtlas.Inventory.Basic
import FlowAtlas.Json.Value
import FlowAtlas.Schema.View
/-! Inventories as documents. A document may spell its keys with a capital first letter, with a small
one, or in snake case; what is written has small first letters, all fields, and reads back. -/
namespace FlowAtlas

namespace Json

instance : Schema.Viewed Json where
  view
    | null => .null
    | bool b => .bool b
    | int i => .int i
    | float x => .float x
    | text s => .text s
    | array items => .list items
    | object fields => .object fields

def lowerKey (key : String) : String := String.ofList (Text.lowerFirst key.toList)

mutual

/-- Every key gets a small first letter; of keys that become equal the last value counts, at the
place of the first. -/
def lowerKeys : Json → Json
  | array items => .array (lowerKeysList items)
  | object fields => .object (lowerKeysFields fields [])
  | null => null
  | bool b => bool b
  | int i => int i
  | float x => float x
  | text s => text s

def lowerKeysList : List Json → List Json
  | [] => []
  | v :: rest => lowerKeys v :: lowerKeysList rest

def lowerKeysFields : List (String × Json) → List (String × Json) → List (String × Json)
  | [], done => done
  | (k, v) :: rest, done => lowerKeysFields rest (Table.set (lowerKey k) (lowerKeys v) done)

end

end Json

open Schema (Checked FieldName required optional listOf)

namespace Field

def name : FieldName := .word "name"
def fullName : FieldName := ⟨"fullName", "full_name"⟩
def methods : FieldName := .word "methods"
def isAggregateRoot : FieldName := ⟨"isAggregateRoot", "is_aggregate_root"⟩
def handledEventType : FieldName := ⟨"handledEventType", "handled_event_type"⟩
def handlerCommands : FieldName := .word "commands"
def domainEventType : FieldName := ⟨"domainEventType", "domain_event_type"⟩
def integrationEventType : FieldName := ⟨"integrationEventType", "integration_event_type"⟩
def sourceType : FieldName := ⟨"sourceType", "source_type"⟩
def sourceMethod : FieldName := ⟨"sourceMethod", "source_method"⟩
def targetType : FieldName := ⟨"targetType", "target_type"⟩
def targetMethod : FieldName := ⟨"targetMethod", "target_method"⟩
def callType : FieldName := ⟨"callType", "call_type"⟩
def controllers : FieldName := .word "controllers"
def commands : FieldName := .word "commands"
def entities : FieldName := .word "entities"
def domainEvents : FieldName := ⟨"domainEvents", "domain_events"⟩
def integrationEvents : FieldName := ⟨"integrationEvents", "integration_events"⟩
def domainEventHandlers : FieldName := ⟨"domainEventHandlers", "domain_event_handlers"⟩
def integrationEventHandlers : FieldName := ⟨"integrationEventHandlers", "integration_event_handlers"⟩
def integrationEventConverters : FieldName := ⟨"integrationEventConverters", "integration_event_converters"⟩
def relationships : FieldName := .word "relationships"

end Field

namespace Element

def checkFields (fields : List (String × Json)) : Checked Element :=
  Element.mk <$> required Field.name Schema.text fields <*> required Field.fullName Schema.text fields

def check (expected : String) : Json → Checked Element := Schema.object expected checkFields

def fields (e : Element) : List (String × Json) :=
  [(Field.name.wire, .text e.name), (Field.fullName.wire, .text e.fullName)]

def toJson (e : Element) : Json := .object e.fields

end Element

namespace Controller

def check : Json → Checked Controller :=
  Schema.object "ControllerInfo" fun fields =>
    Controller.mk <$> Element.checkFields fields <*>
      optional Field.methods [] (listOf Schema.text) fields

def toJson (c : Controller) : Json := .object (c.fields ++ [(Field.methods.wire, .texts c.methods)])

end Controller

namespace Entity

def check : Json → Checked Entity :=
  Schema.object "EntityInfo" fun fields =>
    Entity.mk <$> Element.checkFields fields <*>
      optional Field.isAggregateRoot false Schema.bool fields <*>
      optional Field.methods [] (listOf Schema.text) fields

def toJson (e : Entity) : Json :=
  .object (e.fields ++
    [(Field.isAggregateRoot.wire, .bool e.isAggregateRoot), (Field.methods.wire, .texts e.methods)])

end Entity

namespace Handler

def check (expected : String) : Json → Checked Handler :=
  Schema.object expected fun fields =>
    Handler.mk <$> Element.checkFields fields <*>
      optional Field.handledEventType "" Schema.text fields <*>
      optional Field.handlerCommands [] (listOf Schema.text) fields

def toJson (h : Handler) : Json :=
  .object (h.fields ++
    [(Field.handledEventType.wire, .text h.handledEventType),
      (Field.handlerCommands.wire, .texts h.commands)])

end Handler

namespace Converter

def check : Json → Checked Converter :=
  Schema.object "IntegrationEventConverterInfo" fun fields =>
    Converter.mk <$> Element.checkFields fields <*>
      optional Field.domainEventType "" Schema.text fields <*>
      optional Field.integrationEventType "" Schema.text fields

def toJson (v : Converter) : Json :=
  .object (v.fields ++
    [(Field.domainEventType.wire, .text v.domainEventType),
      (Field.integrationEventType.wire, .text v.integrationEventType)])

end Converter

namespace Relationship

def check : Json → Checked Relationship :=
  Schema.object "Relationship" fun fields =>
    Relationship.mk <$> required Field.sourceType Schema.text fields <*>
      optional Field.sourceMethod "" Schema.text fields <*>
      required Field.targetType Schema.text fields <*>
      optional Field.targetMethod "" Schema.text fields <*>
      required Field.callType Schema.text fields

def toJson (r : Relationship) : Json :=
  .object [(Field.sourceType.wire, .text r.sourceType), (Field.sourceMethod.wire, .text r.sourceMethod),
    (Field.targetType.wire, .text r.targetType), (Field.targetMethod.wire, .text r.targetMethod),
    (Field.callType.wire, .text r.callType)]

end Relationship

inductive DocumentFault
  | notObject (found : Json)
  | invalid (issues : List Schema.Issue)
  deriving Repr

def Json.typeName : Json → String
  | .null => "NoneType"
  | .bool _ => "bool"
  | .int _ => "int"
  | .float _ => "float"
  | .text _ => "str"
  | .array _ => "list"
  | .object _ => "dict"

def DocumentFault.message : DocumentFault → String
  | notObject found => "Expected a JSON object, got " ++ found.typeName
  | invalid issues => "Invalid analysis result: " ++ toString issues.length ++ " validation error(s)"

namespace Inventory

def checkFields (fields : List (String × Json)) : Checked Inventory :=
  Inventory.mk <$> optional Field.controllers [] (listOf Controller.check) fields <*>
    optional Field.commands [] (listOf (Element.check "CommandInfo")) fields <*>
    optional Field.entities [] (listOf Entity.check) fields <*>
    optional Field.domainEvents [] (listOf (Element.check "DomainEventInfo")) fields <*>
    optional Field.integrationEvents [] (listOf (Element.check "IntegrationEventInfo")) fields <*>
    optional Field.domainEventHandlers [] (listOf (Handler.check "DomainEventHandlerInfo")) fields <*>
    optional Field.integrationEventHandlers []
      (listOf (Handler.check "IntegrationEventHandlerInfo")) fields <*>
    optional Field.integrationEventConverters [] (listOf Converter.check) fields <*>
    optional Field.relationships [] (listOf Relationship.check) fields

def ofJson (document : Json) : Except DocumentFault Inventory :=
  match document.lowerKeys with
  | .object fields =>
    match checkFields fields with
    | .good inv => .ok inv
    | .refused issues => .error (.invalid issues)
  | found => .error (.notObject found)

def toJson (inv : Inventory) : Json :=
  .object [(Field.controllers.wire, .array (inv.controllers.map (·.toJson))),
    (Field.commands.wire, .array (inv.commands.map (·.toJson))),
    (Field.entities.wire, .array (inv.entities.map (·.toJson))),
    (Field.domainEvents.wire, .array (inv.domainEvents.map (·.toJson))),
    (Field.integrationEvents.wire, .array (inv.integrationEvents.map (·.toJson))),
    (Field.domainEventHandlers.wire, .array (inv.domainEventHandlers.map (·.toJson))),
    (Field.integrationEventHandlers.wire, .array (inv.integrationEventHandlers.map (·.toJson))),
    (Field.integrationEventConverters.wire, .array (inv.integrationEventConverters.map (·.toJson))),
    (Field.relationships.wire, .array (inv.relationships.map (·.toJson)))]

end Inventory

end FlowAtlas
