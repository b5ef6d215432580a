import FlowAtlas.Inventory.Key
import FlowAtlas.Inventory.Kind
/-! An inventory: eight collections of architectural elements and the relationships between them.
Elements are told apart by their qualified name, relationships refer to such names, known or not. -/
namespace FlowAtlas

structure Element where
  name : String
  fullName : String
  deriving DecidableEq, Repr, Inhabited

structure Controller extends Element where
  methods : List String := []
  deriving DecidableEq, Repr, Inhabited

structure Entity extends Element where
  isAggregateRoot : Bool := false
  methods : List String := []
  deriving DecidableEq, Repr, Inhabited

structure Handler extends Element where
  handledEventType : String := ""
  commands : List String := []
  deriving DecidableEq, Repr, Inhabited

structure Converter extends Element where
  domainEventType : String := ""
  integrationEventType : String := ""
  deriving DecidableEq, Repr, Inhabited

structure Relationship where
  sourceType : String
  sourceMethod : String := ""
  targetType : String
  targetMethod : String := ""
  callType : String
  deriving DecidableEq, Repr, Inhabited

namespace Relationship

def kind (r : Relationship) : Option CallKind := CallKind.ofName? r.callType

def isOf (kind : CallKind) (r : Relationship) : Bool := r.callType == kind.name

def target (r : Relationship) : Key := ⟨r.targetType, r.targetMethod⟩

end Relationship

structure Inventory where
  controllers : List Controller := []
  commands : List Element := []
  entities : List Entity := []
  domainEvents : List Element := []
  integrationEvents : List Element := []
  domainEventHandlers : List Handler := []
  integrationEventHandlers : List Handler := []
  integrationEventConverters : List Converter := []
  relationships : List Relationship := []
  deriving DecidableEq, Repr, Inhabited

structure Listed extends Element where
  category : Category
  isAggregateRoot : Bool := false
  deriving DecidableEq, Repr, Inhabited

namespace Inventory

def listed (inv : Inventory) (category : Category) : List Listed :=
  let plain (elements : List Element) : List Listed := elements.map fun e => ⟨e, category, false⟩
  match category with
  | .controller => plain (inv.controllers.map (·.toElement))
  | .command => plain inv.commands
  | .entity => inv.entities.map fun e => ⟨e.toElement, category, e.isAggregateRoot⟩
  | .domainEvent => plain inv.domainEvents
  | .integrationEvent => plain inv.integrationEvents
  | .domainEventHandler => plain (inv.domainEventHandlers.map (·.toElement))
  | .integrationEventHandler => plain (inv.integrationEventHandlers.map (·.toElement))
  | .integrationEventConverter => plain (inv.integrationEventConverters.map (·.toElement))

def elements (inv : Inventory) : List Listed := Category.all.flatMap inv.listed

def isEmpty (inv : Inventory) : Bool := inv.relationships.isEmpty && inv.elements.isEmpty

def handlers (inv : Inventory) : List Handler :=
  inv.domainEventHandlers ++ inv.integrationEventHandlers

def handlerCommands (inv : Inventory) : List (String × String) :=
  inv.handlers.flatMap fun h => h.commands.map fun c => (h.fullName, c)

end Inventory

end FlowAtlas
