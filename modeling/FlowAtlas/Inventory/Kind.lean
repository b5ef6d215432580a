/-! The categories of architectural elements and the kinds of calls between them, each with the name
that documents use. -/
namespace FlowAtlas

inductive Category
  | controller
  | command
  | entity
  | domainEvent
  | integrationEvent
  | domainEventHandler
  | integrationEventHandler
  | integrationEventConverter
  deriving DecidableEq, Repr, Inhabited

namespace Category

/-- In the order of the collections, which is also the order of precedence. -/
def all : List Category :=
  [controller, command, entity, domainEvent, integrationEvent, domainEventHandler,
    integrationEventHandler, integrationEventConverter]

def name : Category → String
  | controller => "controller"
  | command => "command"
  | entity => "entity"
  | domainEvent => "domain_event"
  | integrationEvent => "integration_event"
  | domainEventHandler => "domain_event_handler"
  | integrationEventHandler => "integration_event_handler"
  | integrationEventConverter => "integration_event_converter"

def ofName? (s : String) : Option Category := all.find? (·.name = s)

theorem memAll (c : Category) : c ∈ all := by cases c <;> decide

end Category

inductive CallKind
  | methodToCommand
  | commandToAggregateMethod
  | methodToDomainEvent
  | domainEventToHandler
  | domainEventToIntegrationEvent
  | integrationEventToHandler
  | handlerToCommand
  deriving DecidableEq, Repr, Inhabited

namespace CallKind

def all : List CallKind :=
  [methodToCommand, commandToAggregateMethod, methodToDomainEvent, domainEventToHandler,
    domainEventToIntegrationEvent, integrationEventToHandler, handlerToCommand]

def name : CallKind → String
  | methodToCommand => "MethodToCommand"
  | commandToAggregateMethod => "CommandToAggregateMethod"
  | methodToDomainEvent => "MethodToDomainEvent"
  | domainEventToHandler => "DomainEventToHandler"
  | domainEventToIntegrationEvent => "DomainEventToIntegrationEvent"
  | integrationEventToHandler => "IntegrationEventToHandler"
  | handlerToCommand => "HandlerToCommand"

def ofName? (s : String) : Option CallKind := all.find? (·.name = s)

end CallKind

end FlowAtlas
