import FlowAtlas.Diagram.Label
import FlowAtlas.Inventory.Basic
/-! How elements and calls look: the shape and style class of a category, the arrow and label of a kind
of call. -/
namespace FlowAtlas.Diagram

inductive StyleClass
  | controller
  | command
  | entity
  | domainEvent
  | integrationEvent
  | handler
  | converter
  deriving DecidableEq, Repr

namespace StyleClass

def all : List StyleClass :=
  [controller, command, entity, domainEvent, integrationEvent, handler, converter]

def name : StyleClass → String
  | controller => "controller"
  | command => "command"
  | entity => "entity"
  | domainEvent => "domainEvent"
  | integrationEvent => "integrationEvent"
  | handler => "handler"
  | converter => "converter"

def ofName? (s : String) : Option StyleClass := all.find? (·.name = s)

def definition : StyleClass → String
  | controller => "fill:#e1f5fe,stroke:#01579b,stroke-width:2px"
  | command => "fill:#f3e5f5,stroke:#4a148c,stroke-width:2px"
  | entity => "fill:#e8f5e8,stroke:#1b5e20,stroke-width:2px"
  | domainEvent => "fill:#fff3e0,stroke:#e65100,stroke-width:2px"
  | integrationEvent => "fill:#fce4ec,stroke:#880e4f,stroke-width:2px"
  | handler => "fill:#f1f8e9,stroke:#33691e,stroke-width:2px"
  | converter => "fill:#e3f2fd,stroke:#0277bd,stroke-width:2px"

def ofCategory : Category → StyleClass
  | .controller => controller
  | .command => command
  | .entity => entity
  | .domainEvent => domainEvent
  | .integrationEvent => integrationEvent
  | .domainEventHandler => handler
  | .integrationEventHandler => handler
  | .integrationEventConverter => converter

end StyleClass

inductive Shape
  | box
  | plainBox
  | hexagon
  | rounded
  | slanted
  deriving DecidableEq, Repr

namespace Shape

def opening : Shape → String
  | box => "[\""
  | plainBox => "["
  | hexagon => "\x7b\x7b"
  | rounded => "(\""
  | slanted => "[/\""

def closing : Shape → String
  | box => "\"]"
  | plainBox => "]"
  | hexagon => "\x7d\x7d"
  | rounded => "\")"
  | slanted => "\"/]"

def of (category : Option Category) (aggregateRoot : Bool) : Shape :=
  match category with
  | some .entity => if aggregateRoot then hexagon else plainBox
  | some .domainEvent => rounded
  | some .integrationEventConverter => slanted
  | _ => box

def draw (shape : Shape) (label : String) : String := shape.opening ++ escapeLabel label ++ shape.closing

end Shape

end FlowAtlas.Diagram

namespace FlowAtlas.CallKind

def arrow : CallKind → String
  | methodToCommand => "-->"
  | commandToAggregateMethod => "==>"
  | methodToDomainEvent => "-->"
  | domainEventToHandler => "-.->"
  | domainEventToIntegrationEvent => "===>"
  | integrationEventToHandler => "-.->"
  | handlerToCommand => "-.->"

def label (sourceMethod targetMethod : String) : CallKind → String
  | methodToCommand => if sourceMethod = "" then "sends" else sourceMethod ++ " Send"
  | commandToAggregateMethod => if targetMethod = "" then "executes" else "executes " ++ targetMethod
  | methodToDomainEvent => "publishes"
  | domainEventToHandler => "handles"
  | domainEventToIntegrationEvent => "converts to"
  | integrationEventToHandler => "subscribes"
  | handlerToCommand => "sends"

end FlowAtlas.CallKind

namespace FlowAtlas.Diagram

def arrowFor (callType : String) : String := ((CallKind.ofName? callType).map (·.arrow)).getD "-->"

def labelFor (callType sourceMethod targetMethod : String) : String :=
  ((CallKind.ofName? callType).map (·.label sourceMethod targetMethod)).getD ""

end FlowAtlas.Diagram
