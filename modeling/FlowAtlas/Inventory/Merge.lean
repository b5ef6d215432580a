import FlowAtlas.Inventory.Basic
import FlowAtlas.Selection
/-! Merging inventories: collections are joined in order, of elements with one full name and of equal
relationships the first stays. -/
namespace FlowAtlas.Inventory

open Selection (addNew)

def absorb (acc inv : Inventory) : Inventory where
  controllers := inv.controllers.foldl (addNew (·.fullName)) acc.controllers
  commands := inv.commands.foldl (addNew (·.fullName)) acc.commands
  entities := inv.entities.foldl (addNew (·.fullName)) acc.entities
  domainEvents := inv.domainEvents.foldl (addNew (·.fullName)) acc.domainEvents
  integrationEvents := inv.integrationEvents.foldl (addNew (·.fullName)) acc.integrationEvents
  domainEventHandlers := inv.domainEventHandlers.foldl (addNew (·.fullName)) acc.domainEventHandlers
  integrationEventHandlers :=
    inv.integrationEventHandlers.foldl (addNew (·.fullName)) acc.integrationEventHandlers
  integrationEventConverters :=
    inv.integrationEventConverters.foldl (addNew (·.fullName)) acc.integrationEventConverters
  relationships := inv.relationships.foldl (addNew id) acc.relationships

def merge (invs : List Inventory) : Inventory := invs.foldl absorb {}

end FlowAtlas.Inventory
