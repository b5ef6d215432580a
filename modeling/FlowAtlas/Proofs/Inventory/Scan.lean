import FlowAtlas.Inventory.Index
import FlowAtlas.Proofs.Selection
/-! The look-up tables of an inventory answer as scans of its collections do: groups keep the order of
the collection, of equal names the first counts. -/
namespace FlowAtlas

variable {α β κ : Type} [DecidableEq κ]

theorem groupGathered (mark : α → κ) (items : List α) (table : List (κ × List α)) (key : κ) :
    Table.group key (items.foldl (fun table x => Table.push (mark x) x table) table) =
      Table.group key table ++ items.filter (fun x => mark x = key) := by
  induction items generalizing table with
  | nil => simp
  | cons x rest ih =>
    rw [List.foldl_cons, ih]
    by_cases same : mark x = key
    · subst key
      simp [Table.groupPushSame]
    · simp [Table.groupPushOther (Ne.symm same), same]

theorem pushedGroups (values : κ → List α) {keys : List κ} (distinct : keys.Nodup) {key : κ}
    (empty : key ∉ keys → values key = []) (x : α) :
    Table.push key x (keys.map fun k => (k, values k)) =
      (Selection.addNew id keys key).map fun k => (k, if k = key then values k ++ [x] else values k) := by
  induction keys with
  | nil => simp [Table.push, Selection.addNew, empty]
  | cons k rest ih =>
    obtain ⟨absent, distinct⟩ := List.nodup_cons.mp distinct
    by_cases same : k = key
    · subst k
      have others : ∀ k ∈ rest, k ≠ key := fun k mem same => absent (same ▸ mem)
      rw [Selection.addNewAgain ⟨key, List.mem_cons_self, rfl⟩]
      simpa [Table.push] using fun k mem same => absurd same (others k mem)
    · rw [Selection.addNewCons same, List.map_cons, List.map_cons, Table.push, if_neg same,
        ih distinct (fun new => empty (by simp [Ne.symm same, new])), if_neg same]

theorem tableGathered (mark : α → κ) (items : List α) :
    items.foldl (fun table x => Table.push (mark x) x table) [] =
      (Selection.firsts id (items.map mark)).map fun key => (key, items.filter (fun x => mark x = key)) := by
  induction items using List.reverseRecOn with
  | nil => rfl
  | append_singleton items x ih =>
    have empty : mark x ∉ Selection.firsts id (items.map mark) → items.filter (fun y => mark y = mark x) = [] := by
      intro absent
      rw [List.filter_eq_nil_iff]
      intro y mem same
      apply absent
      rw [Selection.firstsMem, ← of_decide_eq_true same]
      exact List.mem_map_of_mem mem
    rw [List.foldl_append, ih, List.foldl_cons, List.foldl_nil,
      pushedGroups (fun key => items.filter (fun y => mark y = key)) (Selection.firstsNodup _) empty]
    have keys : Selection.firsts id ((items ++ [x]).map mark) =
        Selection.addNew id (Selection.firsts id (items.map mark)) (mark x) := by
      simp [Selection.firsts]
    rw [keys]
    apply List.map_congr_left
    intro key _
    by_cases same : key = mark x
    · simp [same]
    · simp [same, Ne.symm same]

theorem firstInserted (mark : α → κ) (value : α → β) (items : List α) (table : List (κ × β)) (key : κ) :
    Table.get? key (items.foldl (fun table x => Table.insertNew (mark x) (value x) table) table) =
      (Table.get? key table).or ((items.find? (fun x => mark x = key)).map value) := by
  induction items generalizing table with
  | nil => simp
  | cons x rest ih =>
    rw [List.foldl_cons, ih]
    by_cases same : mark x = key
    · subst key
      cases found : Table.get? (mark x) table <;> simp [Table.getInsertNewSame, found]
    · simp [Table.getInsertNewOther (Ne.symm same), same]

namespace Inventory

theorem domainHandlersScan (inv : Inventory) (event : String) :
    inv.index.domainHandlersFor event =
      inv.domainEventHandlers.filter (fun h => h.handledEventType = event) :=
  groupGathered Handler.handledEventType inv.domainEventHandlers [] event

theorem integrationHandlersScan (inv : Inventory) (event : String) :
    inv.index.integrationHandlersFor event =
      inv.integrationEventHandlers.filter (fun h => h.handledEventType = event) :=
  groupGathered Handler.handledEventType inv.integrationEventHandlers [] event

theorem convertersScan (inv : Inventory) (event : String) :
    inv.index.convertersFor event =
      inv.integrationEventConverters.filter (fun v => v.domainEventType = event) :=
  groupGathered Converter.domainEventType inv.integrationEventConverters [] event

theorem outgoingScan (inv : Inventory) (source : String) :
    inv.index.outgoing source = inv.relationships.filter (fun r => r.sourceType = source) :=
  groupGathered Relationship.sourceType inv.relationships [] source

theorem outgoingOfScan (inv : Inventory) (kind : CallKind) (source : String) :
    inv.index.outgoingOf kind source =
      inv.relationships.filter (fun r => r.sourceType = source ∧ r.callType = kind.name) := by
  rw [Index.outgoingOf, outgoingScan, List.filter_filter]
  apply List.filter_congr
  intro r _
  rw [Relationship.isOf, Bool.beq_eq_decide_eq, Bool.decide_and, Bool.and_comm]

theorem memOutgoingOf {inv : Inventory} {kind : CallKind} {source : String} {r : Relationship} :
    r ∈ inv.index.outgoingOf kind source ↔
      r ∈ inv.relationships ∧ r.isOf kind = true ∧ r.sourceType = source := by
  simp [Index.outgoingOf, outgoingScan, and_comm, and_left_comm]

theorem handlerCommandsScan (inv : Inventory) (name : String) :
    inv.index.handlerCommands name = (inv.handlers.find? (fun h => h.fullName = name)).map (·.commands) := by
  have first (handlers : List Handler) :
      Table.get? name (handlers.foldl (fun table h => Table.insertNew h.fullName h table) []) =
        handlers.find? fun h => h.fullName = name := by
    refine (firstInserted (fun h : Handler => h.fullName) id handlers [] name).trans ?_
    rw [Option.map_id]
    rfl
  rw [handlers, List.find?_append, ← first, ← first]
  rfl

theorem entityScan (inv : Inventory) (name : String) :
    inv.index.entity name = inv.entities.find? (fun e => e.fullName = name) := by
  refine (firstInserted (fun e : Entity => e.fullName) id inv.entities [] name).trans ?_
  rw [Option.map_id]
  rfl

theorem categoryScan (inv : Inventory) (name : String) :
    inv.index.categoryOf name = (inv.elements.find? (fun e => e.fullName = name)).map (·.category) :=
  firstInserted (fun e : Listed => e.fullName) Listed.category inv.elements [] name

theorem knownIff {inv : Inventory} {name : String} :
    inv.index.isKnown name = true ↔ ∃ e ∈ inv.elements, e.fullName = name := by
  simp [Index.isKnown, categoryScan]

theorem listedKnown {inv : Inventory} {category : Category} {e : Listed} (mem : e ∈ inv.listed category) :
    inv.index.isKnown e.fullName = true :=
  knownIff.mpr ⟨e, List.mem_flatMap.mpr ⟨category, Category.memAll category, mem⟩, rfl⟩

theorem listedCategory {inv : Inventory} {category : Category} {e : Listed} (mem : e ∈ inv.listed category) :
    e.category = category := by
  cases category <;> simp only [listed, List.map_map, List.mem_map] at mem <;> obtain ⟨_, _, rfl⟩ := mem <;> rfl

theorem domainHandlerKnown {inv : Inventory} {h : Handler} (mem : h ∈ inv.domainEventHandlers) :
    inv.index.isKnown h.fullName = true := by
  have listed : (⟨h.toElement, .domainEventHandler, false⟩ : Listed) ∈ inv.listed .domainEventHandler := by
    simpa [listed] using ⟨h, mem, rfl⟩
  exact listedKnown listed

theorem integrationHandlerKnown {inv : Inventory} {h : Handler} (mem : h ∈ inv.integrationEventHandlers) :
    inv.index.isKnown h.fullName = true := by
  have listed : (⟨h.toElement, .integrationEventHandler, false⟩ : Listed) ∈
      inv.listed .integrationEventHandler := by
    simpa [listed] using ⟨h, mem, rfl⟩
  exact listedKnown listed

theorem handlerKnown {inv : Inventory} {h : Handler} (mem : h ∈ inv.handlers) :
    inv.index.isKnown h.fullName = true := by
  rcases List.mem_append.mp mem with domain | integration
  · exact domainHandlerKnown domain
  · exact integrationHandlerKnown integration

theorem converterKnown {inv : Inventory} {v : Converter} (mem : v ∈ inv.integrationEventConverters) :
    inv.index.isKnown v.fullName = true := by
  have listed : (⟨v.toElement, .integrationEventConverter, false⟩ : Listed) ∈
      inv.listed .integrationEventConverter := by
    simpa [listed] using ⟨v, mem, rfl⟩
  exact listedKnown listed

end Inventory

structure Index.Scans (ix : Index) (inv : Inventory) (name : String) : Prop where
  category : ix.categoryOf name = (inv.elements.find? (fun e => e.fullName = name)).map (·.category)
  known : ix.isKnown name = true ↔ ∃ e ∈ inv.elements, e.fullName = name
  entity : ix.entity name = inv.entities.find? (fun e => e.fullName = name)
  aggregateRoot : ix.isAggregateRoot name = true ↔
    ∃ e, inv.entities.find? (fun e => e.fullName = name) = some e ∧ e.isAggregateRoot = true
  commands : ix.handlerCommands name =
    ((inv.domainEventHandlers.find? (fun h => h.fullName = name)).or
      (inv.integrationEventHandlers.find? (fun h => h.fullName = name))).map (·.commands)
  domainHandlers : ix.domainHandlersFor name =
    inv.domainEventHandlers.filter (fun h => h.handledEventType = name)
  integrationHandlers : ix.integrationHandlersFor name =
    inv.integrationEventHandlers.filter (fun h => h.handledEventType = name)
  converters : ix.convertersFor name = inv.integrationEventConverters.filter (fun v => v.domainEventType = name)
  outgoing : ix.outgoing name = inv.relationships.filter (fun r => r.sourceType = name)
  outgoingOf : ∀ kind, ix.outgoingOf kind name =
    inv.relationships.filter (fun r => r.sourceType = name ∧ r.callType = kind.name)

theorem indexScans (inv : Inventory) (name : String) : inv.index.Scans inv name := by
  constructor
  case category => exact inv.categoryScan name
  case known => exact Inventory.knownIff
  case entity => exact inv.entityScan name
  case aggregateRoot => rw [Index.isAggregateRoot, inv.entityScan, Option.any_eq_true]
  case commands => rw [inv.handlerCommandsScan, Inventory.handlers, List.find?_append]
  case domainHandlers => exact inv.domainHandlersScan name
  case integrationHandlers => exact inv.integrationHandlersScan name
  case converters => exact inv.convertersScan name
  case outgoing => exact inv.outgoingScan name
  case outgoingOf => exact fun kind => inv.outgoingOfScan kind name

end FlowAtlas
