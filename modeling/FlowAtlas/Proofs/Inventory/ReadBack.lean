import FlowAtlas.Proofs.Inventory.Spelling
/-! What an inventory is written as reads back as the same inventory, also when all its keys are respelled.
Reading is therefore a retraction onto written documents: it settles after one round. -/
namespace FlowAtlas

open Schema (Checked FieldName required optional listOf)

namespace Json

mutual

def respelled (s : Spelling) : Json → Json
  | array items => .array (respelledItems s items)
  | object fields => .object (respelledFields s fields)
  | null => null
  | bool b => bool b
  | int i => int i
  | float x => float x
  | text t => text t

def respelledItems (s : Spelling) : List Json → List Json
  | [] => []
  | v :: rest => respelled s v :: respelledItems s rest

def respelledFields (s : Spelling) : List (String × Json) → List (String × Json)
  | [] => []
  | (k, v) :: rest => (s.key k, respelled s v) :: respelledFields s rest

end

theorem respelledItemsMap (s : Spelling) (items : List Json) : respelledItems s items = items.map (respelled s) := by
  induction items with
  | nil => rfl
  | cons v rest ih => rw [respelledItems, ih, List.map_cons]

theorem respelledFieldsMap (s : Spelling) (fields : List (String × Json)) :
    respelledFields s fields = fields.map fun e => (s.key e.1, e.2.respelled s) := by
  induction fields with
  | nil => rfl
  | cons e rest ih => rw [respelledFields, ih, List.map_cons]

mutual

theorem respelledCamel : (v : Json) → v.respelled .camel = v
  | array items => by rw [respelled, respelledItemsCamel items]
  | object fields => by rw [respelled, respelledFieldsCamel fields]
  | null => rfl
  | bool _ => rfl
  | int _ => rfl
  | float _ => rfl
  | text _ => rfl

theorem respelledItemsCamel : (items : List Json) → respelledItems .camel items = items
  | [] => rfl
  | v :: rest => by rw [respelledItems, respelledCamel v, respelledItemsCamel rest]

theorem respelledFieldsCamel : (fields : List (String × Json)) → respelledFields .camel fields = fields
  | [] => rfl
  | (k, v) :: rest => by rw [respelledFields, respelledCamel v, respelledFieldsCamel rest]; rfl

end

def seen (s : Spelling) (v : Json) : Json := (v.respelled s).lowerKeys

theorem seenArray (s : Spelling) (items : List Json) : (array items).seen s = array (items.map (seen s)) := by
  simp [seen, respelled, lowerKeys, respelledItemsMap, lowerKeysItems, List.map_map, Function.comp_def]

end Json

def Holds (s : Spelling) (written : List (FieldName × Json)) (fields : List (String × Json)) : Prop :=
  ∀ e ∈ written, ∃ key, e.1.find fields = some (key, e.2.seen s)

section

variable {s : Spelling} {spot : Spot} {written : List (FieldName × Json)} {fields : List (String × Json)} {f : FieldName}
  {v : Json} {α : Type} {x : α}

theorem Holds.required {check : Json → Checked α} (holds : Holds s written fields) (mem : (f, v) ∈ written)
    (reads : check (v.seen s) = .good x) : Schema.required f check fields = .good x := by
  obtain ⟨key, found⟩ := holds _ mem
  simp only at found
  rw [Schema.required, found]
  simp only [reads, Checked.within]

theorem Holds.optional {check : Json → Checked α} (holds : Holds s written fields) (mem : (f, v) ∈ written) (default : α)
    (reads : check (v.seen s) = .good x) : Schema.optional f default check fields = .good x := by
  obtain ⟨key, found⟩ := holds _ mem
  simp only at found
  rw [Schema.optional, found]
  simp only [reads, Checked.within]

theorem Holds.first {more : List (FieldName × Json)} (holds : Holds s (written ++ more) fields) : Holds s written fields :=
  fun e mem => holds e (List.mem_append_left more mem)

theorem singleEntry {e : FieldName × α} {entries : List (FieldName × α)} (distinct : (entries.map (·.1)).Nodup)
    (mem : e ∈ entries) : entries.filter (fun o => o.1 = e.1) = [e] := by
  induction entries with
  | nil => cases mem
  | cons o rest ih =>
    obtain ⟨fresh, distinct⟩ := List.nodup_cons.mp distinct
    rcases List.mem_cons.mp mem with rfl | mem
    · have others : rest.filter (fun o => o.1 = e.1) = [] :=
        List.filter_eq_nil_iff.mpr fun o mem same => fresh (List.mem_map.mpr ⟨o, mem, of_decide_eq_true same⟩)
      rw [List.filter_cons_of_pos (by simp), others]
    · have different : o.1 ≠ e.1 := fun same => fresh (List.mem_map.mpr ⟨e, mem, same.symm⟩)
      rw [List.filter_cons_of_neg (by simpa using different), ih distinct mem]

/- In every spelling a written key spells its own field and no other field of the object. -/
theorem writtenEntry (names : written.map (·.1) = spot.fields.map (·.1)) {e : FieldName × Json} (mem : e ∈ written) :
    e.1.entries (written.map fun o => (s.key o.1.wire, o.2.respelled s)) = [(s.key e.1.wire, e.2.respelled s)] := by
  have among : ∀ o ∈ written, ∃ below, (o.1, below) ∈ spot.fields := by
    intro o mem
    have name : o.1 ∈ spot.fields.map (·.1) := names ▸ List.mem_map_of_mem mem
    obtain ⟨⟨_, below⟩, mem, same⟩ := List.mem_map.mp name
    exact ⟨below, same ▸ mem⟩
  have spells : ∀ o ∈ written, o.1.SpelledBy (s.key o.1.wire) := by
    intro o mem
    obtain ⟨below, field⟩ := among o mem
    exact s.spells spot (o.1, below) field
  have own : ∀ o ∈ written, decide (e.1.SpelledBy (s.key o.1.wire)) = decide (o.1 = e.1) := by
    intro o other
    rw [decide_eq_decide]
    constructor
    · intro spelled
      obtain ⟨_, field⟩ := among o other
      obtain ⟨_, field'⟩ := among e mem
      exact (Prod.mk.inj (Spot.spelledOnce field field' (spells o other) spelled)).1
    · intro same
      rw [← same]
      exact spells o other
  rw [FieldName.entries, List.filter_map]
  simp only [Function.comp_def]
  rw [List.filter_congr own, singleEntry (names ▸ spot.namesNodup) mem, List.map_singleton]

theorem readObject {expected : String} {check : List (String × Json) → Checked α}
    (names : written.map (·.1) = spot.fields.map (·.1)) (reads : ∀ fields, Holds s written fields → check fields = .good x) :
    Schema.object expected check ((Json.object (written.map fun e => (e.1.wire, e.2))).seen s) = .good x := by
  simp only [Json.seen, Json.respelled, Json.respelledFieldsMap, List.map_map, Function.comp_def]
  apply reads
  intro e mem
  have entry := writtenEntry (s := s) names mem
  rw [e.1.foundEntry (by simp [entry]), entry]
  exact ⟨_, rfl⟩

theorem readItems {check : Json → Checked α} {write : α → Json} (items : List α)
    (reads : ∀ x ∈ items, check ((write x).seen s) = .good x) :
    listOf check ((Json.array (items.map write)).seen s) = .good items := by
  rw [Json.seenArray]
  have readFrom : ∀ first, Checked.items check first ((items.map write).map (Json.seen s)) = .good items := by
    induction items with
    | nil => exact fun _ => rfl
    | cons x rest ih =>
      intro first
      simp only [List.map_cons, Checked.items]
      rw [reads x List.mem_cons_self, ih (fun y mem => reads y (List.mem_cons_of_mem _ mem))]
      rfl
  exact readFrom 0

theorem readText (t : String) : Schema.text ((Json.text t).seen s) = .good t := rfl

theorem readTexts (items : List String) : listOf Schema.text ((Json.texts items).seen s) = .good items :=
  readItems items fun t _ => readText t

theorem readBool (b : Bool) : Schema.bool ((Json.bool b).seen s) = .good b := rfl

end

variable {s : Spelling}

def Element.written (e : Element) : List (FieldName × Json) :=
  [(Field.name, .text e.name), (Field.fullName, .text e.fullName)]

def Controller.written (c : Controller) : List (FieldName × Json) :=
  c.toElement.written ++ [(Field.methods, .texts c.methods)]

def Entity.written (e : Entity) : List (FieldName × Json) :=
  e.toElement.written ++ [(Field.isAggregateRoot, .bool e.isAggregateRoot), (Field.methods, .texts e.methods)]

def Handler.written (h : Handler) : List (FieldName × Json) :=
  h.toElement.written ++ [(Field.handledEventType, .text h.handledEventType), (Field.handlerCommands, .texts h.commands)]

def Converter.written (c : Converter) : List (FieldName × Json) :=
  c.toElement.written ++
    [(Field.domainEventType, .text c.domainEventType), (Field.integrationEventType, .text c.integrationEventType)]

def Relationship.written (r : Relationship) : List (FieldName × Json) :=
  [(Field.sourceType, .text r.sourceType), (Field.sourceMethod, .text r.sourceMethod),
    (Field.targetType, .text r.targetType), (Field.targetMethod, .text r.targetMethod), (Field.callType, .text r.callType)]

theorem Element.readFields {fields : List (String × Json)} {e : Element} (holds : Holds s e.written fields) :
    Element.checkFields fields = .good e := by
  have name : required Field.name Schema.text fields = .good e.name :=
    holds.required (by simp [Element.written]) (readText _)
  have fullName : required Field.fullName Schema.text fields = .good e.fullName :=
    holds.required (by simp [Element.written]) (readText _)
  rw [Element.checkFields, name, fullName]
  rfl

theorem Element.readBack (expected : String) (e : Element) : Element.check expected (e.toJson.seen s) = .good e := by
  have names : e.written.map (·.1) = (Spot.row .element).fields.map (·.1) := rfl
  have toJson : e.toJson = .object (e.written.map fun e => (e.1.wire, e.2)) := rfl
  rw [toJson]
  exact readObject names fun _ holds => Element.readFields holds

theorem Controller.readBack (c : Controller) : Controller.check (c.toJson.seen s) = .good c := by
  have names : c.written.map (·.1) = (Spot.row .controller).fields.map (·.1) := rfl
  have toJson : c.toJson = .object (c.written.map fun e => (e.1.wire, e.2)) := rfl
  rw [toJson]
  refine readObject names fun fields holds => ?_
  have methods : optional Field.methods [] (listOf Schema.text) fields = .good c.methods :=
    holds.optional (by simp [Controller.written]) [] (readTexts _)
  rw [Element.readFields holds.first, methods]
  rfl

theorem Entity.readBack (e : Entity) : Entity.check (e.toJson.seen s) = .good e := by
  have names : e.written.map (·.1) = (Spot.row .entity).fields.map (·.1) := rfl
  have toJson : e.toJson = .object (e.written.map fun e => (e.1.wire, e.2)) := rfl
  rw [toJson]
  refine readObject names fun fields holds => ?_
  have isAggregateRoot : optional Field.isAggregateRoot false Schema.bool fields = .good e.isAggregateRoot :=
    holds.optional (by simp [Entity.written]) false (readBool _)
  have methods : optional Field.methods [] (listOf Schema.text) fields = .good e.methods :=
    holds.optional (by simp [Entity.written]) [] (readTexts _)
  rw [Element.readFields holds.first, isAggregateRoot, methods]
  rfl

theorem Handler.readBack (expected : String) (h : Handler) : Handler.check expected (h.toJson.seen s) = .good h := by
  have names : h.written.map (·.1) = (Spot.row .handler).fields.map (·.1) := rfl
  have toJson : h.toJson = .object (h.written.map fun e => (e.1.wire, e.2)) := rfl
  rw [toJson]
  refine readObject names fun fields holds => ?_
  have handledEventType : optional Field.handledEventType "" Schema.text fields = .good h.handledEventType :=
    holds.optional (by simp [Handler.written]) "" (readText _)
  have commands : optional Field.handlerCommands [] (listOf Schema.text) fields = .good h.commands :=
    holds.optional (by simp [Handler.written]) [] (readTexts _)
  rw [Element.readFields holds.first, handledEventType, commands]
  rfl

theorem Converter.readBack (c : Converter) : Converter.check (c.toJson.seen s) = .good c := by
  have names : c.written.map (·.1) = (Spot.row .converter).fields.map (·.1) := rfl
  have toJson : c.toJson = .object (c.written.map fun e => (e.1.wire, e.2)) := rfl
  rw [toJson]
  refine readObject names fun fields holds => ?_
  have domainEventType : optional Field.domainEventType "" Schema.text fields = .good c.domainEventType :=
    holds.optional (by simp [Converter.written]) "" (readText _)
  have integrationEventType : optional Field.integrationEventType "" Schema.text fields = .good c.integrationEventType :=
    holds.optional (by simp [Converter.written]) "" (readText _)
  rw [Element.readFields holds.first, domainEventType, integrationEventType]
  rfl

theorem Relationship.readBack (r : Relationship) : Relationship.check (r.toJson.seen s) = .good r := by
  have names : r.written.map (·.1) = (Spot.row .relationship).fields.map (·.1) := rfl
  have toJson : r.toJson = .object (r.written.map fun e => (e.1.wire, e.2)) := rfl
  rw [toJson]
  refine readObject names fun fields holds => ?_
  have sourceType : required Field.sourceType Schema.text fields = .good r.sourceType :=
    holds.required (by simp [Relationship.written]) (readText _)
  have sourceMethod : optional Field.sourceMethod "" Schema.text fields = .good r.sourceMethod :=
    holds.optional (by simp [Relationship.written]) "" (readText _)
  have targetType : required Field.targetType Schema.text fields = .good r.targetType :=
    holds.required (by simp [Relationship.written]) (readText _)
  have targetMethod : optional Field.targetMethod "" Schema.text fields = .good r.targetMethod :=
    holds.optional (by simp [Relationship.written]) "" (readText _)
  have callType : required Field.callType Schema.text fields = .good r.callType :=
    holds.required (by simp [Relationship.written]) (readText _)
  rw [sourceType, sourceMethod, targetType, targetMethod, callType]
  rfl

theorem Holds.collection {α : Type} {written : List (FieldName × Json)} {fields : List (String × Json)} {f : FieldName}
    {items : List α} {write : α → Json} {check : Json → Checked α} (holds : Holds s written fields)
    (mem : (f, .array (items.map write)) ∈ written) (reads : ∀ x, check ((write x).seen s) = .good x) :
    Schema.optional f [] (listOf check) fields = .good items :=
  holds.optional mem [] (readItems items fun x _ => reads x)

namespace Inventory

def written (inv : Inventory) : List (FieldName × Json) :=
  [(Field.controllers, .array (inv.controllers.map (·.toJson))),
    (Field.commands, .array (inv.commands.map (·.toJson))),
    (Field.entities, .array (inv.entities.map (·.toJson))),
    (Field.domainEvents, .array (inv.domainEvents.map (·.toJson))),
    (Field.integrationEvents, .array (inv.integrationEvents.map (·.toJson))),
    (Field.domainEventHandlers, .array (inv.domainEventHandlers.map (·.toJson))),
    (Field.integrationEventHandlers, .array (inv.integrationEventHandlers.map (·.toJson))),
    (Field.integrationEventConverters, .array (inv.integrationEventConverters.map (·.toJson))),
    (Field.relationships, .array (inv.relationships.map (·.toJson)))]

theorem readFields (inv : Inventory) :
    Schema.object "AnalysisResult" checkFields (inv.toJson.seen s) = .good inv := by
  have names : inv.written.map (·.1) = Spot.document.fields.map (·.1) := rfl
  have toJson : inv.toJson = .object (inv.written.map fun e => (e.1.wire, e.2)) := rfl
  rw [toJson]
  refine readObject names fun fields holds => ?_
  have controllers : optional Field.controllers [] (listOf Controller.check) fields = .good inv.controllers :=
    holds.collection (by simp [written]) Controller.readBack
  have commands : optional Field.commands [] (listOf (Element.check _)) fields = .good inv.commands :=
    holds.collection (by simp [written]) (Element.readBack "CommandInfo")
  have entities : optional Field.entities [] (listOf Entity.check) fields = .good inv.entities :=
    holds.collection (by simp [written]) Entity.readBack
  have domainEvents : optional Field.domainEvents [] (listOf (Element.check _)) fields = .good inv.domainEvents :=
    holds.collection (by simp [written]) (Element.readBack "DomainEventInfo")
  have integrationEvents :
      optional Field.integrationEvents [] (listOf (Element.check _)) fields = .good inv.integrationEvents :=
    holds.collection (by simp [written]) (Element.readBack "IntegrationEventInfo")
  have domainEventHandlers :
      optional Field.domainEventHandlers [] (listOf (Handler.check _)) fields = .good inv.domainEventHandlers :=
    holds.collection (by simp [written]) (Handler.readBack "DomainEventHandlerInfo")
  have integrationEventHandlers :
      optional Field.integrationEventHandlers [] (listOf (Handler.check _)) fields = .good inv.integrationEventHandlers :=
    holds.collection (by simp [written]) (Handler.readBack "IntegrationEventHandlerInfo")
  have converters :
      optional Field.integrationEventConverters [] (listOf Converter.check) fields = .good inv.integrationEventConverters :=
    holds.collection (by simp [written]) Converter.readBack
  have relationships : optional Field.relationships [] (listOf Relationship.check) fields = .good inv.relationships :=
    holds.collection (by simp [written]) Relationship.readBack
  rw [checkFields, controllers, commands, entities, domainEvents, integrationEvents, domainEventHandlers,
    integrationEventHandlers, converters, relationships]
  rfl

theorem accepted {d : Json} {inv : Inventory}
    (good : Schema.object "AnalysisResult" checkFields d.lowerKeys = .good inv) : ofJson d = .ok inv := by
  unfold ofJson
  cases lowered : d.lowerKeys with
  | object fields =>
    rw [lowered] at good
    have good : checkFields fields = .good inv := good
    simp only [good]
  | _ =>
    rw [lowered] at good
    cases good

theorem readingSettles : (∀ inv : Inventory, ofJson inv.toJson = .ok inv) ∧
    ∀ (d : Json) (inv : Inventory), ofJson d = .ok inv →
      ofJson inv.toJson = .ok inv ∧ ∀ s : Spelling, ofJson (inv.toJson.respelled s) = .ok inv := by
  have spelled : ∀ (inv : Inventory) (s : Spelling), ofJson (inv.toJson.respelled s) = .ok inv :=
    fun inv s => accepted (readFields inv)
  have plain : ∀ inv : Inventory, ofJson inv.toJson = .ok inv := by
    intro inv
    rw [← inv.toJson.respelledCamel]
    exact spelled inv .camel
  exact ⟨plain, fun d inv _ => ⟨plain inv, spelled inv⟩⟩

def loose : Json :=
  .object [("Entities", .array [.object [("full_name", .text "Shop.Cart"), ("Name", .text "Cart"),
    ("IsAggregateRoot", .text "Yes")]]), ("version", .null)]

def cart : Inventory := { entities := [⟨⟨"Cart", "Shop.Cart"⟩, true, []⟩] }

theorem looseSettles : ofJson loose = .ok cart ∧ ofJson cart.toJson = .ok cart ∧
    ofJson (cart.toJson.respelled .pascal) = .ok cart ∧ ofJson (cart.toJson.respelled .snake) = .ok cart := by
  have read : ofJson loose = .ok cart := rfl
  obtain ⟨plain, spelled⟩ := readingSettles.2 loose cart read
  exact ⟨read, plain, spelled .pascal, spelled .snake⟩

end Inventory

end FlowAtlas
