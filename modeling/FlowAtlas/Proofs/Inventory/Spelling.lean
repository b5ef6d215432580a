import FlowAtlas.Inventory.Document
/-! Which keys of an object spell which of its fields, and what a field is found as once all keys have small
first letters. An inventory reads fields in objects of two levels only: the document and its rows. -/
namespace FlowAtlas

open Schema (FieldName)

namespace Json

theorem lowerKeysItems (items : List Json) : lowerKeysList items = items.map lowerKeys := by
  induction items with
  | nil => rfl
  | cons v rest ih => rw [lowerKeysList, ih, List.map_cons]

/- Of the entries that come under one key the last one counts, and before them what was there already. -/
theorem loweredEntry (key : String) (fields done : List (String × Json)) :
    Table.get? key (lowerKeysFields fields done) =
      ((fields.filter fun e => lowerKey e.1 = key).getLast?.map fun e => e.2.lowerKeys).or
        (Table.get? key done) := by
  induction fields generalizing done with
  | nil => simp [lowerKeysFields]
  | cons e rest ih =>
    obtain ⟨k, v⟩ := e
    rw [lowerKeysFields, ih]
    by_cases same : lowerKey k = key
    · subst key
      rw [Table.getSetSame, List.filter_cons_of_pos (by simp), List.getLast?_cons]
      cases (rest.filter fun e => lowerKey e.1 = lowerKey k).getLast? <;> rfl
    · rw [Table.getSetOther (Ne.symm same), List.filter_cons_of_neg (by simpa using same)]

end Json

namespace Schema.FieldName

variable {α : Type}

def SpelledBy (f : FieldName) (key : String) : Prop := Json.lowerKey key = f.wire ∨ Json.lowerKey key = f.snake

instance (f : FieldName) (key : String) : Decidable (f.SpelledBy key) := inferInstanceAs (Decidable (_ ∨ _))

def entries (f : FieldName) (fields : List (String × α)) : List (String × α) := fields.filter fun e => f.SpelledBy e.1

theorem entriesMem {f : FieldName} {fields : List (String × α)} {e : String × α} :
    e ∈ f.entries fields ↔ e ∈ fields ∧ f.SpelledBy e.1 := by
  simp [entries]

theorem entriesCount (f : FieldName) (fields : List (String × α)) :
    (f.entries fields).length = (fields.map (·.1)).countP fun key => f.SpelledBy key := by
  rw [entries, ← List.countP_eq_length_filter, List.countP_map]
  rfl

theorem foundEntry (f : FieldName) {fields : List (String × Json)} (once : (f.entries fields).length ≤ 1) :
    f.find (Json.lowerKeysFields fields []) =
      (f.entries fields).head?.map fun e => (Json.lowerKey e.1, e.2.lowerKeys) := by
  have among : ∀ name, name = f.wire ∨ name = f.snake →
      (fields.filter fun e => Json.lowerKey e.1 = name) =
        (f.entries fields).filter fun e => Json.lowerKey e.1 = name := by
    intro name names
    rw [entries, List.filter_filter]
    apply List.filter_congr
    intro e _
    by_cases same : Json.lowerKey e.1 = name
    · have spelled : f.SpelledBy e.1 := by rw [SpelledBy, same]; exact names
      simp [same, spelled]
    · simp [same]
  unfold find
  rw [Json.loweredEntry, Json.loweredEntry, among f.wire (.inl rfl), among f.snake (.inr rfl)]
  cases found : f.entries fields with
  | nil => rfl
  | cons e rest =>
    rw [found, List.length_cons] at once
    have single : rest = [] := List.length_eq_zero_iff.mp (by omega)
    subst rest
    have mem : e ∈ f.entries fields := by rw [found]; exact List.mem_singleton_self e
    have spelled : f.SpelledBy e.1 := (entriesMem.mp mem).2
    by_cases wire : Json.lowerKey e.1 = f.wire
    · simp [wire]
    · have snake := spelled.resolve_left wire
      have different : f.snake ≠ f.wire := snake ▸ wire
      simp [snake, different, Table.get?]

end Schema.FieldName

inductive Row
  | controller
  | element
  | entity
  | handler
  | converter
  | relationship
  deriving DecidableEq, Repr

def Row.fields : Row → List FieldName
  | controller => [Field.name, Field.fullName, Field.methods]
  | element => [Field.name, Field.fullName]
  | entity => [Field.name, Field.fullName, Field.isAggregateRoot, Field.methods]
  | handler => [Field.name, Field.fullName, Field.handledEventType, Field.handlerCommands]
  | converter => [Field.name, Field.fullName, Field.domainEventType, Field.integrationEventType]
  | relationship => [Field.sourceType, Field.sourceMethod, Field.targetType, Field.targetMethod, Field.callType]

/-- Where in a document a value stands. No fields are read in objects outside the document itself and its rows. -/
inductive Spot
  | document
  | collection (row : Row)
  | row (row : Row)
  | plain
  deriving DecidableEq, Repr

namespace Spot

def fields : Spot → List (FieldName × Spot)
  | document =>
    [(Field.controllers, .collection .controller), (Field.commands, .collection .element),
      (Field.entities, .collection .entity), (Field.domainEvents, .collection .element),
      (Field.integrationEvents, .collection .element), (Field.domainEventHandlers, .collection .handler),
      (Field.integrationEventHandlers, .collection .handler),
      (Field.integrationEventConverters, .collection .converter), (Field.relationships, .collection .relationship)]
  | row r => r.fields.map fun f => (f, plain)
  | collection _ => []
  | plain => []

def item : Spot → Spot
  | collection r => row r
  | _ => plain

theorem namesApart (spot : Spot) : ∀ one ∈ spot.fields, ∀ other ∈ spot.fields, one = other ∨
    (one.1.wire ≠ other.1.wire ∧ one.1.wire ≠ other.1.snake) ∧
      one.1.snake ≠ other.1.wire ∧ one.1.snake ≠ other.1.snake := by
  cases spot with
  | document => decide
  | collection r => simp [fields]
  | row r => cases r <;> decide
  | plain => simp [fields]

theorem namesNodup (spot : Spot) : (spot.fields.map (·.1)).Nodup := by
  cases spot with
  | document => decide
  | collection r => exact .nil
  | row r => cases r <;> decide
  | plain => exact .nil

theorem spelledOnce {spot : Spot} {one other : FieldName × Spot} (first : one ∈ spot.fields)
    (second : other ∈ spot.fields) {key : String} (spelled : one.1.SpelledBy key) (again : other.1.SpelledBy key) :
    one = other := by
  refine (spot.namesApart one first other second).resolve_right ?_
  intro ⟨⟨wires, wireSnake⟩, snakeWire, snakes⟩
  cases spelled with
  | inl wire =>
    cases again with
    | inl same => exact wires (wire.symm.trans same)
    | inr same => exact wireSnake (wire.symm.trans same)
  | inr snake =>
    cases again with
    | inl same => exact snakeWire (snake.symm.trans same)
    | inr same => exact snakes (snake.symm.trans same)

end Spot

inductive Spelling
  | camel
  | pascal
  | snake
  deriving DecidableEq, Repr

namespace Spelling

def key : Spelling → String → String
  | camel, key => key
  | pascal, key => String.ofList (key.toList.modifyHead Char.toUpper)
  | snake, key => String.ofList (key.toList.flatMap fun c => if c.isUpper then ['_', c.toLower] else [c])

theorem lowered (spot : Spot) : ∀ entry ∈ spot.fields, Json.lowerKey entry.1.wire = entry.1.wire ∧
    Json.lowerKey (pascal.key entry.1.wire) = entry.1.wire ∧
    snake.key entry.1.wire = entry.1.snake ∧ Json.lowerKey entry.1.snake = entry.1.snake := by
  cases spot with
  | document => decide +kernel
  | collection r => simp [Spot.fields]
  | row r => cases r <;> decide +kernel
  | plain => simp [Spot.fields]

theorem spells (s : Spelling) (spot : Spot) : ∀ entry ∈ spot.fields, entry.1.SpelledBy (s.key entry.1.wire) := by
  intro entry field
  obtain ⟨wire, capital, parts, small⟩ := lowered spot entry field
  cases s with
  | camel => exact .inl wire
  | pascal => exact .inl capital
  | snake =>
    rw [parts]
    exact .inr small

end Spelling

end FlowAtlas
