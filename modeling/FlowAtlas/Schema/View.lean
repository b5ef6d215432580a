import FlowAtlas.Number.Binary64
import FlowAtlas.Schema.Numeral
import FlowAtlas.Table
import FlowAtlas.Text.LowerCase
/-! What a check sees of a value, one level deep, and the lenient readings of texts, truth values,
integers, lists and objects. -/
namespace FlowAtlas.Schema

inductive View (α : Type)
  | null
  | bool (value : Bool)
  | int (value : Int)
  | float (value : Binary64)
  | text (value : String)
  | badText
  | list (items : List α)
  | object (fields : List (String × α))
  deriving Repr

class Viewed (α : Type) where
  view : α → View α

def falseWords : List String := ["0", "off", "f", "false", "n", "no"]

def trueWords : List String := ["1", "on", "t", "true", "y", "yes"]

def readBool (s : String) : Option Bool :=
  let word := String.ofList (Text.lowerAscii s.toList)
  if falseWords.contains word then some false
  else if trueWords.contains word then some true
  else none

def fitsWord (i : Int) : Bool := -0x8000000000000000 ≤ i && i < 0x8000000000000000

def isWithinWord (i : Int) : Bool := -0x8000000000000000 < i && i < 0x8000000000000000

namespace View

variable {α : Type}

def asText : View α → Checked String
  | text s => .good s
  | badText => .fail .notUnicode
  | _ => .fail .notText

/-- Zero and one count as truth values, and so do some words; a number of more than one machine word is
not looked at. -/
def asBool : View α → Checked Bool
  | bool b => .good b
  | int i =>
    if i = 0 then .good false
    else if i = 1 then .good true
    else .fail (if fitsWord i then .unreadableBool else .notBool)
  | float x =>
    match x.toInt? with
    | some i =>
      if i = 0 then .good false
      else if i = 1 then .good true
      else .fail (if isWithinWord i then .unreadableBool else .notBool)
    | none => .fail .notBool
  | text s => ((readBool s).map .good).getD (.fail .unreadableBool)
  | badText => .fail .unreadableBool
  | _ => .fail .notBool

def asInt : View α → Checked Int
  | bool b => .good (if b then 1 else 0)
  | int i => .good i
  | float x =>
    match x, x.toInt? with
    | .finite .., some i => if isWithinWord i then .good i else .fail .oversizedInt
    | .finite .., none => .fail .fractionalInt
    | _, _ => .fail .notFinite
  | text s =>
    match Numeral.read s.toList with
    | .ok i => .good i
    | .error fault => .fail fault
  | badText => .fail .unreadableInt
  | _ => .fail .notInt

def asList : View α → Checked (List α)
  | list items => .good items
  | _ => .fail .notList

def asObject (expected : String) : View α → Checked (List (String × α))
  | object fields => .good fields
  | _ => .fail (.notObject expected)

end View

structure FieldName where
  wire : String
  snake : String
  deriving DecidableEq, Repr

def FieldName.word (name : String) : FieldName := ⟨name, name⟩

variable {α β : Type}

def FieldName.find (name : FieldName) (fields : List (String × α)) : Option (String × α) :=
  match Table.get? name.wire fields with
  | some a => some (name.wire, a)
  | none => (Table.get? name.snake fields).map fun a => (name.snake, a)

def required (name : FieldName) (check : α → Checked β) (fields : List (String × α)) : Checked β :=
  match name.find fields with
  | some (found, a) => (check a).within (.field found)
  | none => .refused [⟨[.field name.wire], .missing⟩]

def optional (name : FieldName) (default : β) (check : α → Checked β) (fields : List (String × α)) :
    Checked β :=
  match name.find fields with
  | some (found, a) => (check a).within (.field found)
  | none => .good default

section

variable [Viewed α]

def text (a : α) : Checked String := (Viewed.view a).asText

def bool (a : α) : Checked Bool := (Viewed.view a).asBool

def int (a : α) : Checked Int := (Viewed.view a).asInt

def listOf (check : α → Checked β) (a : α) : Checked (List β) :=
  (Viewed.view a).asList.andThen (Checked.items check 0)

def object (expected : String) (check : List (String × α) → Checked β) (a : α) : Checked β :=
  ((Viewed.view a).asObject expected).andThen check

end

end FlowAtlas.Schema
