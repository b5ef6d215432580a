/-! Checking a document: every issue is reported, with its place and what is wrong there. A checked
value is either good or refused with its issues, and checking several parts gathers the issues of all
of them in order. -/
namespace FlowAtlas.Schema

inductive Step
  | field (name : String)
  | item (index : Nat)
  deriving DecidableEq, Repr

inductive Fault
  | missing
  | notText
  | notUnicode
  | notList
  | notObject (expected : String)
  | notBool
  | unreadableBool
  | notInt
  | unreadableInt
  | oversizedInt
  | fractionalInt
  | notFinite
  | tooSmall (least : Int)
  | rejected (reason : String)
  deriving DecidableEq, Repr

namespace Fault

def code : Fault → String
  | missing => "missing"
  | notText => "string_type"
  | notUnicode => "string_unicode"
  | notList => "list_type"
  | notObject _ => "model_type"
  | notBool => "bool_type"
  | unreadableBool => "bool_parsing"
  | notInt => "int_type"
  | unreadableInt => "int_parsing"
  | oversizedInt => "int_parsing_size"
  | fractionalInt => "int_from_float"
  | notFinite => "finite_number"
  | tooSmall _ => "greater_than_equal"
  | rejected _ => "value_error"

def message : Fault → String
  | missing => "Field required"
  | notText => "Input should be a valid string"
  | notUnicode => "Input should be a valid string, unable to parse raw data as a unicode string"
  | notList => "Input should be a valid list"
  | notObject expected => "Input should be a valid dictionary or instance of " ++ expected
  | notBool => "Input should be a valid boolean"
  | unreadableBool => "Input should be a valid boolean, unable to interpret input"
  | notInt => "Input should be a valid integer"
  | unreadableInt => "Input should be a valid integer, unable to parse string as an integer"
  | oversizedInt => "Unable to parse input string as an integer, exceeded maximum size"
  | fractionalInt => "Input should be a valid integer, got a number with a fractional part"
  | notFinite => "Input should be a finite number"
  | tooSmall least => "Input should be greater than or equal to " ++ toString least
  | rejected reason => "Value error, " ++ reason

end Fault

structure Issue where
  place : List Step
  fault : Fault
  deriving DecidableEq, Repr

inductive Checked (α : Type)
  | good (value : α)
  | refused (issues : List Issue)
  deriving DecidableEq, Repr

namespace Checked

variable {α β : Type}

def map (f : α → β) : Checked α → Checked β
  | good a => good (f a)
  | refused issues => refused issues

def seq : Checked (α → β) → Checked α → Checked β
  | good f, good a => good (f a)
  | good _, refused issues => refused issues
  | refused issues, good _ => refused issues
  | refused issues, refused more => refused (issues ++ more)

instance : Applicative Checked where
  pure := good
  map := map
  seq f a := seq f (a ())

def fail (fault : Fault) : Checked α := refused [⟨[], fault⟩]

def within (step : Step) : Checked α → Checked α
  | good a => good a
  | refused issues => refused (issues.map fun i => { i with place := step :: i.place })

def andThen (a : Checked α) (check : α → Checked β) : Checked β :=
  match a with
  | good a => check a
  | refused issues => refused issues

def items (check : α → Checked β) (index : Nat) : List α → Checked (List β)
  | [] => good []
  | a :: rest => List.cons <$> within (.item index) (check a) <*> items check (index + 1) rest

end Checked

end FlowAtlas.Schema
