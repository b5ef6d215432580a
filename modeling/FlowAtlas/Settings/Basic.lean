import FlowAtlas.Page.Basic
import FlowAtlas.Schema.View
/-! Settings of a project: the title of its page, how many methods a class block shows, and which
overviews the page has. -/
namespace FlowAtlas

structure Settings where
  title : String := Page.defaultTitle
  methodLimit : Nat := defaultMethodLimit
  diagrams : List DiagramKind := DiagramKind.all
  deriving DecidableEq, Repr

namespace Settings

open Schema (Checked FieldName)

def titleField : FieldName := .word "title"
def methodLimitField : FieldName := .word "max_class_methods"
def diagramsField : FieldName := .word "diagrams"

def checkLimit (limit : Int) : Checked Nat := if limit < 0 then .fail (.tooSmall 0) else .good limit.toNat

def checkKinds (names : List String) : Checked (List DiagramKind) :=
  match names.filter fun name => (DiagramKind.ofName? name).isNone with
  | [] => .good (names.filterMap DiagramKind.ofName?)
  | unknown => .fail (.rejected ("unknown diagram kind(s): " ++ joinTexts ", " unknown))

variable {α : Type} [Schema.Viewed α]

def checkFields (fields : List (String × α)) : Checked Settings :=
  Settings.mk <$> Schema.optional titleField Page.defaultTitle Schema.text fields <*>
    Schema.optional methodLimitField defaultMethodLimit
      (fun v => (Schema.int v).andThen checkLimit) fields <*>
    Schema.optional diagramsField DiagramKind.all
      (fun v => (Schema.listOf Schema.text v).andThen checkKinds) fields

def check : α → Checked Settings := Schema.object "RenderConfig" checkFields

end Settings

end FlowAtlas
