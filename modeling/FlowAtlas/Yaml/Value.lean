import FlowAtlas.Schema.View
import FlowAtlas.Text.Utf8
import FlowAtlas.Yaml.Building
import FlowAtlas.Yaml.Node.Reader
/-! Values of YAML texts, as checks see them. -/
namespace FlowAtlas.Yaml

structure Value where
  object : Object
  objects : Array Object := #[]
  deriving DecidableEq, Repr

namespace Value

def ofText (text : String) : Except Fault Value := do
  match ← Document.ofText? text.toList with
  | some document =>
    let objects ← document.objects
    return ⟨objects.getD document.root .null, objects⟩
  | none => return ⟨.null, #[]⟩

def part (v : Value) (id : Nat) : Value := { v with object := v.objects.getD id .null }

def textFields (v : Value) (entries : List (Nat × Nat)) : List (String × Value) :=
  entries.foldl (fun fields (key, value) =>
    match (v.part key).object with
    | .text name => Table.set name (v.part value) fields
    | _ => fields) []

/-- Bytes are read as text; a moment is like nothing that a check accepts. -/
instance : Schema.Viewed Value where
  view v :=
    match v.object with
    | .null => .null
    | .bool b => .bool b
    | .int i => .int i
    | .float x => .float x
    | .text s => .text s
    | .bytes b =>
      match Text.Utf8.decode b with
      | .ok s => .text s
      | .error _ => .badText
    | .moment _ => .null
    | .list items => .list (items.map v.part)
    | .pairs items => .list (items.map fun (key, value) => { v with object := .list [key, value] })
    | .set items => .list (items.map v.part)
    | .mapping entries => .object (v.textFields entries)

end Value

end FlowAtlas.Yaml
