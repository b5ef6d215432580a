import FlowAtlas.Text.Segment
/-! Keys of the nodes of a chain: a whole type, or one of its methods. Their text puts two colons
between type and method. -/
namespace FlowAtlas

def simpleName (qualifiedName : String) : String :=
  String.ofList (Text.afterLast '.' qualifiedName.toList)

structure Key where
  typeName : String
  method : String := ""
  deriving DecidableEq, Repr, Inhabited

namespace Key

def separator : String := "::"

def parse (s : String) : Key :=
  match Text.splitFirst separator.toList s.toList with
  | some (typeName, method) => ⟨String.ofList typeName, String.ofList method⟩
  | none => ⟨s, ""⟩

def text (k : Key) : String :=
  if k.method = "" then k.typeName else k.typeName ++ separator ++ k.method

def simpleName (k : Key) : String :=
  let type := FlowAtlas.simpleName k.typeName
  if k.method = "" then type else type ++ "." ++ k.method

def le (a b : Key) : Bool :=
  decide (a.typeName < b.typeName) ||
    (a.typeName == b.typeName && !decide (b.method < a.method))

def sort (keys : List Key) : List Key := keys.mergeSort le

end Key

end FlowAtlas
