import FlowAtlas.Number.Shortest
import FlowAtlas.Table
/-! Values of a JSON document. The fields of an object keep their order; a key occurs once. -/
namespace FlowAtlas

inductive Json
  | null
  | bool (value : Bool)
  | int (value : Int)
  | float (value : Binary64)
  | text (value : String)
  | array (items : List Json)
  | object (fields : List (String × Json))
  deriving Repr, Inhabited

namespace Json

def texts (items : List String) : Json := .array (items.map .text)

end Json

end FlowAtlas
