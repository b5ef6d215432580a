import FlowAtlas.Json.Value
import FlowAtlas.Text.Quoted
/-! How values appear inside messages: texts in quotes, the plain values under names of their own. -/
namespace FlowAtlas.Json

mutual

def quotedForm : Json → String
  | null => "None"
  | bool true => "True"
  | bool false => "False"
  | int i => toString i
  | float x => x.text
  | text s => quoted s
  | array items => "[" ++ quotedItems items ++ "]"
  | object fields => "\x7b" ++ quotedFields fields ++ "\x7d"

def quotedItems : List Json → String
  | [] => ""
  | [v] => quotedForm v
  | v :: rest => quotedForm v ++ ", " ++ quotedItems rest

def quotedFields : List (String × Json) → String
  | [] => ""
  | [(k, v)] => quoted k ++ ": " ++ quotedForm v
  | (k, v) :: rest => quoted k ++ ": " ++ quotedForm v ++ ", " ++ quotedFields rest

end

def shownForm : Json → String
  | text s => s
  | v => quotedForm v

end FlowAtlas.Json
