/-! Tags, which say of what type a node is. -/
namespace FlowAtlas.Yaml

inductive Tag
  | null
  | bool
  | int
  | float
  | binary
  | timestamp
  | str
  | seq
  | map
  | set
  | omap
  | pairs
  | merge
  | value
  | other (name : String)
  deriving DecidableEq, Repr

namespace Tag

def standard : List (String × Tag) :=
  [("null", null), ("bool", bool), ("int", int), ("float", float), ("binary", binary),
    ("timestamp", timestamp), ("str", str), ("seq", seq), ("map", map), ("set", set), ("omap", omap),
    ("pairs", pairs), ("merge", merge), ("value", value)]

def standardStart : String := "tag:yaml.org,2002:"

def ofName (name : String) : Tag :=
  match standard.find? fun (short, _) => standardStart ++ short = name with
  | some (_, tag) => tag
  | none => other name

def name : Tag → String
  | other name => name
  | tag => standardStart ++ ((standard.find? fun (_, t) => t = tag).map (·.1)).getD ""

end Tag

end FlowAtlas.Yaml
