/-! Selections: of items with equal marks the first one stays. -/
namespace FlowAtlas.Selection

variable {α β : Type} [DecidableEq β]

def addNew (mark : α → β) (items : List α) (item : α) : List α :=
  if items.any (fun x => mark x = mark item) then items else items ++ [item]

def firsts (mark : α → β) (items : List α) : List α := items.foldl (addNew mark) []

end FlowAtlas.Selection
