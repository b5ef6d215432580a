/-! Places in a text, and how messages show them: the line around the place with a caret below it. -/
namespace FlowAtlas.Yaml

def isBreak (c : Char) : Bool :=
  c = '\n' || c = '\r' || c = '\u0085' || c = '\u2028' || c = '\u2029'

structure Place where
  index : Nat := 0
  line : Nat := 0
  column : Nat := 0
  deriving DecidableEq, Repr, Inhabited

namespace Place

def reach : Nat := 36

def shortReach : Nat := 32

def ellipsis : List Char := " ... ".toList

def shownSide (side : List Char) : List Char × List Char :=
  let part := side.takeWhile (!isBreak ·)
  if part.length ≤ reach then (part, []) else (part.take shortReach, ellipsis)

def margin : List Char := List.replicate 4 ' '

def excerpt (text : List Char) (p : Place) : List Char :=
  let (before, head) := shownSide (text.take p.index).reverse
  let (after, tail) := shownSide (text.drop p.index)
  margin ++ head ++ before.reverse ++ after ++ tail ++ '\n' :: margin ++
    List.replicate (head.length + before.length) ' ' ++ ['^']

def textName : String := "\"<unicode string>\""

def message (text : List Char) (p : Place) : String :=
  "  in " ++ textName ++ ", line " ++ toString (p.line + 1) ++ ", column " ++ toString (p.column + 1) ++ ":\n" ++
    String.ofList (p.excerpt text)

end Place

end FlowAtlas.Yaml
