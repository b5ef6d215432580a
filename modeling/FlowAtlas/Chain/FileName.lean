import FlowAtlas.Text.Segment
/-! Names of the files to which chains are exported: the position, padded to three places, and the name
of the chain with every run of other characters replaced by an underscore. -/
namespace FlowAtlas.FileName

def isPlain (c : Char) : Bool := c.isAlphanum || c = '.' || c = '_' || c = '-'

/-- Every run of characters that are not plain becomes one underscore; `inRun` says whether the
underscore of the current run has been written. -/
def squeeze (inRun : Bool) : List Char → List Char
  | [] => []
  | c :: rest =>
    if isPlain c then c :: squeeze false rest
    else if inRun then squeeze true rest
    else '_' :: squeeze true rest

def slug (name : List Char) : List Char :=
  match Text.trimBoth (· = '_') (squeeze false name) with
  | [] => "chain".toList
  | s => s

def padLeft (width : Nat) (digits : List Char) : List Char :=
  List.replicate (width - digits.length) '0' ++ digits

/-- Three places at least, of which a sign takes one. -/
def paddedPosition (position : Int) : List Char :=
  let digits := (toString position.natAbs).toList
  if position < 0 then '-' :: padLeft 2 digits else padLeft 3 digits

end FlowAtlas.FileName

namespace FlowAtlas

def chainFileName (position : Int) (name : String) : String :=
  String.ofList (FileName.paddedPosition position ++ '-' :: FileName.slug name.toList ++ ".mmd".toList)

end FlowAtlas
