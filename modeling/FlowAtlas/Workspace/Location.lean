import FlowAtlas.Text.Quoted
import FlowAtlas.Text.Segment
/-! Locations of files and folders: names under an anchor, which is empty for the working folder. -/
namespace FlowAtlas

structure Location where
  anchor : String := ""
  names : List String := []
  deriving DecidableEq, Repr, Inhabited

namespace Location

def anchorOf (s : List Char) : String :=
  match (s.takeWhile (· = '/')).length with
  | 0 => ""
  | 2 => "//"
  | _ => "/"

def parse (s : String) : Location :=
  let names := ((Text.splitAll '/' s.toList).map String.ofList).filter fun n => n ≠ "" && n ≠ "."
  ⟨anchorOf s.toList, names⟩

def text (l : Location) : String :=
  let names := joinTexts "/" l.names
  if l.anchor = "" then (if l.names.isEmpty then "." else names)
  else if l.anchor = "/" ∨ l.anchor = "//" ∨ l.names.isEmpty then l.anchor ++ names
  else l.anchor ++ "/" ++ names

def parent (l : Location) : Location := { l with names := l.names.dropLast }

def child (l : Location) (names : List String) : Location := { l with names := l.names ++ names }

end Location

inductive FileCause
  | notFound
  | exists
  | notFolder
  | isFolder
  | longName
  | nulCharacter
  deriving DecidableEq, Repr

def FileCause.number? : FileCause → Option Nat
  | .notFound => some 2
  | .exists => some 17
  | .notFolder => some 20
  | .isFolder => some 21
  | .longName => some 36
  | .nulCharacter => none

def FileCause.reason : FileCause → String
  | .notFound => "No such file or directory"
  | .exists => "File exists"
  | .notFolder => "Not a directory"
  | .isFolder => "Is a directory"
  | .longName => "File name too long"
  | .nulCharacter => "embedded null byte"

def FileCause.all : List FileCause := [.notFound, .exists, .notFolder, .isFolder, .longName, .nulCharacter]

def FileCause.ofNumber? (number : Nat) : Option FileCause := all.find? (·.number? = some number)

structure FileFault where
  cause : FileCause
  location : Location
  deriving DecidableEq, Repr

def FileFault.message (f : FileFault) : String :=
  match f.cause.number? with
  | some number => "[Errno " ++ toString number ++ "] " ++ f.cause.reason ++ ": " ++ quoted f.location.text
  | none => f.cause.reason

inductive Found
  | nothing
  | folder
  | file (bytes : List UInt8)
  | fault (fault : FileFault)
  deriving DecidableEq, Repr

end FlowAtlas
