import FlowAtlas.Table
import FlowAtlas.Workspace.Address
/-! A working folder with its files and folders, each under its path from the working folder. -/
namespace FlowAtlas

inductive Entry
  | folder
  | file (bytes : List UInt8)
  deriving DecidableEq, Repr

structure Folder where
  root : String
  name : String
  entries : List (List String × Entry) := []
  deriving DecidableEq, Repr, Inhabited

namespace Folder

/-- A place in the file system: names from the working folder, of which the first may lead upwards, or
the top. -/
inductive Spot
  | path (names : List String)
  | top
  deriving DecidableEq, Repr

def isUpwards (names : List String) : Bool := names.all (· = "..")

def longestName : Nat := 255

def longestText : Nat := 4095

def lookUp (f : Folder) (path : List String) : Option Entry :=
  if isUpwards path then some .folder else Table.get? path f.entries

def enter (f : Folder) (path : List String) (name : String) : List String :=
  if name = ".." then (if isUpwards path then path ++ [".."] else path.dropLast)
  else if path = [".."] ∧ name = f.name then []
  else path ++ [name]

def step (f : Folder) (spot : Spot) (name : String) : Except FileCause Spot :=
  match spot with
  | .path names =>
    match f.lookUp names with
    | some .folder =>
      if name.utf8ByteSize > longestName then .error .longName else .ok (.path (f.enter names name))
    | some (.file _) => .error .notFolder
    | none => .error .notFound
  | .top => if name = ".." then .ok .top else .error .notFound

def start (f : Folder) (l : Location) : Spot :=
  if l.anchor = "" ∨ l.anchor = f.root then .path [] else .top

def locate (f : Folder) (l : Location) : Except FileCause Spot :=
  if l.text.contains '\x00' then .error .nulCharacter
  else if l.text.utf8ByteSize > longestText then .error .longName
  else l.names.foldlM f.step (f.start l)

def find (f : Folder) (l : Location) : Found :=
  match f.locate l with
  | .error .longName => .fault ⟨.longName, l⟩
  | .error _ => .nothing
  | .ok (.path path) =>
    match f.lookUp path with
    | some .folder => .folder
    | some (.file bytes) => .file bytes
    | none => .nothing
  | .ok _ => .folder

def makeFolder (f : Folder) (l : Location) : Except FileFault Folder :=
  match f.locate l with
  | .error cause => .error ⟨cause, l⟩
  | .ok (.path path) =>
    match f.lookUp path with
    | some _ => .error ⟨.exists, l⟩
    | none => .ok { f with entries := f.entries ++ [(path, .folder)] }
  | .ok _ => .error ⟨.exists, l⟩

def ensureFolder (f : Folder) (l : Location) : Except FileFault Folder :=
  match f.makeFolder l with
  | .ok f => .ok f
  | .error fault => if f.find l = .folder then .ok f else .error fault

/-- Makes a folder and the folders it lies in, of which the nearest come first in `names`. -/
def makeFoldersFrom (f : Folder) (anchor : String) : (names : List String) → Except FileFault Folder
  | [] => f.ensureFolder ⟨anchor, []⟩
  | name :: outer =>
    let l : Location := ⟨anchor, (name :: outer).reverse⟩
    match f.makeFolder l with
    | .ok f => .ok f
    | .error ⟨.notFound, _⟩ =>
      match makeFoldersFrom f anchor outer with
      | .ok f => f.ensureFolder l
      | .error fault => .error fault
    | .error fault => if f.find l = .folder then .ok f else .error fault

def makeFolders (f : Folder) (l : Location) : Except FileFault Folder :=
  f.makeFoldersFrom l.anchor l.names.reverse

def writeBytes (f : Folder) (l : Location) (bytes : List UInt8) : Except FileFault Folder :=
  match f.locate l with
  | .error cause => .error ⟨cause, l⟩
  | .ok (.path path) =>
    match f.lookUp path with
    | some .folder => .error ⟨.isFolder, l⟩
    | _ => .ok { f with entries := Table.set path (.file bytes) f.entries }
  | .ok _ => .error ⟨.isFolder, l⟩

def writeText (f : Folder) (l : Location) (text : String) : Except FileFault Folder :=
  f.writeBytes l (Text.Utf8.encode text)

def address (f : Folder) (l : Location) : String :=
  match f.locate l with
  | .ok (.path path) => addressStart ++ f.root ++ "/" ++ percentEncode (joinTexts "/" path)
  | _ => l.address

end Folder

end FlowAtlas
