import FlowAtlas.Inventory.Document
import FlowAtlas.Json.Reader
import FlowAtlas.Json.Shown
import FlowAtlas.Text.Utf8
import FlowAtlas.Workspace.Location
/-! Loading an inventory from a file. -/
namespace FlowAtlas

inductive LoadCause
  | notFound
  | unreadable (fault : FileFault)
  | undecodable (fault : Text.Utf8.Fault)
  | malformed (error : Json.ReadError)
  | halfPair (error : Json.ReadError)
  | document (fault : DocumentFault)
  deriving Repr

structure LoadError where
  cause : LoadCause
  path : String
  deriving Repr

def LoadError.message (e : LoadError) : String :=
  match e.cause with
  | .notFound => "Analysis file not found: " ++ e.path
  | .unreadable fault => "Could not read " ++ e.path ++ ": " ++ fault.message
  | .undecodable fault => "Could not read " ++ e.path ++ ": " ++ fault.message
  | .malformed error => "Invalid JSON in " ++ e.path ++ ": " ++ error.message
  | .halfPair error => "Could not read " ++ e.path ++ ": " ++ error.message
  | .document fault => fault.message

def LoadError.describe (message path : Json) : String :=
  "LoadError(message=" ++ message.quotedForm ++ ", path=" ++ path.quotedForm ++ ")"

/-- Faults of loading that are not reported as load errors but end the work. -/
inductive LoadStop
  | error (error : LoadError)
  | file (fault : FileFault)
  | longInteger (error : Json.ReadError)
  deriving Repr

def LoadStop.message : LoadStop → String
  | error e => e.message
  | file fault => fault.message
  | longInteger e => e.message

def Inventory.ofBytes (path : String) (bytes : List UInt8) : Except LoadStop Inventory :=
  match Text.Utf8.readText bytes with
  | .error fault => .error (.error ⟨.undecodable fault, path⟩)
  | .ok text =>
    match Json.parse text with
    | .error (.longInteger digits) => .error (.longInteger (.longInteger digits))
    | .error (.halfPair place) => .error (.error ⟨.halfPair (.halfPair place), path⟩)
    | .error error => .error (.error ⟨.malformed error, path⟩)
    | .ok document =>
      match Inventory.ofJson document with
      | .ok inv => .ok inv
      | .error fault => .error (.error ⟨.document fault, path⟩)

def Inventory.load (location : Location) : Found → Except LoadStop Inventory
  | .nothing => .error (.error ⟨.notFound, location.text⟩)
  | .fault fault => .error (.file fault)
  | .folder => .error (.error ⟨.unreadable ⟨.isFolder, location⟩, location.text⟩)
  | .file bytes => Inventory.ofBytes location.text bytes

end FlowAtlas
