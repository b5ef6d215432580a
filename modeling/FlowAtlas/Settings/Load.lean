import FlowAtlas.Settings.Basic
import FlowAtlas.Workspace.Location
import FlowAtlas.Yaml.Value
/-! Loading settings from a file. Where there is no file, or one that is ignored, the settings are the
usual ones as a whole. -/
namespace FlowAtlas.Settings

inductive Ignored
  | unreadable (fault : FileFault)
  | malformed (reason : String)
  | notMapping
  | invalid (issues : List Schema.Issue)
  deriving DecidableEq, Repr

inductive Stop
  | file (fault : FileFault)
  | undecodable (fault : Text.Utf8.Fault)
  | scalar (fault : Yaml.ScalarFault)
  deriving DecidableEq, Repr

def Stop.message : Stop → String
  | file fault => fault.message
  | undecodable fault => fault.message
  | scalar fault => fault.message

structure Loaded where
  settings : Settings := {}
  ignored : Option Ignored := none
  deriving DecidableEq, Repr

def location (root : Location) : Location := root.child [".codeflow", "config.yaml"]

def ofValue (value : Yaml.Value) : Loaded :=
  match value.object with
  | .mapping _ =>
    match check value with
    | .good settings => { settings }
    | .refused issues => { ignored := some (.invalid issues) }
  | _ => { ignored := some .notMapping }

def ofText (text : String) : Except Stop Loaded :=
  match Yaml.Value.ofText text with
  | .error (.malformed complaint) => .ok { ignored := some (.malformed (complaint.message text.toList)) }
  | .error (.scalar fault) => .error (.scalar fault)
  | .ok value => .ok (if value.object.isBlank then {} else ofValue value)

def load (location : Location) : Found → Except Stop Loaded
  | .nothing => .ok {}
  | .fault fault => .error (.file fault)
  | .folder => .ok { ignored := some (.unreadable ⟨.isFolder, location⟩) }
  | .file bytes =>
    match Text.Utf8.readText bytes with
    | .error fault => .error (.undecodable fault)
    | .ok text => ofText text

end FlowAtlas.Settings
