import FlowAtlas.Command.Plan
/-! Carrying out a command in a folder that is kept as a value. -/
namespace FlowAtlas.Command

structure Session where
  folder : Folder
  output : String := ""
  errors : String := ""
  displayed : List Display := []
  browsed : List String := []
  ending : Ending := .done
  deriving Repr

namespace Session

def showsNotice (verbose : Bool) (n : Notice) : Bool := verbose || n.level = .warning

def withFolder (s : Session) : Except FileFault Folder → Session
  | .ok folder => { s with folder }
  | .error fault => { s with ending := .stopped (.file fault) }

def take (verbose : Bool) (s : Session) : Step → Session
  | .print text => { s with output := s.output ++ text }
  | .complain text => { s with errors := s.errors ++ text }
  | .display shown => { s with displayed := s.displayed ++ [shown] }
  | .note n => if showsNotice verbose n then { s with errors := s.errors ++ n.line ++ "\n" } else s
  | .makeFolders location => s.withFolder (s.folder.makeFolders location)
  | .write location text => s.withFolder (s.folder.writeText location text)
  | .browse location => { s with browsed := s.browsed ++ [s.folder.address location] }

def takeAll (verbose : Bool) (ending : Ending) (s : Session) : List Step → Session
  | [] => { s with ending }
  | step :: rest =>
    let s := s.take verbose step
    match s.ending with
    | .stopped _ => s
    | _ => takeAll verbose ending s rest

def run (folder : Folder) (arguments : List String) : Session :=
  match Line.read arguments with
  | .error misuse => { folder, ending := .misused misuse }
  | .ok line =>
    let plan := line.request.plan (Surroundings.ofFolder folder)
    takeAll line.verbose plan.ending { folder } plan.steps

end Session

def changedFiles (before after : Folder) : List (List String × List UInt8) :=
  after.entries.filterMap fun (path, entry) =>
    match entry with
    | .folder => none
    | .file bytes =>
      if path.head? = some ".." ∨ before.lookUp path = some (.file bytes) then none else some (path, bytes)

end FlowAtlas.Command
