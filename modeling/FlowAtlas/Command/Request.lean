import FlowAtlas.Command.Options
import FlowAtlas.Diagram.Kind
/-! What a command line asks for. -/
namespace FlowAtlas.Command

inductive Request
  | help
  | version
  | render (file : String) (kind : DiagramKind) (output : Option String)
  | chains (file : String) (perCommand : Bool) (folder : Option String) (asJson : Bool)
  | page (file output : String) (title : Option String) (shown : Bool)
  | statistics (file : String) (asJson : Bool)
  | start (force : Bool)
  deriving DecidableEq, Repr

structure Line where
  verbose : Bool
  request : Request
  deriving DecidableEq, Repr

namespace Request

def helpRule : OptionRule := { word := "help" }

def outerRules : List OptionRule := [{ word := "verbose", letter := some 'v' }, { word := "version" }, helpRule]

def renderRules : List OptionRule :=
  [{ word := "diagram", letter := some 'd', takesValue := true },
    { word := "output", letter := some 'o', takesValue := true }, helpRule]

def chainsRules : List OptionRule :=
  [{ word := "commands" }, { word := "output-dir", letter := some 'o', takesValue := true }, { word := "json" },
    helpRule]

def pageRules : List OptionRule :=
  [{ word := "output", letter := some 'o', takesValue := true },
    { word := "title", letter := some 't', takesValue := true }, { word := "open" }, helpRule]

def statisticsRules : List OptionRule := [{ word := "json" }, helpRule]

def startRules : List OptionRule := [{ word := "force" }, helpRule]

def defaultPage : String := "codeflow.html"

def theFile (g : Given) : Except Misuse String :=
  match g.words with
  | [] => .error .fileMissing
  | file :: [] => .ok file
  | file :: extra :: _ => if file.contains '\x00' then .ok file else .error (.extraWord extra)

def theDiagram (g : Given) : Except Misuse DiagramKind :=
  match g.value? "diagram" with
  | none => .ok .architecture
  | some name =>
    match DiagramKind.ofName? name with
    | some kind => .ok kind
    | none => .error (.unknownDiagram name)

def withOptions (rules : List OptionRule) (arguments : List String)
    (request : Given → Except Misuse Request) : Except Misuse Request := do
  let given ← OptionRule.read rules false none arguments
  if given.has "help" then return .help
  request given

def ofCommand (command : String) (arguments : List String) : Except Misuse Request :=
  match command with
  | "render" =>
    withOptions renderRules arguments fun g => do
      let kind ← theDiagram g
      return .render (← theFile g) kind (g.value? "output")
  | "chains" =>
    withOptions chainsRules arguments fun g =>
      return .chains (← theFile g) (g.has "commands") (g.value? "output-dir") (g.has "json")
  | "html" =>
    withOptions pageRules arguments fun g =>
      return .page (← theFile g) ((g.value? "output").getD defaultPage) (g.value? "title") (g.has "open")
  | "stats" => withOptions statisticsRules arguments fun g => return .statistics (← theFile g) (g.has "json")
  | "init" =>
    withOptions startRules arguments fun g =>
      match g.words with
      | [] => .ok (.start (g.has "force"))
      | extra :: _ => .error (.extraWord extra)
  | name => .error (.unknownCommand name)

end Request

def Line.read (arguments : List String) : Except Misuse Line := do
  let given ← OptionRule.read Request.outerRules true none arguments
  let verbose := given.has "verbose"
  if given.has "help" then return ⟨verbose, .help⟩
  if given.has "version" then return ⟨verbose, .version⟩
  match given.words with
  | [] => throw .commandMissing
  | command :: rest => return ⟨verbose, ← Request.ofCommand command rest⟩

end FlowAtlas.Command
