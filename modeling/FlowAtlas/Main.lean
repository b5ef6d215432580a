import FlowAtlas.Command.Plain
import FlowAtlas.Command.Session
/-! The command line: looks at the files a request needs, and takes the steps of its plan. -/
namespace FlowAtlas.Command

def ofCode (code : UInt32) : Option FileCause :=
  FileCause.ofNumber? (if code < 0x80000000 then code else 0 - code).toNat

def causeOf : IO.Error → Option FileCause
  | .alreadyExists _ code _ => ofCode code
  | .otherError code _ => ofCode code
  | .noFileOrDirectory _ code _ => ofCode code
  | .invalidArgument _ code _ => ofCode code
  | .resourceExhausted _ code _ => ofCode code
  | .inappropriateType _ code _ => ofCode code
  | _ => none

def look (l : Location) : IO Found := do
  match ← (IO.FS.readBinFile l.text).toBaseIO with
  | .ok bytes => return .file bytes.toList
  | .error e =>
    match causeOf e with
    | some .isFolder => return .folder
    | some .longName => return .fault ⟨.longName, l⟩
    | some _ => return .nothing
    | none => throw e

def reported (l : Location) (act : IO Unit) : IO Unit := do
  match ← act.toBaseIO with
  | .ok () => return
  | .error e =>
    match causeOf e with
    | some cause => throw (IO.userError (FileFault.message ⟨cause, l⟩))
    | none => throw e

def takeStep (root : Location) (verbose : Bool) : Step → IO Unit
  | .print text => do
    (← IO.getStdout).putStr text
    (← IO.getStdout).flush
  | .complain text => IO.eprint text
  | .display shown => shown.lines.forM IO.println
  | .note n => if Session.showsNotice verbose n then IO.eprintln n.line else pure ()
  | .makeFolders l => reported l (IO.FS.createDirAll l.text)
  | .write l text => reported l (IO.FS.writeFile l.text text)
  | .browse l => IO.println ("Open " ++ (if l.anchor = "" then root.child l.names else l).address)

def carryOut (line : Line) : IO UInt32 := do
  let root := Location.parse ((← IO.getEnv "PWD").getD "")
  let seen ← (line.request.looksAt root).mapM fun l => return (l, ← look l)
  let find (l : Location) : Found := (Table.get? l seen).getD .nothing
  let plan := line.request.plan ⟨root, root.names.getLast?.getD "", find⟩
  plan.steps.forM (takeStep root line.verbose)
  match plan.ending with
  | .stopped fault => IO.eprintln fault.message
  | _ => pure ()
  return plan.ending.status.toUInt32

def answer (arguments : List String) : IO UInt32 := do
  match Line.read arguments with
  | .error misuse =>
    IO.eprintln ("Error: " ++ misuse.message)
    return (Ending.misused misuse).status.toUInt32
  | .ok line =>
    match ← (carryOut line).toBaseIO with
    | .ok status => return status
    | .error e =>
      IO.eprintln (toString e)
      return 1

end FlowAtlas.Command

def main (arguments : List String) : IO UInt32 := FlowAtlas.Command.answer arguments
