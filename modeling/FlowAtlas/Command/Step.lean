import FlowAtlas.Command.Options
import FlowAtlas.Inventory.Load
import FlowAtlas.Journal.Account
import FlowAtlas.Text.Coloured
/-! The steps of which commands are made, and how a command ends. -/
namespace FlowAtlas.Command

inductive Side
  | left
  | right
  deriving DecidableEq, Repr

def Side.name : Side → String
  | left => "left"
  | right => "right"

structure Column where
  header : String
  side : Side := .left
  deriving DecidableEq, Repr

structure Grid where
  title : String
  showHeader : Bool := true
  columns : List Column
  rows : List (List String)
  deriving DecidableEq, Repr

inductive Display
  | panel (markup : String)
  | text (markup : String)
  | grid (grid : Grid)
  deriving DecidableEq, Repr

inductive Step
  | print (text : String)
  | complain (text : String)
  | display (shown : Display)
  | note (notice : Notice)
  | makeFolders (location : Location)
  | write (location : Location) (text : String)
  | browse (location : Location)
  deriving DecidableEq, Repr

namespace Step

def say (line : String) : Step := .print (withoutColours line ++ "\n")

def sayDone (line : String) : Step := say ("✅ " ++ line)

def sayWarning (line : String) : Step := say ("⚠️  " ++ line)

def sayHint (line : String) : Step := say ("   " ++ line)

def sayFailed (line : String) : Step := .complain (withoutColours ("❌ " ++ line) ++ "\n")

end Step

inductive Fault
  | load (stop : LoadStop)
  | settings (stop : Settings.Stop)
  | file (fault : FileFault)
  deriving Repr

def Fault.message : Fault → String
  | load stop => stop.message
  | settings stop => stop.message
  | file fault => fault.message

inductive Ending
  | done
  | failed
  | misused (misuse : Misuse)
  | stopped (fault : Fault)
  deriving Repr

def Ending.status : Ending → Nat
  | done => 0
  | failed => 1
  | misused _ => 2
  | stopped _ => 1

structure Plan where
  steps : List Step := []
  ending : Ending := .done
  deriving Repr

def Plan.after (steps : List Step) (p : Plan) : Plan := { p with steps := steps ++ p.steps }

end FlowAtlas.Command
