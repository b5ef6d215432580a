/-! Reading the words of a command line. An option is a word with two dashes or a letter with one;
letters can be joined, a value can be joined to its option, and two dashes alone end the options. -/
namespace FlowAtlas.Command

structure OptionRule where
  word : String
  letter : Option Char := none
  takesValue : Bool := false
  deriving DecidableEq, Repr

structure Given where
  options : List (String × String) := []
  words : List String := []
  deriving DecidableEq, Repr

inductive Misuse
  | unknownOption (name : String)
  | valueMissing (option : String)
  | valueUnwanted (option : String)
  | commandMissing
  | unknownCommand (name : String)
  | fileMissing
  | extraWord (word : String)
  | unknownDiagram (name : String)
  deriving DecidableEq, Repr

def Misuse.message : Misuse → String
  | unknownOption name => "no such option: " ++ name
  | valueMissing option => "option --" ++ option ++ " requires a value"
  | valueUnwanted option => "option --" ++ option ++ " takes no value"
  | commandMissing => "a command is required"
  | unknownCommand name => "no such command: " ++ name
  | fileMissing => "a file is required"
  | extraWord word => "unexpected word: " ++ word
  | unknownDiagram name => "no such diagram: " ++ name

namespace Given

def has (g : Given) (option : String) : Bool := g.options.any (·.1 = option)

def value? (g : Given) (option : String) : Option String :=
  ((g.options.filter (·.1 = option)).getLast?).map (·.2)

def addOptions (options : List (String × String)) (g : Given) : Given := { g with options := options ++ g.options }

def addWord (word : String) (g : Given) : Given := { g with words := word :: g.words }

end Given

namespace OptionRule

def ofLetters (rules : List OptionRule) : List Char → Except Misuse (List (String × String) × Option String)
  | [] => .ok ([], none)
  | c :: rest =>
    match rules.find? (·.letter = some c) with
    | none => .error (.unknownOption (String.ofList ['-', c]))
    | some rule =>
      if !rule.takesValue then
        (ofLetters rules rest).map fun (options, wanting) => ((rule.word, "") :: options, wanting)
      else if rest.isEmpty then .ok ([], some rule.word)
      else .ok ([(rule.word, String.ofList rest)], none)

def ofWord (rules : List OptionRule) (word : List Char) :
    Except Misuse (List (String × String) × Option String) :=
  let name := String.ofList (word.takeWhile (· ≠ '='))
  match rules.find? (·.word = name), word.dropWhile (· ≠ '=') with
  | none, _ => .error (.unknownOption ("--" ++ name))
  | some rule, [] => if rule.takesValue then .ok ([], some name) else .ok ([(name, "")], none)
  | some rule, _ :: value =>
    if rule.takesValue then .ok ([(name, String.ofList value)], none) else .error (.valueUnwanted name)

def ofArgument? (rules : List OptionRule) (argument : String) :
    Option (Except Misuse (List (String × String) × Option String)) :=
  match argument.toList with
  | '-' :: '-' :: word => some (ofWord rules word)
  | '-' :: c :: letters => some (ofLetters rules (c :: letters))
  | _ => none

/-- Reads a command line, up to its first word that is no option when `leading`. `wanting` is the
option whose value comes next. -/
def read (rules : List OptionRule) (leading : Bool) (wanting : Option String) :
    List String → Except Misuse Given
  | [] =>
    match wanting with
    | some option => .error (.valueMissing option)
    | none => .ok {}
  | argument :: rest =>
    match wanting with
    | some option => (read rules leading none rest).map (·.addOptions [(option, argument)])
    | none =>
      if argument = "--" then .ok { words := rest }
      else
        match ofArgument? rules argument with
        | some (.error misuse) => .error misuse
        | some (.ok (options, wanting)) => (read rules leading wanting rest).map (·.addOptions options)
        | none =>
          if leading then .ok { words := argument :: rest }
          else (read rules leading none rest).map (·.addWord argument)

end OptionRule

end FlowAtlas.Command
