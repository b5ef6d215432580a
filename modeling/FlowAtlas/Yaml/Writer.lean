import FlowAtlas.Text.Quoted
import FlowAtlas.Yaml.Style
/-! Writing entries and items whose values are texts. A line that has passed its width is broken at the
next place that allows it, and goes on two columns in. -/
namespace FlowAtlas.Yaml.Writer

def width : Nat := 80

def indent : Nat := 2

def nextLine : List Char := '\n' :: List.replicate indent ' '

/-- Plain text, or the inside of single quotes: lines are broken at single spaces past the width, and
an empty line stands for a line end. `before` is the character already written. -/
def fold (column : Nat) (before : Option Char) : List Char → List Char
  | [] => []
  | c :: rest =>
    if c = ' ' then
      if before.isSome && before != some ' ' && !rest.isEmpty && rest.head? != some ' ' && width < column then
        nextLine ++ fold indent (some ' ') rest
      else ' ' :: fold (column + 1) (some ' ') rest
    else if c = '\n' then
      (if before = some '\n' then ['\n'] else ['\n', '\n']) ++
        if rest.head? = some '\n' then fold 0 (some '\n') rest
        else List.replicate indent ' ' ++ fold indent (some '\n') rest
    else c :: fold (column + 1) (some c) rest

def doubleQuotes (s : List Char) : List Char := s.flatMap fun c => if c = '\'' then ['\'', '\''] else [c]

def escapeLetter? (c : Char) : Option Char :=
  [('\x00', '0'), ('\x07', 'a'), ('\x08', 'b'), ('\t', 't'), ('\n', 'n'), ('\x0b', 'v'), ('\x0c', 'f'),
    ('\r', 'r'), ('\x1b', 'e'), ('"', '"'), ('\\', '\\'), ('\x85', 'N'), ('\xa0', '_'), ('\u2028', 'L'),
    ('\u2029', 'P')].lookup c

def upperHex (count n : Nat) : List Char := (Text.hexDigits count n).map Char.toUpper

def escape? (c : Char) : Option (List Char) :=
  match escapeLetter? c with
  | some letter => some ['\\', letter]
  | none =>
    if ' ' ≤ c ∧ c ≤ '~' then none
    else if c.toNat < 0x100 then some ('\\' :: 'x' :: upperHex 2 c.toNat)
    else if c.toNat < 0x10000 then some ('\\' :: 'u' :: upperHex 4 c.toNat)
    else some ('\\' :: 'U' :: upperHex 8 c.toNat)

def brokenLine (spaceFollows : Bool) : List Char := '\\' :: nextLine ++ if spaceFollows then ['\\'] else []

def brokenColumn (spaceFollows : Bool) : Nat := if spaceFollows then indent + 1 else indent

/-- The inside of double quotes after the first character: lines past the width are broken before a
space and beside an escape. `escaped` says whether the character before was one. -/
def foldEscaped (column : Nat) (escaped : Bool) : List Char → List Char
  | [] => []
  | c :: rest =>
    match escape? c with
    | some e =>
      let column := column + e.length
      let space := rest.head? == some ' '
      if !rest.isEmpty && width < column - 1 then
        e ++ brokenLine space ++ foldEscaped (brokenColumn space) true rest
      else e ++ foldEscaped column true rest
    | none =>
      let space := c == ' '
      if !rest.isEmpty && (space || escaped) && width < column then
        brokenLine space ++ c :: foldEscaped (brokenColumn space + 1) false rest
      else c :: foldEscaped (column + 1) false rest

def insideDouble (column : Nat) : List Char → List Char
  | [] => []
  | c :: rest =>
    match escape? c with
    | some e => e ++ foldEscaped (column + e.length) true rest
    | none => c :: foldEscaped (column + 1) false rest

def scalar (column : Nat) (text : String) : List Char :=
  let s := text.toList
  match Style.ofText text with
  | .plain => ' ' :: fold (column + 1) none s
  | .single => ' ' :: '\'' :: fold (column + 2) none (doubleQuotes s) ++ ['\'']
  | .double => ' ' :: '"' :: insideDouble (column + 2) s ++ ['"']

def entry (name value : String) : String :=
  String.ofList (name.toList ++ ':' :: scalar (name.length + 1) value ++ ['\n'])

def item (value : String) : String := String.ofList ('-' :: scalar 1 value ++ ['\n'])

end FlowAtlas.Yaml.Writer
