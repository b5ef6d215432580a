import FlowAtlas.Yaml.Node.Look
/-! Styles in which a text can be written so that it is read back as that text. Lines are broken only
at single spaces and in double quotes. -/
namespace FlowAtlas.Yaml

inductive Style
  | plain
  | single
  | double
  deriving DecidableEq, Repr

namespace Style

def isSpaceOrEnd : List Char → Bool
  | [] => true
  | c :: _ => c = '\x00' || c = ' ' || c = '\t' || c = '\r' || c = '\n' ||
      c = '\x85' || c = '\u2028' || c = '\u2029'

def openers : List Char :=
  ['#', ',', '[', ']', '\x7b', '\x7d', '&', '*', '!', '|', '>', '\'', '"', '%', '@', '\x60']

def hasMarkAtStart : List Char → Bool
  | [] => false
  | c :: rest =>
    openers.contains c || ((c = '?' || c = ':' || c = '-') && isSpaceOrEnd rest) ||
      "---".toList.isPrefixOf (c :: rest) || "...".toList.isPrefixOf (c :: rest)

def hasMarkInside : List Char → Bool
  | c :: d :: rest =>
    (d = ':' && isSpaceOrEnd rest) || (d = '#' && isSpaceOrEnd [c]) || hasMarkInside (d :: rest)
  | _ => false

def isPrintable (c : Char) : Bool := c = '\n' || (' ' ≤ c && c ≤ '~')

def hasPair (first second : Char) : List Char → Bool
  | c :: d :: rest => (c = first && d = second) || hasPair first second (d :: rest)
  | _ => false

def allowsSingle (s : List Char) : Bool :=
  s.all isPrintable && !hasPair ' ' '\n' s && !hasPair '\n' ' ' s

def allowsPlain (s : List Char) : Bool :=
  s.all isPrintable && !s.contains '\n' && !hasMarkAtStart s && !hasMarkInside s &&
    s.head? != some ' ' && s.getLast? != some ' '

def ofText (text : String) : Style :=
  if Tag.ofPlain text = .str && allowsPlain text.toList then plain
  else if allowsSingle text.toList then single
  else double

end Style

end FlowAtlas.Yaml
