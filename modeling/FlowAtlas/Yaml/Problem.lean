import FlowAtlas.Text.Quoted
import FlowAtlas.Text.Segment
import FlowAtlas.Yaml.Place
/-! What is wrong with a text that is no document: what was being read and since where, what is wrong
with it and where. -/
namespace FlowAtlas.Yaml

inductive Task
  | token
  | simpleKey
  | directive
  | directiveAddress
  | alias
  | anchor
  | tag
  | tagAddress
  | block
  | quoted
  | doubleQuoted
  | node
  | blockNode
  | flowNode
  | blockSequence
  | blockMapping
  | flowSequence
  | flowMapping
  | onlyDocument
  | sameAnchor (name : String)
  | mapping
  | orderedMap
  | pairs
  deriving DecidableEq, Repr

def Task.message : Task → String
  | .token => "while scanning for the next token"
  | .simpleKey => "while scanning a simple key"
  | .directive => "while scanning a directive"
  | .directiveAddress => "while parsing a directive"
  | .alias => "while scanning an alias"
  | .anchor => "while scanning an anchor"
  | .tag => "while scanning a tag"
  | .tagAddress => "while parsing a tag"
  | .block => "while scanning a block scalar"
  | .quoted => "while scanning a quoted scalar"
  | .doubleQuoted => "while scanning a double-quoted scalar"
  | .node => "while parsing a node"
  | .blockNode => "while parsing a block node"
  | .flowNode => "while parsing a flow node"
  | .blockSequence => "while parsing a block collection"
  | .blockMapping => "while parsing a block mapping"
  | .flowSequence => "while parsing a flow sequence"
  | .flowMapping => "while parsing a flow mapping"
  | .onlyDocument => "expected a single document in the stream"
  | .sameAnchor name => "found duplicate anchor " ++ FlowAtlas.quoted name ++ "; first occurrence"
  | .mapping => "while constructing a mapping"
  | .orderedMap => "while constructing an ordered map"
  | .pairs => "while constructing pairs"

inductive Wrong
  | badStart (c : Char)
  | noColon
  | misplaced (what : String)
  | unexpected (expected found : String)
  | unexpectedInFlow (expected found : String)
  | zeroIndentation
  | unknownEscape (found : String)
  | endOfText
  | documentMark
  | badBytes (reason : String)
  | secondVersion
  | otherVersion
  | sameHandle (handle : String)
  | unknownHandle (handle : String)
  | unknownAlias (name : String)
  | secondAnchor
  | secondDocument
  | otherNode (expected found : String)
  | unfitKey
  | manyItems (count : Nat)
  | unknownTag (name : String)
  | notAscii (reason : String)
  | notBase64 (reason : String)
  deriving DecidableEq, Repr

def Wrong.message : Wrong → String
  | badStart c => "found character " ++ quoted (String.singleton c) ++ " that cannot start any token"
  | noColon => "could not find expected ':'"
  | misplaced what => what ++ " are not allowed here"
  | unexpected expected found => "expected " ++ expected ++ ", but found " ++ quoted found
  | unexpectedInFlow expected found => "expected " ++ expected ++ ", but got " ++ quoted found
  | zeroIndentation => "expected indentation indicator in the range 1-9, but found 0"
  | unknownEscape found => "found unknown escape character " ++ quoted found
  | endOfText => "found unexpected end of stream"
  | documentMark => "found unexpected document separator"
  | badBytes reason => reason
  | secondVersion => "found duplicate YAML directive"
  | otherVersion => "found incompatible YAML document (version 1.* is required)"
  | sameHandle handle => "duplicate tag handle " ++ quoted handle
  | unknownHandle handle => "found undefined tag handle " ++ quoted handle
  | unknownAlias name => "found undefined alias " ++ quoted name
  | secondAnchor => "second occurrence"
  | secondDocument => "but found another document"
  | otherNode expected found => "expected " ++ expected ++ ", but found " ++ found
  | unfitKey => "found unhashable key"
  | manyItems count => "expected a single mapping item, but found " ++ toString count ++ " items"
  | unknownTag name => "could not determine a constructor for the tag " ++ quoted name
  | notAscii reason => "failed to convert base64 data into ascii: " ++ reason
  | notBase64 reason => "failed to decode base64 data: " ++ reason

structure Problem where
  task : Option Task
  start : Option Place
  wrong : Wrong
  place : Place
  deriving DecidableEq, Repr

inductive Complaint
  | badCharacter (code position : Nat)
  | problem (problem : Problem)
  deriving DecidableEq, Repr

def Problem.message (text : List Char) (p : Problem) : String :=
  let start := p.start.filter fun s => s.line ≠ p.place.line || s.column ≠ p.place.column
  joinTexts "\n" ((p.task.map Task.message).toList ++ (start.map (·.message text)).toList ++
    [p.wrong.message, p.place.message text])

def Complaint.message (text : List Char) : Complaint → String
  | badCharacter code position =>
    "unacceptable character #x" ++ String.ofList (Text.hexDigits 4 code) ++
      ": special characters are not allowed\n  in " ++ Place.textName ++ ", position " ++ toString position
  | problem p => p.message text

end FlowAtlas.Yaml
