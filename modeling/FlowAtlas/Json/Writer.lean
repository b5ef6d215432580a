import FlowAtlas.Json.Value
import FlowAtlas.Text.Quoted
import FlowAtlas.Text.Segment
/-! Writing JSON text: on one line, on one line so that it can stand inside a script element, or
indented with ASCII characters only. -/
namespace FlowAtlas.Json

def shortEscape? : Char → Option Char
  | '"' => some '"'
  | '\\' => some '\\'
  | '\n' => some 'n'
  | '\r' => some 'r'
  | '\t' => some 't'
  | '\x08' => some 'b'
  | '\x0c' => some 'f'
  | _ => none

def unitEscape (n : Nat) : List Char := '\\' :: 'u' :: Text.hexDigits 4 n

def escapeRaw (c : Char) : List Char :=
  match shortEscape? c with
  | some e => ['\\', e]
  | none => if c.toNat < 0x20 then unitEscape c.toNat else [c]

def escapeAscii (c : Char) : List Char :=
  match shortEscape? c with
  | some e => ['\\', e]
  | none =>
    let n := c.toNat
    if 0x20 ≤ n ∧ n < 0x7f then [c]
    else if n < 0x10000 then unitEscape n
    else unitEscape (0xD800 + (n - 0x10000) / 0x400) ++ unitEscape (0xDC00 + (n - 0x10000) % 0x400)

def writeString (escape : Char → List Char) (s : String) : List Char :=
  '"' :: s.toList.flatMap escape ++ ['"']

def writeFloat : Binary64 → List Char
  | .nan => "NaN".toList
  | .infinite false => "Infinity".toList
  | .infinite true => "-Infinity".toList
  | x => x.text.toList

mutual

def lineChars : Json → List Char
  | .null => "null".toList
  | .bool true => "true".toList
  | .bool false => "false".toList
  | .int i => (toString i).toList
  | .float x => writeFloat x
  | .text s => writeString escapeRaw s
  | .array items => '[' :: lineItems items ++ [']']
  | .object fields => '\x7b' :: lineFields fields ++ ['\x7d']

def lineItems : List Json → List Char
  | [] => []
  | [v] => lineChars v
  | v :: rest => lineChars v ++ ',' :: ' ' :: lineItems rest

def lineFields : List (String × Json) → List Char
  | [] => []
  | [(k, v)] => writeString escapeRaw k ++ ':' :: ' ' :: lineChars v
  | (k, v) :: rest =>
    writeString escapeRaw k ++ ':' :: ' ' :: lineChars v ++ ',' :: ' ' :: lineFields rest

end

def line (v : Json) : String := String.ofList (lineChars v)

def guardClosing : List Char → List Char
  | '<' :: '/' :: rest => '<' :: '\\' :: '/' :: guardClosing rest
  | c :: rest => c :: guardClosing rest
  | [] => []

def inline (v : Json) : String := String.ofList (guardClosing (lineChars v))

def newLine (depth : Nat) : List Char := '\n' :: List.replicate (2 * depth) ' '

mutual

def indentedChars (depth : Nat) : Json → List Char
  | .null => "null".toList
  | .bool true => "true".toList
  | .bool false => "false".toList
  | .int i => (toString i).toList
  | .float x => writeFloat x
  | .text s => writeString escapeAscii s
  | .array items =>
    if items.isEmpty then ['[', ']']
    else '[' :: indentedItems (depth + 1) items ++ newLine depth ++ [']']
  | .object fields =>
    if fields.isEmpty then ['\x7b', '\x7d']
    else '\x7b' :: indentedFields (depth + 1) fields ++ newLine depth ++ ['\x7d']

def indentedItems (depth : Nat) : List Json → List Char
  | [] => []
  | [v] => newLine depth ++ indentedChars depth v
  | v :: rest => newLine depth ++ indentedChars depth v ++ ',' :: indentedItems depth rest

def indentedFields (depth : Nat) : List (String × Json) → List Char
  | [] => []
  | [(k, v)] => newLine depth ++ writeString escapeAscii k ++ ':' :: ' ' :: indentedChars depth v
  | (k, v) :: rest =>
    newLine depth ++ writeString escapeAscii k ++ ':' :: ' ' :: indentedChars depth v ++
      ',' :: indentedFields depth rest

end

def indented (v : Json) : String := String.ofList (indentedChars 0 v)

end FlowAtlas.Json
