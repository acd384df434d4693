import ApiDocs.Json.Basic

set_option autoImplicit false

/-!
JSON text, on one line or with four blanks for each level.
-/

namespace ApiDocs.Json

def hexDigit (n : Nat) : Char := "0123456789abcdef".toList.getD n '0'

/-- Quotes, backslashes and control characters are escaped, all else stands for itself. -/
def escape (c : Char) : List Char :=
  if c = '"' then ['\\', '"']
  else if c = '\\' then ['\\', '\\']
  else if c = '\n' then ['\\', 'n']
  else if c = '\r' then ['\\', 'r']
  else if c = '\t' then ['\\', 't']
  else if c = '\x08' then ['\\', 'b']
  else if c = '\x0c' then ['\\', 'f']
  else if c.toNat < 0x20 then ['\\', 'u', '0', '0', hexDigit (c.toNat / 16), hexDigit (c.toNat % 16)]
  else [c]

def quote (text : String) : String := "\"" ++ String.ofList (text.toList.flatMap escape) ++ "\""

mutual

/-- The document on one line, without blanks. -/
def compact : Json → String
  | .null => "null"
  | .bool true => "true"
  | .bool false => "false"
  | .number text => text
  | .string text => quote text
  | .broken => "null"
  | .array items => "[" ++ compactItems items ++ "]"
  | .object fields => "\x7b" ++ compactFields fields ++ "\x7d"

def compactItems : List Json → String
  | [] => ""
  | [item] => compact item
  | item :: next :: rest => compact item ++ "," ++ compactItems (next :: rest)

def compactFields : List (String × Json) → String
  | [] => ""
  | [(name, value)] => quote name ++ ":" ++ compact value
  | (name, value) :: next :: rest =>
      quote name ++ ":" ++ compact value ++ "," ++ compactFields (next :: rest)

end

/-- Nested documents are set in by four blanks a level. -/
def margin (depth : Nat) : String := "\n" ++ String.ofList (List.replicate (4 * depth) ' ')

mutual

/-- The document with each item and each field on a line of its own. -/
def prettyAt (depth : Nat) : Json → String
  | .array [] => "[]"
  | .array (item :: rest) =>
      "[" ++ margin (depth + 1) ++ prettyAt (depth + 1) item ++ prettyItems (depth + 1) rest ++
        margin depth ++ "]"
  | .object [] => "\x7b\x7d"
  | .object ((name, value) :: rest) =>
      "\x7b" ++ margin (depth + 1) ++ quote name ++ ": " ++ prettyAt (depth + 1) value ++
        prettyFields (depth + 1) rest ++ margin depth ++ "\x7d"
  | .null => "null"
  | .bool true => "true"
  | .bool false => "false"
  | .number text => text
  | .string text => quote text
  | .broken => "null"

def prettyItems (depth : Nat) : List Json → String
  | [] => ""
  | item :: rest => "," ++ margin depth ++ prettyAt depth item ++ prettyItems depth rest

def prettyFields (depth : Nat) : List (String × Json) → String
  | [] => ""
  | (name, value) :: rest =>
      "," ++ margin depth ++ quote name ++ ": " ++ prettyAt depth value ++ prettyFields depth rest

end

def pretty (doc : Json) : String := prettyAt 0 doc

end ApiDocs.Json
