import ApiDocs.Json.Basic

set_option autoImplicit false

/-!
Reading JSON text.
-/

namespace ApiDocs.Json.Reader

def isSpace (c : Char) : Bool := c == ' ' || c == '\n' || c == '\t' || c == '\r'

def skipSpace (cs : List Char) : List Char := cs.dropWhile isSpace

def isDigit (c : Char) : Bool := '0' ≤ c && c ≤ '9'

def hexValue? (c : Char) : Option Nat :=
  if '0' ≤ c ∧ c ≤ '9' then some (c.toNat - '0'.toNat)
  else if 'a' ≤ c ∧ c ≤ 'f' then some (c.toNat - 'a'.toNat + 10)
  else if 'A' ≤ c ∧ c ≤ 'F' then some (c.toNat - 'A'.toNat + 10)
  else none

def hex4? (a b c d : Char) : Option Nat := do
  return ((← hexValue? a) * 16 + (← hexValue? b)) * 256 + (← hexValue? c) * 16 + (← hexValue? d)

def escaped? (c : Char) : Option Char :=
  if c = '"' ∨ c = '\\' ∨ c = '/' then some c
  else if c = 'n' then some '\n'
  else if c = 'r' then some '\r'
  else if c = 't' then some '\t'
  else if c = 'b' then some '\x08'
  else if c = 'f' then some '\x0c'
  else none

/-- The code units of a string up to its closing quote, last first; a character counts as one unit
here, and an escaped surrogate as another. -/
def units : List Nat → List Char → Option (List Nat × List Char)
  | _, [] => none
  | sofar, '"' :: rest => some (sofar, rest)
  | sofar, '\\' :: 'u' :: a :: b :: c :: d :: rest =>
      match hex4? a b c d with
      | some n => units (n :: sofar) rest
      | none => none
  | sofar, '\\' :: c :: rest =>
      match escaped? c with
      | some e => units (e.toNat :: sofar) rest
      | none => none
  | sofar, c :: rest => if c.toNat < 0x20 then none else units (c.toNat :: sofar) rest

def isHigh (n : Nat) : Bool := 0xD800 ≤ n && n < 0xDC00

def isLow (n : Nat) : Bool := 0xDC00 ≤ n && n < 0xE000

/-- Joins surrogate pairs of units given last first. Half of a pair has no text. -/
def joinPairs : List Char → List Nat → Option (List Char)
  | done, [] => some done
  | done, [n] => if isHigh n || isLow n then none else some (Char.ofNat n :: done)
  | done, low :: high :: rest =>
      if isLow low then
        if isHigh high then
          joinPairs (Char.ofNat (0x10000 + (high - 0xD800) * 0x400 + (low - 0xDC00)) :: done) rest
        else none
      else if isHigh low then none
      else joinPairs (Char.ofNat low :: done) (high :: rest)

/-- Reads a string after its opening quote. -/
def string? (cs : List Char) : Option (Json × List Char) :=
  match units [] cs with
  | none => none
  | some (codes, rest) =>
      match joinPairs [] codes with
      | some text => some (.string (String.ofList text), rest)
      | none => some (.broken, rest)

def digitsPart (cs : List Char) : List Char × List Char := cs.span isDigit

/-- The digits before the point: a leading zero stands alone. -/
def intPart? (cs : List Char) : Option (List Char × List Char) :=
  match cs with
  | '0' :: rest => match rest with
      | c :: _ => if isDigit c then none else some (['0'], rest)
      | [] => some (['0'], rest)
  | _ => match digitsPart cs with
      | ([], _) => none
      | parts => some parts

def fractionPart? (cs : List Char) : Option (List Char × List Char) :=
  match cs with
  | '.' :: rest => match digitsPart rest with
      | ([], _) => none
      | (digits, rest) => some ('.' :: digits, rest)
  | _ => some ([], cs)

def powerPart? (cs : List Char) : Option (List Char × List Char) :=
  match cs with
  | e :: rest =>
      if e = 'e' ∨ e = 'E' then
        let (sign, rest) := match rest with
          | s :: more => if s = '+' ∨ s = '-' then ([s], more) else ([], rest)
          | [] => ([], rest)
        match digitsPart rest with
        | ([], _) => none
        | (digits, rest) => some (e :: sign ++ digits, rest)
      else some ([], cs)
  | [] => some ([], cs)

def number? (cs : List Char) : Option (Json × List Char) := do
  let (sign, rest) := match cs with
    | '-' :: more => (['-'], more)
    | _ => ([], cs)
  let (whole, rest) ← intPart? rest
  let (fraction, rest) ← fractionPart? rest
  let (power, rest) ← powerPart? rest
  return (.number (String.ofList (sign ++ whole ++ fraction ++ power)), rest)

mutual

/-- Reads a document from the front of the text. The number bounds the steps. -/
def value? : Nat → List Char → Option (Json × List Char)
  | 0, _ => none
  | n + 1, cs =>
      match skipSpace cs with
      | 'n' :: 'u' :: 'l' :: 'l' :: rest => some (.null, rest)
      | 't' :: 'r' :: 'u' :: 'e' :: rest => some (.bool true, rest)
      | 'f' :: 'a' :: 'l' :: 's' :: 'e' :: rest => some (.bool false, rest)
      | '"' :: rest => string? rest
      | '[' :: rest =>
          match skipSpace rest with
          | ']' :: rest => some (.array [], rest)
          | rest => items? n [] rest
      | '\x7b' :: rest =>
          match skipSpace rest with
          | '\x7d' :: rest => some (.object [], rest)
          | rest => fields? n [] rest
      | rest => number? rest

/-- Reads the items of an array, after those in hand. -/
def items? : Nat → List Json → List Char → Option (Json × List Char)
  | 0, _, _ => none
  | n + 1, sofar, cs =>
      match value? n cs with
      | none => none
      | some (item, rest) =>
          match skipSpace rest with
          | ',' :: rest => items? n (item :: sofar) rest
          | ']' :: rest => some (.array (item :: sofar).reverse, rest)
          | _ => none

/-- Reads the fields of an object, after those in hand. -/
def fields? : Nat → List (String × Json) → List Char → Option (Json × List Char)
  | 0, _, _ => none
  | n + 1, sofar, cs =>
      match skipSpace cs with
      | '"' :: rest =>
          match string? rest with
          | some (.string name, rest) =>
              match skipSpace rest with
              | ':' :: rest =>
                  match value? n rest with
                  | none => none
                  | some (item, rest) =>
                      match skipSpace rest with
                      | ',' :: rest => fields? n ((name, item) :: sofar) rest
                      | '\x7d' :: rest => some (.object ((name, item) :: sofar).reverse, rest)
                      | _ => none
              | _ => none
          | _ => none
      | _ => none

end

end Reader

/-- The document that the whole text is, blanks around it apart. -/
def read? (text : String) : Option Json :=
  let cs := text.toList
  match Reader.value? (2 * cs.length + 2) cs with
  | some (doc, rest) => if Reader.skipSpace rest = [] then some doc else none
  | none => none

end ApiDocs.Json
