import ApiDocs.Text.Word
import ApiDocs.Syntax.Token

set_option autoImplicit false

/-!
Tokens of a source text. A scanner takes a place in the text and gives the place behind what it
read. Regular expressions, templates and JSX text look like other tokens from their first
character, so they have scanners of their own, for the parser to choose.
-/

namespace ApiDocs.Syntax

/-- The characters of a text, by their places. -/
structure Chars where
  size : Nat
  char? : Nat → Option Char

def Chars.ofArray (text : Array Char) : Chars := ⟨text.size, (text[·]?)⟩

namespace Lexer

open Number Text

def isLineBreak (c : Char) : Bool :=
  c == '\n' || c == '\r' || c == '\u2028' || c == '\u2029'

/-- Blanks inside a line. -/
def isSpace (c : Char) : Bool :=
  let n := c.toNat
  n == 0x20 || n == 0x09 || n == 0x0B || n == 0x0C || n == 0xA0 || n == 0xFEFF || n == 0x1680 ||
    (0x2000 ≤ n && n ≤ 0x200A) || n == 0x202F || n == 0x205F || n == 0x3000

def skipFrom (src : Chars) (test : Char → Bool) : Nat → Nat → Nat
  | 0, i => i
  | n + 1, i => if (src.char? i).any test then skipFrom src test n (i + 1) else i

/-- The first place from `i` on whose character fails the test. -/
def skipWhile (src : Chars) (test : Char → Bool) (i : Nat) : Nat :=
  skipFrom src test (src.size - i) i

def slice (src : Chars) (start stop : Nat) : List Char :=
  (List.range' start (stop - start)).filterMap src.char?

def sliceText (src : Chars) (start stop : Nat) : String := String.ofList (slice src start stop)

def holdsAt (src : Chars) : Nat → List Char → Bool
  | _, [] => true
  | i, c :: rest => src.char? i == some c && holdsAt src (i + 1) rest

def commentEndFrom? (src : Chars) : Nat → Nat → Option Nat
  | 0, _ => none
  | n + 1, i =>
      if src.char? i = some '*' ∧ src.char? (i + 1) = some '/' then some i
      else commentEndFrom? src n (i + 1)

/-- The place of `*/` from `i` on. -/
def commentEnd? (src : Chars) (i : Nat) : Option Nat := commentEndFrom? src (src.size - i) i

/-- What stands before a token. -/
structure Gap where
  stop : Nat
  afterBreak : Bool
  doc : Option String
  /-- A comment is not closed. -/
  unclosed : Bool := false

/-- Skips blanks and comments. A doc comment belongs to the next token, unless the token before can
take a comment and stands on the same line, or the comment stands right before a semicolon. -/
def gap (src : Chars) (before : Before) : Nat → Nat → Bool → Option String → Gap
  | 0, i, afterBreak, doc => ⟨i, afterBreak, doc, false⟩
  | fuel + 1, i, afterBreak, doc =>
      match src.char? i with
      | none => ⟨i, afterBreak, doc, false⟩
      | some c =>
          if isLineBreak c then gap src before fuel (i + 1) true doc
          else if isSpace c then gap src before fuel (i + 1) afterBreak doc
          else if c = '/' ∧ src.char? (i + 1) = some '/' then
            gap src before fuel (skipWhile src (!isLineBreak ·) (i + 2)) afterBreak doc
          else if c = '/' ∧ src.char? (i + 1) = some '*' then
            match commentEnd? src (i + 2) with
            | none => ⟨i, afterBreak, doc, true⟩
            | some stop =>
                let comment := slice src (i + 2) stop
                let next := skipWhile src (fun c => isSpace c || isLineBreak c) (stop + 2)
                let leads := (afterBreak || before ≠ .closing) && src.char? next ≠ some ';'
                let doc :=
                  if leads && comment.head? == some '*' then some (String.ofList comment) else doc
                gap src before fuel (stop + 2) (afterBreak || comment.any isLineBreak) doc
          else ⟨i, afterBreak, doc, false⟩

def hexDigit? (c : Char) : Option Nat :=
  if '0' ≤ c ∧ c ≤ '9' then some (c.toNat - '0'.toNat)
  else if 'a' ≤ c ∧ c ≤ 'f' then some (c.toNat - 'a'.toNat + 10)
  else if 'A' ≤ c ∧ c ≤ 'F' then some (c.toNat - 'A'.toNat + 10)
  else none

/-- The number that digits of the given base write. -/
def digits? (base : Nat) (ds : List Char) : Option Nat :=
  ds.foldlM (fun n d => do
    let v ← hexDigit? d
    if v < base then some (base * n + v) else none) 0

/-- The code point of an escape after `\u`, and the place behind it. -/
def unicodeEscape? (src : Chars) (i : Nat) : Option (Nat × Nat) :=
  if src.char? i = some '\x7b' then
    let stop := skipWhile src (· ≠ '\x7d') (i + 1)
    if stop < src.size ∧ i + 1 < stop then do
      let n ← digits? 16 (slice src (i + 1) stop)
      if n ≤ 0x10FFFF then some (n, stop + 1) else none
    else none
  else if i + 4 ≤ src.size then (digits? 16 (slice src i (i + 4))).map (·, i + 4)
  else none

/-- The characters of a name, last first, and the place behind it. -/
def nameChars (src : Chars) : Nat → Nat → List Char → Option (List Char × Nat)
  | 0, _, _ => none
  | fuel + 1, i, sofar =>
      match src.char? i with
      | none => some (sofar, i)
      | some c =>
          let fits (c : Char) : Bool := if sofar.isEmpty then isIdentStart c else isIdentPart c
          if c = '\\' then
            if src.char? (i + 1) = some 'u' then
              match unicodeEscape? src (i + 2) with
              | some (n, next) =>
                  if fits (Char.ofNat n) then nameChars src fuel next (Char.ofNat n :: sofar)
                  else none
              | none => none
            else none
          else if fits c then nameChars src fuel (i + 1) (c :: sofar)
          else some (sofar, i)

/-- Reads a name. -/
def name? (src : Chars) (i : Nat) : Option (String × Nat) :=
  match nameChars src (src.size - i + 1) i [] with
  | some ([], _) => none
  | some (cs, next) => some (String.ofList cs.reverse, next)
  | none => none

def isHexPart (c : Char) : Bool := (hexDigit? c).isSome || c == '_'

def isDigitPart (c : Char) : Bool := isDigit c || c == '_'

def withoutMarks (ds : List Char) : List Char := ds.filter (· ≠ '_')

/-- Reads a number of base 2, 8 or 16 after its two-character mark. -/
def radixNumber (src : Chars) (base i : Nat) : TokenKind × Nat :=
  let stop := skipWhile src isHexPart i
  match withoutMarks (slice src i stop) with
  | [] => (.malformed, stop)
  | ds =>
      match digits? base ds with
      | none => (.malformed, stop)
      | some n =>
          if src.char? stop = some 'n' then (.bigint (toString n), stop + 1)
          else (.number (Binary64.ofNat n), stop)

/-- The place behind an exponent, when there is one. -/
def exponentEnd (src : Chars) (i : Nat) : Nat :=
  if src.char? i = some 'e' ∨ src.char? i = some 'E' then
    let sign := if src.char? (i + 1) = some '+' ∨ src.char? (i + 1) = some '-' then 1 else 0
    let stop := skipWhile src isDigitPart (i + 1 + sign)
    if i + 1 + sign < stop then stop else i
  else i

def decimalNumber (src : Chars) (i : Nat) : TokenKind × Nat :=
  let whole := skipWhile src isDigitPart i
  if src.char? whole = some 'n' ∧ i < whole then
    (.bigint (toString (ofDigits (withoutMarks (slice src i whole)))), whole + 1)
  else
    let fraction :=
      if src.char? whole = some '.' then skipWhile src isDigitPart (whole + 1) else whole
    let stop := exponentEnd src fraction
    match decimal? false (withoutMarks (slice src i stop)) with
    | some value => (.number value, stop)
    | none => (.malformed, stop)

/-- Reads a number; a name may not follow directly. -/
def number (src : Chars) (i : Nat) : TokenKind × Nat :=
  let mark := src.char? (i + 1)
  let (kind, stop) :=
    if src.char? i = some '0' ∧ (mark = some 'x' ∨ mark = some 'X') then radixNumber src 16 (i + 2)
    else if src.char? i = some '0' ∧ (mark = some 'o' ∨ mark = some 'O') then radixNumber src 8 (i + 2)
    else if src.char? i = some '0' ∧ (mark = some 'b' ∨ mark = some 'B') then radixNumber src 2 (i + 2)
    else if src.char? i = some '0' ∧ mark.any isDigit then
      let stop := skipWhile src isDigit i
      match digits? 8 (slice src i stop) with
      | some n => (.number (Binary64.ofNat n), stop)
      | none => decimalNumber src i
    else decimalNumber src i
  match src.char? stop with
  | some c => if isIdentStart c || isDigit c || c == '\\' then (.malformed, stop) else (kind, stop)
  | none => (kind, stop)

def escapedCode (c : Char) : Nat :=
  if c = 'n' then 10 else if c = 't' then 9 else if c = 'r' then 13 else if c = 'b' then 8
  else if c = 'v' then 11 else if c = 'f' then 12 else c.toNat

def isOctal (c : Char) : Bool := '0' ≤ c && c ≤ '7'

/-- The code of an octal escape of at most three digits and one byte. -/
def octalEscape (src : Chars) (i : Nat) : Nat × Nat :=
  let stop := min (skipWhile src isOctal i) (i + 3)
  let value (stop : Nat) : Nat := (digits? 8 (slice src i stop)).getD 0
  if value stop < 256 then (value stop, stop) else (value (stop - 1), stop - 1)

/-- The code of an escape after the backslash, none for a line continuation, and the place behind
it. -/
def escape? (src : Chars) (i : Nat) : Option (Option Nat × Nat) :=
  match src.char? i with
  | none => none
  | some c =>
      if c = 'x' then
        if i + 3 ≤ src.size then (digits? 16 (slice src (i + 1) (i + 3))).map (some ·, i + 3)
        else none
      else if c = 'u' then (unicodeEscape? src (i + 1)).map fun (n, next) => (some n, next)
      else if isOctal c then
        let (n, next) := octalEscape src i
        some (some n, next)
      else if c = '\r' ∧ src.char? (i + 1) = some '\n' then some (none, i + 2)
      else if isLineBreak c then some (none, i + 1)
      else some (some (escapedCode c), i + 1)

/-- The codes of a string up to its closing quote, last first. -/
def stringCodes (src : Chars) (quote : Char) :
    Nat → Nat → List Nat → Option (List Nat × Nat)
  | 0, _, _ => none
  | fuel + 1, i, sofar =>
      match src.char? i with
      | none => none
      | some c =>
          if c = quote then some (sofar, i + 1)
          else if c = '\n' ∨ c = '\r' then none
          else if c = '\\' then
            match escape? src (i + 1) with
            | none => none
            | some (code, next) => stringCodes src quote fuel next (code.toList ++ sofar)
          else stringCodes src quote fuel (i + 1) (c.toNat :: sofar)

def isHigh (n : Nat) : Bool := 0xD800 ≤ n && n < 0xDC00

def isLow (n : Nat) : Bool := 0xDC00 ≤ n && n < 0xE000

/-- Stands for half of a surrogate pair: one replacement character for each of its three bytes. -/
def loneHalf : List Char := ['\uFFFD', '\uFFFD', '\uFFFD']

/-- The text of codes given last first; the two halves of a pair join. -/
def textOfCodes : List Char → List Nat → List Char
  | done, [] => done
  | done, [n] => if isHigh n || isLow n then loneHalf ++ done else Char.ofNat n :: done
  | done, low :: high :: rest =>
      if isLow low && isHigh high then
        textOfCodes (Char.ofNat (0x10000 + (high - 0xD800) * 0x400 + (low - 0xDC00)) :: done) rest
      else if isHigh low || isLow low then textOfCodes (loneHalf ++ done) (high :: rest)
      else textOfCodes (Char.ofNat low :: done) (high :: rest)

def string (src : Chars) (quote : Char) (i : Nat) : TokenKind × Nat :=
  match stringCodes src quote (src.size - i + 1) i [] with
  | some (codes, next) => (.string (String.ofList (textOfCodes [] codes)), next)
  | none => (.malformed, i)

/-- Operators and marks, longest first. `>` is always read alone, for it may close type
arguments. -/
def punctuators : List (List Char) :=
  ["...", "===", "!==", "**=", "&&=", "||=", "??=", "<<=",
    "=>", "==", "!=", "++", "--", "+=", "-=", "*=", "/=", "%=", "&=", "|=", "^=", "**", "&&", "||",
    "??", "?.", "<<", "<=",
    "\x7b", "\x7d", "(", ")", "[", "]", ";", ",", "<", ">", "+", "-", "*", "/", "%", "&", "|", "^",
    "!", "~", "?", ":", "=", ".", "@"].map String.toList

def punct (src : Chars) (i : Nat) : TokenKind × Nat :=
  let fits (mark : List Char) : Bool :=
    holdsAt src i mark && !(mark = ['?', '.'] && (src.char? (i + 2)).any isDigit)
  match punctuators.find? fits with
  | some mark => (.punct (String.ofList mark), i + mark.length)
  | none => (.malformed, i + 1)

/-- Reads the token that starts at a place. -/
def kindAt (src : Chars) (i : Nat) : TokenKind × Nat :=
  match src.char? i with
  | none => (.endOfFile, i)
  | some c =>
      if isIdentStart c || c = '\\' then
        match name? src i with
        | some (text, next) => (.name text, next)
        | none => (.malformed, i + 1)
      else if isDigit c || (c = '.' && (src.char? (i + 1)).any isDigit) then number src i
      else if c = '"' || c = '\x27' then string src c (i + 1)
      else if c = '\x60' then (.backquote, i + 1)
      else if c = '#' then
        match name? src (i + 1) with
        | some (text, next) => (.privateName text, next)
        | none => (.malformed, i + 1)
      else punct src i

/-- The next token from a place on. -/
def token (src : Chars) (before : Before) (i : Nat) : Token :=
  let g := gap src before (src.size - i + 1) i (before = .fileStart) none
  if g.unclosed then ⟨.malformed, g.stop, g.stop, g.afterBreak, none⟩
  else
    let (kind, stop) := kindAt src g.stop
    ⟨kind, g.stop, stop, g.afterBreak, if kind = .endOfFile then none else g.doc⟩

/-- Reads a template up to its closing quote or the next substitution: the place of that mark, and
whether it is the closing quote. -/
def templatePart? (src : Chars) : Nat → Nat → Option (Nat × Bool)
  | 0, _ => none
  | fuel + 1, i =>
      match src.char? i with
      | none => none
      | some c =>
          if c = '\x60' then some (i, true)
          else if c = '$' ∧ src.char? (i + 1) = some '\x7b' then some (i, false)
          else if c = '\\' then templatePart? src fuel (i + 2)
          else templatePart? src fuel (i + 1)

/-- The place behind a regular expression, given the place behind its first slash. -/
def regexEnd? (src : Chars) : Nat → Nat → Bool → Option Nat
  | 0, _, _ => none
  | fuel + 1, i, inClass =>
      match src.char? i with
      | none => none
      | some c =>
          if isLineBreak c then none
          else if c = '\\' then
            if (src.char? (i + 1)).any (!isLineBreak ·) then regexEnd? src fuel (i + 2) inClass else none
          else if c = '/' ∧ !inClass then some (skipWhile src isIdentPart (i + 1))
          else if c = '[' then regexEnd? src fuel (i + 1) true
          else if c = ']' then regexEnd? src fuel (i + 1) false
          else regexEnd? src fuel (i + 1) inClass

/-- The place behind a first line that starts with `#!`. -/
def shebangEnd (src : Chars) : Nat :=
  if holdsAt src 0 ['#', '!'] then skipWhile src (!isLineBreak ·) 2 else 0

end Lexer

end ApiDocs.Syntax
