import ApiDocs.Text.Blank
import ApiDocs.Text.Lines
import ApiDocs.Text.Word

set_option autoImplicit false

/-!
Doc comments: a description and tags, read from the text between the comment marks.
-/

namespace ApiDocs

/-- One `@tag` of a doc comment. -/
inductive DocTag where
  | param (name : String) (doc : Option String) (optional : Bool)
  | returns (doc : Option String)
  | deprecated (doc : Option String)
  | usage (doc : String)
  | other (tag value : String)
deriving DecidableEq, Repr

/-- A doc comment: the text before its first tag, and its tags in order. -/
structure DocComment where
  description : Option String := none
  tags : List DocTag := []
deriving DecidableEq, Repr, Inhabited

namespace DocComment

open Text

def empty : DocComment := {}

/-- The text of one line without comment marks and gutter. -/
def cleanLine (trimmed : List Char) : List Char :=
  let opened :=
    if startsWith "/**".toList trimmed then trimStart (dropMarks "/**".toList trimmed) else trimmed
  let content := match dropMark? ['*', ' '] opened with
    | some rest => rest
    | none => (dropMark? ['*'] opened).getD opened
  if endsWith ['*', '/'] content then trimEnd (dropEndMarks ['*', '/'] content) else content

/-- Adds a line to the text so far. Bare marks are left out, and a bare gutter before any text. -/
def addLine (sofar line : List Char) : List Char :=
  let trimmed := trim line
  if trimmed = "/**".toList ∨ trimmed = ['*', '/'] ∨ (trimmed = ['*'] ∧ sofar = []) then sofar
  else if sofar = [] then cleanLine trimmed
  else sofar ++ '\n' :: cleanLine trimmed

/-- The comment without its marks and gutters. -/
def clean (comment : List Char) : List Char := trim ((lines comment).foldl addLine [])

/-- The trimmed text, when there is any. -/
def nonBlank (cs : List Char) : Option String :=
  let trimmed := trim cs
  if trimmed = [] then none else some (String.ofList trimmed)

/-- The cleaned text up to its first line that starts with `@`. -/
def descriptionOf (cleaned : List Char) : Option String :=
  if startsWith ['@'] cleaned then none
  else match Text.find? ['\n', '@'] cleaned with
    | some place => nonBlank (cleaned.take place)
    | none => nonBlank cleaned

/-- The text after a leading type in braces and the blanks behind it. -/
def dropType (cs : List Char) : List Char :=
  match cs with
  | '{' :: rest =>
      match rest.dropWhile (· ≠ '}') with
      | _ :: after => after.dropWhile isBlank
      | [] => cs
  | _ => cs

def isNameChar (c : Char) : Bool := isWord c || c == '$' || c == '.'

/-- Drops a leading `-` and the blanks behind it. -/
def dropDash (cs : List Char) : List Char :=
  match cs with
  | '-' :: rest => rest.dropWhile isBlank
  | _ => cs

/-- Reads `{type} [name=default] - text`, of which only the name is required. -/
def param? (content : List Char) : Option DocTag :=
  let body := dropType content
  let (optional, body) := match body with
    | '[' :: rest => (true, rest)
    | _ => (false, body)
  let name := body.takeWhile isNameChar
  if name = [] then none
  else
    let rest := body.dropWhile isNameChar
    let rest := match rest with
      | '=' :: more => more.dropWhile (· ≠ ']')
      | _ => rest
    let rest := match rest with
      | ']' :: more => more
      | _ => rest
    let text := dropDash (rest.dropWhile isBlank)
    some (.param (String.ofList name) (nonBlank text) optional)

def tagOf (tag content : List Char) : DocTag :=
  let content := trim content
  let other := DocTag.other (String.ofList tag) (String.ofList content)
  if tag = "param".toList ∨ tag = "arg".toList ∨ tag = "argument".toList then
    (param? content).getD other
  else if tag = "returns".toList ∨ tag = "return".toList then
    .returns (nonBlank (dropMarks ['-'] (dropType content)))
  else if tag = "deprecated".toList then .deprecated (nonBlank content)
  else if tag = "example".toList then .usage (String.ofList content)
  else other

/-- The tags read so far, last first, and the tag that is being read. -/
structure TagReader where
  done : List DocTag := []
  current : Option (List Char × List Char) := none

def TagReader.close (r : TagReader) : List DocTag :=
  match r.current with
  | some (tag, content) => tagOf tag content :: r.done
  | none => r.done

/-- A line that starts with `@` opens a tag; any other line continues the open one. -/
def TagReader.line (r : TagReader) (line : List Char) : TagReader :=
  let trimmed := trim line
  match trimmed with
  | '@' :: after =>
      let tag := after.takeWhile (!isBlank ·)
      ⟨r.close, some (tag, trim (after.dropWhile (!isBlank ·)))⟩
  | _ =>
      match r.current with
      | none => r
      | some (tag, content) =>
          let content := if content = [] then trimmed else content ++ '\n' :: trimmed
          { r with current := some (tag, content) }

def tagsOf (cleaned : List Char) : List DocTag :=
  ((lines cleaned).foldl TagReader.line {}).close.reverse

/-- Reads a block comment, given with or without its marks. -/
def parse (comment : String) : DocComment :=
  let cleaned := clean comment.toList
  ⟨descriptionOf cleaned, tagsOf cleaned⟩

def isEmpty (doc : DocComment) : Bool := doc.description.isNone && doc.tags.isEmpty

def text (doc : DocComment) : String := doc.description.getD ""

/-- The text of the first tag for the parameter `name`; it is empty when the tag has none. -/
def param (doc : DocComment) (name : String) : Option String :=
  doc.tags.findSome? fun
    | .param n d _ => if n = name then some (d.getD "") else none
    | _ => none

/-- The text of the first `@returns` that has one. -/
def returns (doc : DocComment) : Option String :=
  doc.tags.findSome? fun
    | .returns d => d
    | _ => none

def isDeprecated (doc : DocComment) : Bool :=
  doc.tags.any fun
    | .deprecated _ => true
    | _ => false

end DocComment

end ApiDocs
