import ApiDocs.Path
import ApiDocs.Syntax.Lexer
import ApiDocs.Syntax.Tree

set_option autoImplicit false

/-!
The state of a parser, and the rules of the grammar. A rule that needs others, or itself, calls
them through `Rules`; how deep such calls nest is bounded where the rules are tied together.
-/

namespace ApiDocs.Syntax

/-- The language that a file is written in. -/
structure Dialect where
  typed : Bool
  elements : Bool
deriving Repr, DecidableEq

/-- The dialect of a file, by its extension in either case. -/
def Dialect.ofPath (path : String) : Dialect :=
  match ((Path.ofText path).extension?.map fun e => String.ofList (e.map Char.toLower)).getD "" with
  | "ts" => ⟨true, false⟩
  | "mts" => ⟨true, false⟩
  | "cts" => ⟨true, false⟩
  | "tsx" => ⟨true, true⟩
  | "jsx" => ⟨false, true⟩
  | _ => ⟨false, false⟩

/-- The place at which a text is not well formed. -/
structure SyntaxError where
  place : Nat
deriving Repr, DecidableEq

/-- The token in view, and the place behind the token before it. -/
structure Cursor where
  token : Token
  stop : Nat

/-- What a parser reads: a text in a dialect. -/
structure Input where
  text : Chars
  dialect : Dialect

/-- A parser. -/
abbrev Parse := ReaderT Input (StateT Cursor (Except SyntaxError))

namespace Parse

def view : Parse Token := return (← get).token

def kind : Parse TokenKind := return (← get).token.kind

def typed : Parse Bool := return (← read).dialect.typed

def fail {α : Type} : Parse α := do throw ⟨(← get).token.start⟩

/-- Goes on at a place, behind a token of the given sort. -/
def moveTo (place : Nat) (before : Before) : Parse Unit := do
  let input ← read
  set ({ token := Lexer.token input.text before place, stop := place } : Cursor)

/-- Goes on to the next token. -/
def advance : Parse Unit := do
  let token ← view
  moveTo token.stop token.kind.before

/-- Runs a parser; if it fails, stays where it started. -/
def attempt {α : Type} (p : Parse α) : Parse (Option α) := fun input cursor =>
  match p input cursor with
  | .ok (a, next) => .ok (some a, next)
  | .error _ => .ok (none, cursor)

/-- The answer of a parser, which reads nothing. -/
def lookAhead {α : Type} (p : Parse α) : Parse α := fun input cursor =>
  match p input cursor with
  | .ok (a, _) => .ok (a, cursor)
  | .error e => .error e

/-- Whether a parser succeeds; it reads nothing. -/
def succeeds {α : Type} (p : Parse α) : Parse Bool :=
  return (← lookAhead (attempt p)).isSome

def at_ (mark : String) : Parse Bool := return (← kind) = .punct mark

def atName (text : String) : Parse Bool := return (← kind) = .name text

/-- Whether one of the words is in view. -/
def atNames (texts : List String) : Parse Bool := do
  match ← kind with
  | .name text => return texts.contains text
  | _ => return false

def afterBreak : Parse Bool := return (← view).afterBreak

def eat (mark : String) : Parse Bool := do
  if ← at_ mark then
    advance
    return true
  else return false

def eatName (text : String) : Parse Bool := do
  if ← atName text then
    advance
    return true
  else return false

def expect (mark : String) : Parse Unit := do
  unless ← eat mark do fail

def expectName (text : String) : Parse Unit := do
  unless ← eatName text do fail

/-- Ends a statement: at a semicolon, or where a line break, a closing brace or the end of the text
stands for one. -/
def endStatement : Parse Unit := do
  unless ← eat ";" do
    unless (← at_ "\x7d") || (← kind) = .endOfFile || (← afterBreak) do fail

/-- Whether a statement could end here. -/
def canEndStatement : Parse Bool :=
  return (← at_ ";") || (← at_ "\x7d") || (← kind) = .endOfFile || (← afterBreak)

/-- The name of a variable, type or parameter. -/
def ident : Parse String := do
  match ← kind with
  | .name text =>
      if reservedWords.contains text then fail
      else
        advance
        return text
  | _ => fail

/-- Any word, reserved or not. -/
def word : Parse String := do
  match ← kind with
  | .name text =>
      advance
      return text
  | _ => fail

/-- Whether a name of a variable is in view. -/
def atIdent : Parse Bool := do
  match ← kind with
  | .name text => return !reservedWords.contains text
  | _ => return false

def stringValue : Parse String := do
  match ← kind with
  | .string value =>
      advance
      return value
  | _ => fail

/-- The doc comment of the token in view. -/
def docHere : Parse DocComment :=
  return ((← view).doc.map DocComment.parse).getD {}

/-- The text from a place to the end of the last token that was read. -/
def textFrom (start : Nat) : Parse String :=
  return Lexer.sliceText (← read).text start (← get).stop

def startHere : Parse Nat := return (← view).start

/-- Collects answers until there is none. -/
def collectFrom {α : Type} (next : Parse (Option α)) : Nat → List α → Parse (List α)
  | 0, _ => fail
  | n + 1, sofar => do
      match ← next with
      | some a => collectFrom next n (a :: sofar)
      | none => return sofar.reverse

/-- An answer takes at least one character, so the length of the text bounds their number. -/
def collect {α : Type} (next : Parse (Option α)) : Parse (List α) := do
  collectFrom next ((← read).text.size + 2) []

/-- Items up to a closing mark, which is read too. -/
def itemsUntil {α : Type} (close : String) (item : Parse α) : Parse (List α) :=
  collect do
    if ← eat close then return none
    else return some (← item)

/-- Items with commas between them, and maybe one at the end, up to a closing mark. -/
def commaList {α : Type} (close : String) (item : Parse α) : Parse (List α) :=
  itemsUntil close do
    let a ← item
    unless ← at_ close do expect ","
    return a

/-- Goes on from one state to the next until there is none. -/
def extendFrom {α : Type} (next : α → Parse (Option α)) : Nat → α → Parse α
  | 0, _ => fail
  | n + 1, a => do
      match ← next a with
      | some b => extendFrom next n b
      | none => return a

def extend {α : Type} (next : α → Parse (Option α)) (start : α) : Parse α := do
  extendFrom next ((← read).text.size + 2) start

end Parse

/-- Where an expression stands. -/
structure Place where
  /-- `in` is no operator here. -/
  noIn : Bool := false
  /-- The expression is followed by the colon of a conditional one. -/
  beforeColon : Bool := false
deriving Repr, DecidableEq

/-- The rules that call each other. -/
inductive Rule : Type → Type where
  /-- A type; `plain` means that a conditional type cannot stand here. -/
  | type (plain : Bool) : Rule TypeExpr
  /-- The type of a result, where a predicate can stand too. -/
  | resultType : Rule TypeExpr
  | typeMember : Rule (Option TypeMember)
  | typeParams : Rule (List TypeParam)
  | params : Rule (List Pattern)
  | pattern : Rule Pattern
  | assignment (place : Place) : Rule Expr
  | expression (noIn : Bool) : Rule Expr
  | unary : Rule Expr
  | leftHandSide : Rule Expr
  | member : Rule Expr
  | object : Rule Expr
  | functionExpr : Rule Expr
  | method (isAsync isGenerator : Bool) : Rule FunctionExpr
  | classExpr : Rule (Option String × ClassExpr)
  | element : Rule Unit
  | block : Rule (List Stmt)
  | statement : Rule Stmt
  | decl : Rule (Option Decl)
  | namespaceBody : Rule NamespaceBody

/-- The rules, as they are available to each other. -/
structure Rules where
  call : {α : Type} → Rule α → Parse α

end ApiDocs.Syntax
