import ApiDocs.Syntax.Parser.Elements
import ApiDocs.Syntax.Parser.Items

set_option autoImplicit false

/-!
The parser of a source file: its rules tied together, with a bound on how deep they nest.
-/

namespace ApiDocs.Syntax

namespace Parser

/-- What each rule reads, given the others. -/
def step (rules : Rules) : {α : Type} → Rule α → Parse α
  | _, .type plain => type rules plain
  | _, .resultType => resultType rules
  | _, .typeMember => typeMember rules
  | _, .typeParams => typeParams rules
  | _, .params => params rules
  | _, .pattern => pattern rules
  | _, .assignment place => assignment rules place
  | _, .expression noIn => expression rules noIn
  | _, .unary => unary rules
  | _, .leftHandSide => leftHandSide rules
  | _, .member => member rules
  | _, .object => object rules
  | _, .functionExpr => functionExpr rules
  | _, .method isAsync isGenerator => method rules isAsync isGenerator
  | _, .classExpr => classRest rules
  | _, .element => element rules
  | _, .block => block rules
  | _, .statement => statement rules
  | _, .decl => decl rules
  | _, .namespaceBody => namespaceBody rules

/-- Ties the rules together. The number bounds how deep their calls nest. -/
def run : Nat → {α : Type} → Rule α → Parse α
  | 0, _, _ => Parse.fail
  | n + 1, _, rule => step { call := fun other => run n other } rule

/-- Rules call each other a few times for each character at most. -/
def depthFor (text : Chars) : Nat := 16 * (text.size + 4)

/-- The items of a text. -/
def parseItems (dialect : Dialect) (text : Chars) : Except SyntaxError (List Item) :=
  let start := Lexer.shebangEnd text
  let cursor : Cursor := ⟨Lexer.token text .fileStart start, start⟩
  let rules : Rules := { call := fun rule => run (depthFor text) rule }
  match items rules ⟨text, dialect⟩ cursor with
  | .ok (found, _) => .ok found
  | .error e => .error e

end Parser

namespace SourceText

/-- Reads a source file whose dialect its path tells. -/
def parse (path source : String) : Except SyntaxError SourceText :=
  let text := source.toList.toArray
  match Parser.parseItems (Dialect.ofPath path) (.ofArray text) with
  | .ok items => .ok ⟨path, text, items⟩
  | .error e => .error e

end SourceText

end ApiDocs.Syntax
