import ApiDocs.Number.Binary64

set_option autoImplicit false

/-!
Tokens of source text.
-/

namespace ApiDocs.Syntax

open Number

/-- The kinds of tokens. A name is any word, reserved or not; what it means depends on its place. -/
inductive TokenKind where
  | name (text : String)
  | privateName (text : String)
  | punct (text : String)
  | number (value : Binary64)
  | bigint (digits : String)
  | string (value : String)
  /-- The opening quote of a template. -/
  | backquote
  | endOfFile
  /-- Characters that form no token. -/
  | malformed
deriving Repr, DecidableEq, Inhabited

/-- A token, the places where it starts and ends, and what stands between it and the one before:
whether there is a line break, and the last doc comment that belongs to this token. -/
structure Token where
  kind : TokenKind
  start : Nat
  stop : Nat
  afterBreak : Bool
  doc : Option String
deriving Repr, Inhabited

/-- What the token before a comment was, as far as a comment can belong to it. -/
inductive Before where
  /-- There is no token before. -/
  | fileStart
  /-- A comment on the same line belongs to the token before it. -/
  | closing
  /-- A comment belongs to the token after it. -/
  | opening
deriving Repr, DecidableEq

/-- Words that are operators, statements or values of their own and never names of variables. -/
def reservedWords : List String :=
  ["break", "case", "catch", "class", "const", "continue", "debugger", "default", "delete", "do",
    "else", "enum", "export", "extends", "false", "finally", "for", "function", "if", "import",
    "in", "instanceof", "interface", "new", "null", "return", "super", "switch", "this", "throw",
    "true", "try", "typeof", "var", "void", "while", "with"]

/-- Words that are kept free in modules: they can name members, but no values. -/
def heldWords : List String := ["implements", "package", "private", "protected", "public"]

/-- Words after which a comment always belongs to the next token. -/
def keywords : List String :=
  ["await", "break", "case", "catch", "class", "const", "continue", "debugger", "default", "delete",
    "do", "else", "export", "extends", "false", "finally", "for", "function", "if", "import", "in",
    "instanceof", "let", "new", "null", "return", "super", "switch", "this", "throw", "true", "try",
    "typeof", "var", "void", "while", "with", "yield"]

/-- Whether a comment behind the token, on the same line, belongs to it. -/
def TokenKind.before : TokenKind → Before
  | .name text => if keywords.contains text then .opening else .closing
  | .punct text => if text = ";" ∨ text = "\x7b" ∨ text = "\x7d" then .closing else .opening
  | .number _ => .closing
  | .bigint _ => .closing
  | .string _ => .closing
  | .privateName _ => .closing
  | _ => .opening

end ApiDocs.Syntax
