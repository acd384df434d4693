import ApiDocs.Syntax.Parser

set_option autoImplicit false

/-!
What stops a whole run. A declaration, a property or a type that cannot be made sense of is left
out where it stands and is no failure.
-/

namespace ApiDocs

inductive Failure where
  /-- The descriptors of the package do not say what the run needs. -/
  | config (message : String)
  /-- A source path that is not absolute. -/
  | invalidPath (path : String)
  /-- A source file that does not parse. -/
  | malformed (path : String)
  | notFound (path : String)
  /-- A file that exists and cannot be read, or a directory that does not. -/
  | unreadable (reason : String)
  /-- A document that is not JSON or has not the expected shape. -/
  | badDocument
deriving Repr, DecidableEq

namespace Failure

def message : Failure → String
  | .config message => message
  | .invalidPath path => "Invalid path: " ++ path
  | .malformed path => "TypeScript parse error in " ++ path ++ ": syntax error"
  | .notFound path => "File not found: " ++ path
  | .unreadable reason => "IO error: " ++ reason
  | .badDocument => "Serialization error: " ++ "unexpected document"

/-- The messages from the failure down to what caused it. -/
def chain (e : Failure) : List String :=
  match e with
  | .unreadable reason => [e.message, reason]
  | .badDocument => [e.message, "unexpected document"]
  | _ => [e.message]

end Failure

namespace Syntax.SourceText

/-- Reads a source file. Its path has to be absolute. -/
def read (path source : String) : Except Failure SourceText :=
  if path.startsWith "/" then
    match parse path source with
    | .ok s => .ok s
    | .error _ => .error (.malformed path)
  else .error (.invalidPath path)

/-- The text between two places. -/
def slice (s : SourceText) (start stop : Nat) : String :=
  String.ofList (s.text.extract start stop).toList

/-- The line of a place, from 1, and its column, from 0. A line feed ends a line. -/
def position (s : SourceText) (place : Nat) : Nat × Nat :=
  (s.text.extract 0 place).foldl
    (fun (line, column) c => if c = '\n' then (line + 1, 0) else (line, column + 1)) (1, 0)

end Syntax.SourceText

end ApiDocs
