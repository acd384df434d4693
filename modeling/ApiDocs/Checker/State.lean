import Std.Data.HashMap
import ApiDocs.Bindings.Follow
import ApiDocs.Ty.Arena

set_option autoImplicit false

/-!
The state of a type checker. Answers are worked out on demand and kept, so that the identity of a
declared type stays the same for a whole run. Types are created in the order in which questions are
worked out, and that order is part of the result, for it orders the members of unions.
-/

namespace ApiDocs

/-- Answers that are known, and questions that are being worked out. -/
structure Memo (κ α : Type) [BEq κ] [Hashable κ] where
  known : Std.HashMap κ α := {}
  running : List κ := []

namespace Memo

variable {κ α : Type} [BEq κ] [Hashable κ]

def find? (m : Memo κ α) (k : κ) : Option α := m.known[k]?

def isRunning (m : Memo κ α) (k : κ) : Bool := m.running.contains k

def enter (m : Memo κ α) (k : κ) : Memo κ α := { m with running := k :: m.running }

def leave (m : Memo κ α) (k : κ) (a : α) : Memo κ α :=
  { known := m.known.insert k a, running := m.running.erase k }

end Memo

/-- The symbols and types of a run, what is known about them, and what is being worked out. -/
structure Checker where
  bindings : Bindings
  arena : Arena := .initial
  /-- The types that symbols stand for in type position. -/
  declared : Std.HashMap SymbolId TypeId := {}
  /-- The type aliases whose bodies are being read. -/
  declaring : List SymbolId := []
  /-- The types of values. -/
  values : Memo SymbolId TypeId := {}
  typeParams : Std.HashMap SymbolId (List TypeId) := {}
  /-- The members of interfaces and classes in terms of their own type parameters. -/
  structures : Memo SymbolId Shape := {}
  /-- The apparent members of types. -/
  shapes : Memo TypeId Shape := {}
  /-- Types with `keyof`, indexed access and mapped types worked out. -/
  evaluated : Memo TypeId TypeId := {}
  /-- The type of JSX elements, once it was looked for. -/
  elementType : Option (Option TypeId) := none
  /-- Whether a question was given up because it was nested too deep. Answers may have come from a
  stand-in since then. -/
  gaveUp : Bool := false

end ApiDocs
