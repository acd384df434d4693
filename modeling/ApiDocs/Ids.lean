set_option autoImplicit false

/-!
Places in the tables of a program.
-/

namespace ApiDocs

/-- A place in the table of types. -/
structure TypeId where
  index : Nat
deriving DecidableEq, Hashable, Repr, Inhabited

/-- A place in the table of symbols. -/
structure SymbolId where
  index : Nat
deriving DecidableEq, Hashable, Repr, Inhabited

/-- A place in the list of files. -/
structure FileId where
  index : Nat
deriving DecidableEq, Hashable, Repr, Inhabited

/-- The text by which a document refers to a type. -/
def TypeId.key (id : TypeId) : String := toString id.index

end ApiDocs
