import ApiDocs.Checker.Basic
import ApiDocs.Origin

set_option autoImplicit false

/-!
The names of symbols and types, and where they come from.
-/

namespace ApiDocs

/-- Whether a declaration stands in a file. -/
def DeclNode.isWritten : DeclNode → Bool
  | .external _ => false
  | .moduleNamespace _ => false
  | _ => true

namespace Bindings

/-- The name of a symbol with its namespaces, as it is shown. -/
def displayName (b : Bindings) (s : SymbolId) : String :=
  ".".intercalate ((b.enclosing (some s)).map b.nameOf).reverse

/-- The name of a type of which only the symbol is known. An alias that is being read goes by its
plain name. -/
def nominalName (b : Bindings) (s : SymbolId) : String :=
  if b.kind? s = some .typeAlias then b.nameOf s else b.displayName s

/-- The name of a symbol with its namespaces; global ones are marked. -/
def qualifiedName (b : Bindings) (s : SymbolId) : String :=
  let around := b.enclosing (some s)
  let outermost := (around.getLast?).bind b.symbol?
  let names := (around.map b.nameOf).reverse
  ".".intercalate (if outermost.any (·.global) then "global" :: names else names)

/-- The doc comments of the declarations of a symbol. -/
def docs (b : Bindings) (s : SymbolId) : List DocComment :=
  ((b.decls s).filter (·.node.isWritten)).map (·.doc)

/-- The text of the first declaration that has one. -/
def documentation (b : Bindings) (s : SymbolId) : String :=
  (((b.docs s).map (·.text)).find? (· ≠ "")).getD ""

/-- The doc comment of the first declaration that has one. -/
def docComment (b : Bindings) (s : SymbolId) : DocComment :=
  ((b.docs s).find? (!·.isEmpty)).getD {}

/-- The path of the file that a symbol is declared in. -/
def originPath? (b : Bindings) (p : Program) (s : SymbolId) : Option String :=
  (b.decls s).head?.map fun d =>
    match d.node with
    | .external module => Origin.externalPath module
    | _ => p.pathOf d.file

end Bindings

namespace Checker

/-- The symbol that declares a type. -/
def typeSymbol? (c : Checker) (t : TypeId) : Option SymbolId :=
  match c.arena.data t with
  | .reference symbol _ => some symbol
  | .object shape => shape.symbol
  | .nominal symbol _ => some symbol
  | _ => none

/-- The name of the type of JSX elements. -/
def elementName : String := "global.JSX.Element"

def isElement (c : Checker) (t : TypeId) : Bool :=
  match c.typeSymbol? t with
  | some s => c.bindings.qualifiedName s = elementName
  | none => false

/-- How deep types are followed that may contain themselves. -/
def maxDepth : Nat := 33

def textAt (c : Checker) : Nat → TypeId → String
  | 0, _ => "..."
  | n + 1, t =>
      match c.arena.alias? t with
      | some ref => c.bindings.displayName ref.symbol
      | none =>
          let joined (separator : String) (members : List TypeId) : String :=
            separator.intercalate (members.map (textAt c n))
          match c.arena.data t with
          | .intrinsic i => i.name
          | .booleanLiteral value => if value then "true" else "false"
          | .numberLiteral text => text
          | .stringLiteral value => "\"" ++ value ++ "\""
          | .union members => if c.arena.isBoolean t then "boolean" else joined " | " members
          | .intersection members => joined " & " members
          | .tuple items => "[" ++ joined ", " items ++ "]"
          | .object shape =>
              match shape.symbol with
              | some symbol => "typeof " ++ c.bindings.displayName symbol
              | none => "\x7b\x7d"
          | .reference symbol _ => c.bindings.displayName symbol
          | .typeParameter param => param.name
          | .keyOf of => "keyof " ++ textAt c n of
          | .indexedAccess object index => textAt c n object ++ "[" ++ textAt c n index ++ "]"
          | .mapped _ => "\x7b\x7d"
          | .nominal symbol _ => c.bindings.nominalName symbol
          | .unresolved name _ => name

/-- A printed type up to its type arguments. -/
def withoutArgs (text : String) : String := String.ofList (text.toList.takeWhile (· ≠ '<'))

/-- The printed name of a type, without type arguments. -/
def typeName (c : Checker) (t : TypeId) : String := withoutArgs (c.textAt maxDepth t)

end Checker

end ApiDocs
