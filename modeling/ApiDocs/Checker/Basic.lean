import ApiDocs.Checker.Monad

set_option autoImplicit false

/-!
What the parts of the checker are written with, and the questions that they ask each other.
-/

namespace ApiDocs

open Syntax

/-- Where a type annotation stands. -/
structure TypeScope where
  file : FileId
  inside : Option SymbolId := none
  /-- The type parameters in reach, the innermost first. -/
  params : List (String × TypeId) := []
  this : Option TypeId := none

namespace TypeScope

def withParams (s : TypeScope) (names : List String) (ids : List TypeId) : TypeScope :=
  { s with params := (names.zip ids).reverse ++ s.params }

def param? (s : TypeScope) (name : String) : Option TypeId := s.params.lookup name

end TypeScope

/-- Where an expression stands: the scope of its types, and the local values in reach, the latest
first. -/
structure ValueScope where
  types : TypeScope
  locals : List (String × TypeId) := []

namespace ValueScope

def bind (s : ValueScope) (name : String) (type : TypeId) : ValueScope :=
  { s with locals := (name, type) :: s.locals }

def local? (s : ValueScope) (name : String) : Option TypeId := s.locals.lookup name

end ValueScope

/-- Types for type parameters. -/
abbrev Substitution := List (TypeId × TypeId)

/-- What a walk through statements has found: the scope behind them, and the types that they
return. -/
structure Returns where
  scope : ValueScope
  types : List TypeId := []

namespace Check

/-! ### Types -/

def info (t : TypeId) : Check TypeInfo := return (← state).arena.info t

def data (t : TypeId) : Check TypeData := return (← state).arena.data t

def alias? (t : TypeId) : Check (Option AliasRef) := return (← state).arena.alias? t

def isBoolean (t : TypeId) : Check Bool := return (← state).arena.isBoolean t

@[simp] theorem outcome_info (t : TypeId) (p : Program) (c : Checker) :
    (info t).outcome p c = (c.arena.info t, c) := rfl

@[simp] theorem outcome_data (t : TypeId) (p : Program) (c : Checker) :
    (data t).outcome p c = (c.arena.data t, c) := rfl

@[simp] theorem outcome_alias? (t : TypeId) (p : Program) (c : Checker) :
    (alias? t).outcome p c = (c.arena.alias? t, c) := rfl

@[simp] theorem outcome_isBoolean (t : TypeId) (p : Program) (c : Checker) :
    (isBoolean t).outcome p c = (c.arena.isBoolean t, c) := rfl

def add (data : TypeData) : Check TypeId := withArena (·.add data) (·.extends_add data)

def addInfo (info : TypeInfo) : Check TypeId := withArena (·.addInfo info) (·.extends_addInfo info)

def union (members : List TypeId) : Check TypeId := withArena (·.union members) (·.extends_union members)

def intersection (members : List TypeId) : Check TypeId :=
  withArena (·.intersection members) (·.extends_intersection members)

def tuple (items : List TypeId) : Check TypeId := withArena (·.tuple items) (·.extends_add _)

def object (shape : Shape) : Check TypeId := withArena (·.object shape) (·.extends_add _)

def reference (symbol : SymbolId) (args : List TypeId) : Check TypeId :=
  withArena (·.reference symbol args) (·.extends_reference symbol args)

def stringLiteral (value : String) : Check TypeId :=
  withArena (·.stringLiteral value) (·.extends_intern _ _)

def numberLiteral (text : String) : Check TypeId :=
  withArena (·.numberLiteral text) (·.extends_intern _ _)

def booleanLiteral (value : Bool) : Check TypeId :=
  withArena (·.booleanLiteral value) (·.extends_intern _ _)

def widen (t : TypeId) : Check TypeId := withArena (·.widen t) (·.extends_widen t)

/-- A type of which only the name is known. -/
def unresolved (name : String) (args : List TypeId) : Check TypeId :=
  add (.unresolved name args)

/-- A function with one signature. -/
def callable (signature : Signature) : Check TypeId := object { call := [signature] }

/-! ### Symbols -/

def symbol? (s : SymbolId) : Check (Option Symbol) := return (← state).bindings.symbol? s

def kind? (s : SymbolId) : Check (Option SymbolKind) := return (← state).bindings.kind? s

def nameOf (s : SymbolId) : Check String := return (← state).bindings.nameOf s

def parent? (s : SymbolId) : Check (Option SymbolId) := return (← state).bindings.parent? s

def decls (s : SymbolId) : Check (List SymbolDecl) := return (← state).bindings.decls s

@[simp] theorem outcome_kind? (s : SymbolId) (p : Program) (c : Checker) :
    (kind? s).outcome p c = (c.bindings.kind? s, c) := rfl

@[simp] theorem outcome_nameOf (s : SymbolId) (p : Program) (c : Checker) :
    (nameOf s).outcome p c = (c.bindings.nameOf s, c) := rfl

@[simp] theorem outcome_decls (s : SymbolId) (p : Program) (c : Checker) :
    (decls s).outcome p c = (c.bindings.decls s, c) := rfl

def global? (space : Space) (name : String) : Check (Option SymbolId) :=
  return (← state).bindings.global.get? space name

def lookup (scope : TypeScope) (space : Space) (name : String) : Check (Option SymbolId) :=
  return (← state).bindings.lookup scope.file scope.inside space name

def resolveAlias (s : SymbolId) (space : Space) : Check (Option SymbolId) :=
  withBindings (fun p b => b.resolveAlias p s space)
    fun p b => b.extends_resolveAlias p s space

def exportOf (file : FileId) (space : Space) (name : String) : Check (Option SymbolId) :=
  withBindings (fun p b => b.exportOf p file space name)
    fun p b => b.extends_exportOf p file space name

def member (container : SymbolId) (space : Space) (name : String) : Check (Option SymbolId) :=
  withBindings (fun p b => b.member p container space name)
    fun p b => b.extends_member p container space name

/-- The scope of a file and a namespace, where the declarations of a symbol stand. -/
def scopeIn (file : FileId) (s : SymbolId) : Check TypeScope :=
  return { file, inside := ← parent? s }

@[simp] theorem outcome_scopeIn (file : FileId) (s : SymbolId) (p : Program) (c : Checker) :
    (scopeIn file s).outcome p c = ({ file, inside := c.bindings.parent? s }, c) := rfl

/-- The symbol that a name with its qualifiers stands for. A qualifier is looked up among values
first. -/
def resolveEntity (scope : TypeScope) : Entity → Space → Check (Option SymbolId)
  | .ident name, space => lookup scope space name
  | .qualified left name, space => do
      let asValue ← resolveEntity scope left .value
      let container ← match asValue with
        | some s => pure (some s)
        | none => resolveEntity scope left .type
      match container with
      | some s => member s space name
      | none => return none

end Check

/-- The questions that the parts of the checker ask each other. -/
inductive Query : Type → Type where
  /-- The type that a symbol stands for in type position. -/
  | declaredType (s : SymbolId) : Query TypeId
  | typeParams (s : SymbolId) : Query (List TypeId)
  /-- The type of a value. -/
  | valueType (s : SymbolId) : Query TypeId
  /-- The members of an interface or class in terms of its own type parameters. -/
  | structure_ (s : SymbolId) : Query Shape
  /-- The apparent members of a type. -/
  | shape (t : TypeId) : Query Shape
  /-- A type with `keyof`, indexed access and mapped types worked out. -/
  | evaluate (t : TypeId) : Query TypeId
  /-- The type at an index; `whole` is the access itself, in case it has to wait. -/
  | indexedAccess (whole object index : TypeId) : Query TypeId
  | lower (scope : TypeScope) (e : TypeExpr) : Query TypeId
  | infer (scope : ValueScope) (e : Expr) : Query TypeId
  /-- The type that an object pattern implies. -/
  | patternType (scope : ValueScope) (properties : List PatternProperty) : Query TypeId
  /-- The scope with the names of a pattern bound to the parts of a type. -/
  | bindPattern (scope : ValueScope) (pattern : Pattern) (t : TypeId) : Query ValueScope
  | returns (sofar : Returns) (s : Stmt) : Query Returns

/-- What stands in for the answer to a question that was given up. -/
def Query.fallback : {α : Type} → Query α → α
  | _, .declaredType _ => Arena.anyId
  | _, .typeParams _ => []
  | _, .valueType _ => Arena.anyId
  | _, .structure_ _ => {}
  | _, .shape _ => {}
  | _, .evaluate t => t
  | _, .indexedAccess whole _ _ => whole
  | _, .lower _ _ => Arena.anyId
  | _, .infer _ _ => Arena.anyId
  | _, .patternType _ _ => Arena.anyId
  | _, .bindPattern scope _ _ => scope
  | _, .returns sofar _ => sofar

/-- The questions, as they can be asked. Members and type parameters that are not known by then are
given as none. -/
structure Calls where
  ask : {α : Type} → Query α → Check α
  structure_known : ∀ s p c,
    let r := (ask (.structure_ s)).outcome p c
    r.1 = {} ∨ r.2.structures.find? s = some r.1
  typeParams_known : ∀ s p c,
    let r := (ask (.typeParams s)).outcome p c
    r.1 = [] ∨ r.2.typeParams[s]? = some r.1

end ApiDocs
