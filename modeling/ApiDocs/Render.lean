import ApiDocs.Checker
import ApiDocs.Document.Package

set_option autoImplicit false

/-!
Types as the documentation shows them. The same tests are applied in the same order to every type:
an alias by its name, then objects and functions, intersections, unions, literals, and all else by
name. Types can contain themselves, so trees are cut at a depth.
-/

namespace ApiDocs.Render

section

/- How a part of the type in view is shown. -/
variable (child : TypeId → Check Bound)

def property (m : Member) : Check Property :=
  return ⟨m.name, m.documentation, ← child m.type, m.optional, none⟩

def parameter (p : Parameter) : Check Property :=
  return ⟨p.name, p.documentation, ← child p.type, p.optional, p.defaultValue⟩

/-- Types shown in order, none if there are none. -/
def typeList (types : List TypeId) : Check (Option (List Bound)) :=
  if types.isEmpty then return none else some <$> types.mapM child

def signature (s : Signature) : Check SignatureBound := do
  let typeParameters ← typeList child s.typeParams
  let parameters ← s.params.mapM (parameter child)
  return ⟨typeParameters, parameters, ← child s.result⟩

/-- A callable type by its first signature, any other one by its members. -/
def objectBound (t : TypeId) : Check Bound := do
  match ← Check.callSignatures t with
  | s :: _ =>
      let s ← signature child s
      return .function s.typeParameters s.parameters s.result
  | [] =>
      let properties ← (← Check.members t).mapM (property child)
      let index ← (← Check.stringIndex? t).mapM fun i =>
        return (⟨i.keyName, ← child i.type⟩ : IndexEntry)
      return .object properties index

/-- The key by which a type refers to the declaration of its symbol. Where the symbol declares no
type of its own, it is the key of the type itself. -/
def linkKey (s : SymbolId) (t : TypeId) : Check String := do
  match ← Check.kind? s with
  | some .interface => return (← Check.declaredType s).key
  | some .classDecl => return (← Check.declaredType s).key
  | some .typeAlias => return (← Check.declaredType s).key
  | _ => return t.key

def typeArgs : TypeData → List TypeId
  | .reference _ args => args
  | .nominal _ args => args
  | .unresolved _ args => args
  | _ => []

/-- What stands behind the name of a type: its arguments, its key and its symbol. -/
structure Named where
  args : List TypeId
  key : Option String
  symbol : Option SymbolId

def namedParts (t : TypeId) : Check Named := do
  match ← Check.alias? t with
  | some ref => return ⟨ref.args, some (← Check.declaredType ref.symbol).key, some ref.symbol⟩
  | none =>
      let symbol := (← Check.state).typeSymbol? t
      let args := typeArgs (← Check.data t)
      return ⟨args, ← symbol.mapM (linkKey · t), symbol⟩

/-- A type by its name, with its arguments and where it comes from. -/
def named (t : TypeId) : Check Bound := do
  let name := (← Check.state).typeName t
  let parts ← namedParts t
  let parameters ← typeList child parts.args
  let path := parts.symbol.bind ((← Check.state).bindings.originPath? (← read))
  return .named name parameters parts.key (path.bind Origin.importedFrom)

def isBooleanLiteral : TypeData → Bool
  | .booleanLiteral _ => true
  | _ => false

def endsInBooleanLiteral (bounds : List Bound) : Bool :=
  match bounds.getLast? with
  | some (.booleanLiteral _) => true
  | _ => false

/-- The members of a union. Two boolean literals in a row are shown as one `boolean`. -/
def unionMembers (members : List TypeId) : Check (List Bound) :=
  members.foldlM (fun sofar m => do
    if isBooleanLiteral (← Check.data m) && endsInBooleanLiteral sofar then
      return sofar.dropLast ++ [Bound.plain "boolean"]
    else return sofar ++ [← child m]) []

end

/-- Shows a type down to the given depth. An alias is shown by name if that is preferred. -/
def boundAt : Nat → Bool → TypeId → Check Bound
  | 0, _, t => return Bound.plain ((← Check.state).typeName t)
  | n + 1, preferNamed, t => do
      let child := boundAt n true
      if preferNamed && (← Check.alias? t).isSome then named child t
      else
        let worked : Check Bound := do
          let value ← Check.evaluate t
          if value = t then named child t else boundAt n preferNamed value
        match ← Check.data t with
        | .object shape =>
            if shape.call.isEmpty && !shape.construct.isEmpty then named child t
            else objectBound child t
        | .keyOf _ => worked
        | .indexedAccess _ _ => worked
        | .mapped _ => worked
        | .intersection members => return .intersection (← members.mapM child)
        | .union members =>
            if ← Check.isBoolean t then named child t
            else return .union (← unionMembers child members)
        | .tuple items => return .tuple (← items.mapM child)
        | .booleanLiteral value => return .booleanLiteral (if value then "true" else "false")
        | .numberLiteral text => return .numberLiteral text
        | .stringLiteral value => return .stringLiteral value
        | _ => named child t

/-- The depth at which trees are cut. -/
def maxDepth : Nat := Checker.maxDepth

/-- A type where it is used, by the name of its alias if it has one. -/
def bound (t : TypeId) : Check Bound := boundAt maxDepth true t

/-- The type that an alias or interface declares. The declaration shows what it stands for rather
than its own name. -/
def declaredBound (t : TypeId) : Check Bound := do
  let kind ← match ← Check.data t with
    | .reference symbol _ => Check.kind? symbol
    | _ => pure none
  if kind = some .interface then objectBound bound t else boundAt maxDepth false t

/-- The first call signature of a type. -/
def function? (t : TypeId) : Check (Option SignatureBound) := do
  (← Check.callSignatures t).head?.mapM (signature bound)

/-- The type parameters that a symbol declares. -/
def typeParameters (s : SymbolId) : Check (Option (List Bound)) := do
  typeList bound (← Check.typeParams s)

/-! ### Components -/

/-- The alias that is looked through where properties of a component are collected. -/
def readonlyName : String := "Readonly"

/-- What a type is a read-only form of. -/
def readonlyOf? (t : TypeId) : Check (Option TypeId) := do
  match ← Check.alias? t with
  | none => return none
  | some ref =>
      if (← Check.nameOf ref.symbol) = readonlyName then
        ref.args.head?.mapM fun wrapped => do
          match ← Check.alias? wrapped with
          | some inner => Check.declaredType inner.symbol
          | none => return wrapped
      else return none

def parts? (isBoolean : Bool) : TypeData → Option (List TypeId)
  | .union members => if isBoolean then none else some members
  | .intersection members => some members
  | _ => none

/-- The properties of a component. Unions and intersections give those of all their members. -/
def propsAt : Nat → TypeId → Check (List Property)
  | 0, _ => return []
  | n + 1, t => do
      match parts? (← Check.isBoolean t) (← Check.data t) with
      | some members => return (← members.mapM (propsAt n)).flatten
      | none =>
          match ← readonlyOf? t with
          | some wrapped => propsAt n wrapped
          | none => (← Check.members t).mapM (property (boundAt n true))

def props (t : TypeId) : Check (List Property) := propsAt maxDepth t

/-- A class whose instances have `props` and a `render` without parameters that returns an
element. -/
def classProps? (t : TypeId) : Check (Option (List Property)) := do
  match ← Check.constructSignatures t with
  | [] => return none
  | s :: _ =>
      match ← Check.member? s.result "props" with
      | none => return none
      | some found =>
          match ← Check.member? s.result "render" with
          | none => return none
          | some render =>
              match ← Check.callSignatures render.type with
              | [] => return none
              | call :: _ =>
                  if call.params.isEmpty && (← Check.state).isElement call.result then
                    some <$> props found.type
                  else return none

/-- A function of at most two parameters that returns an element. -/
def functionProps? (t : TypeId) : Check (Option (List Property)) := do
  match ← Check.callSignatures t with
  | [] => return none
  | s :: _ =>
      if s.params.length ≤ 2 && (← Check.state).isElement s.result then
        match s.params with
        | first :: _ => some <$> props first.type
        | [] => return some []
      else return none

/-- The properties of a component; other types have none. -/
def componentProps? (t : TypeId) : Check (Option (List Property)) := do
  match ← classProps? t with
  | some found => return some found
  | none => functionProps? t

/-! ### Classes -/

/-- The members of a class: what can be called is a method. -/
structure ClassMembers where
  properties : List (Member × Bound) := []
  methods : List (Member × SignatureBound) := []
  constructors : List ConstructorEntry := []

def addMember (sofar : ClassMembers) (m : Member) : Check ClassMembers := do
  match ← function? m.type with
  | some s => return { sofar with methods := sofar.methods ++ [(m, s)] }
  | none => return { sofar with properties := sofar.properties ++ [(m, ← bound m.type)] }

def classMembers? (t : TypeId) : Check (Option ClassMembers) := do
  match ← Check.constructSignatures t with
  | [] => return none
  | s :: rest =>
      let members ← (← Check.members s.result).foldlM addMember {}
      let constructors ← (s :: rest).mapM fun s =>
        return (⟨s.documentation, ← s.params.mapM (parameter bound)⟩ : ConstructorEntry)
      return some { members with constructors }

end ApiDocs.Render
