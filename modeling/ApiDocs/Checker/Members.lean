import ApiDocs.Checker.Lower

set_option autoImplicit false

/-!
The members of interfaces and classes, and the apparent members of every type.
-/

namespace ApiDocs

/-- The name with qualifiers that an expression is, if it is one. -/
def Syntax.Expr.entity? : Syntax.Expr → Option Syntax.Entity
  | .ident name => some (.ident name)
  | .member of name => (entity? of).map (.qualified · name)
  | .paren of => entity? of
  | _ => none

namespace Checker

open Syntax

variable (calls : Calls)

def lowerArgs (scope : TypeScope) (args : List TypeExpr) : Check (List TypeId) :=
  args.mapM fun e => calls.ask (.lower scope e)

/-- The symbol that an expression names. -/
def resolveExpr (scope : TypeScope) (e : Expr) (space : Space) : Check (Option SymbolId) :=
  match e.entity? with
  | some name => Check.resolveEntity scope name space
  | none => return none

/-! ### Interfaces -/

/-- A base of an interface. -/
def lowerHeritage (scope : TypeScope) (h : Heritage) : Check TypeId := do
  let args ← lowerArgs calls scope h.args
  match ← resolveExpr scope h.expr .type with
  | some s => typeReference calls s args
  | none => Check.unresolved h.text args

/-- The members of a declaration more. Call signatures of all declarations are kept. -/
def mergeDeclaration (shape own : Shape) : Shape :=
  let merged := shape.inherit own
  if shape.call.isEmpty then merged else { merged with call := merged.call ++ own.call }

def interfaceDecl? (d : SymbolDecl) : Option (FileId × InterfaceDecl) :=
  match d.node with
  | .interface interface => some (d.file, interface)
  | _ => none

/-- The members of an interface: those of its declarations in order, then those of its bases. -/
def interfaceShape (s : SymbolId) : Check Shape := do
  let params ← calls.ask (.typeParams s)
  let this ← calls.ask (.declaredType s)
  let decls ← ((← Check.decls s).filterMap interfaceDecl?).mapM fun (file, interface) => do
    let scope := (← Check.scopeIn file s).withParams (interface.typeParams.map (·.name)) params
    return (interface, { scope with this := some this })
  let own ← decls.foldlM (fun (shape : Shape) (interface, scope) =>
    return mergeDeclaration shape (← lowerMembers calls scope interface.members)) {}
  decls.foldlM (fun (shape : Shape) (interface, scope) =>
    interface.bases.foldlM (fun (shape : Shape) h => do
      let base ← lowerHeritage calls scope h
      return shape.inherit (← calls.ask (.shape base))) shape) own

/-! ### Classes -/

def classDecl? (d : SymbolDecl) : Option (FileId × ClassExpr) :=
  match d.node with
  | .classDecl class_ => some (d.file, class_)
  | _ => none

def classOf? (s : SymbolId) : Check (Option (FileId × ClassExpr)) :=
  return (← Check.decls s).findSome? classDecl?

/-- The scope of the body of a class. -/
def classScope (s : SymbolId) (file : FileId) (c : ClassExpr) : Check TypeScope := do
  let params ← calls.ask (.typeParams s)
  let this ← calls.ask (.declaredType s)
  let scope := (← Check.scopeIn file s).withParams (c.typeParams.map (·.name)) params
  return { scope with this := some this }

/-- A parameter of a constructor that declares a property; it is a plain name. -/
def propertyParam? (scope : ValueScope) (doc : DocComment) : Pattern → Check (Option Parameter)
  | .ident name optional type => nameParam? calls scope.types doc name optional type Arena.anyId
  | .default (.ident name optional type) value text => do
      let fallback ← inferWidened calls scope value
      let param ← nameParam? calls scope.types doc name optional type fallback
      return param.map fun p => { p with optional := true, defaultValue := some text }
  | _ => return none

/-- The type that a method or accessor gives to its member. -/
def methodType (signature : Signature) : MethodKind → Check TypeId
  | .method => Check.callable signature
  | .getter => return signature.result
  | .setter => return (signature.params.head?.map (·.type)).getD Arena.anyId

/-- The properties that the parameters of a constructor declare. -/
def addParamMembers (scope : ValueScope) (doc : DocComment) (shape : Shape)
    (params : List ConstructorParam) : Check Shape :=
  params.foldlM (fun (shape : Shape) p => do
    if p.isProperty then
      match ← propertyParam? calls scope doc p.pattern with
      | some param => return shape.addMember ⟨param.name, param.type,
          param.optional && param.defaultValue.isNone, p.readonly, param.documentation⟩
      | none => return shape
    else return shape) shape

/-- Adds an instance member of a class. The first member under a name stays. -/
def addClassMember (scope : ValueScope) (shape : Shape) : ClassMember → Check Shape
  | .property name type value optional readonly doc => do
      let t ← match type, value with
        | some e, _ => calls.ask (.lower scope.types e)
        | none, some e => inferWidened calls scope e
        | none, none => pure Arena.anyId
      return shape.addMember ⟨name, t, optional, readonly, doc.text⟩
  | .method name function kind optional doc => do
      if (shape.member? name).isSome then return shape
      else
        let t ← methodType (← functionSignature calls scope doc function) kind
        return shape.addMember ⟨name, t, optional, false, doc.text⟩
  | .constructor params _ doc => addParamMembers calls scope doc shape params
  | .index index => addIndex calls scope.types shape index

/-- The instance type of what a class extends. -/
def baseInstance? (scope : TypeScope) (c : ClassExpr) : Check (Option TypeId) := do
  match c.base with
  | none => return none
  | some e =>
      let args ← lowerArgs calls scope c.baseArgs
      match ← resolveExpr scope e .value with
      | none => return none
      | some s =>
          match ← Check.resolveAlias s .value with
          | none => return none
          | some target =>
              if (← Check.kind? target) = some .classDecl then typeReference calls target args
              else
                let value ← calls.ask (.valueType target)
                match (← calls.ask (.shape value)).construct with
                | signature :: _ =>
                    substitute calls (signature.typeParams.zip args) signature.result
                | [] => return none

/-- The instance members of a class, its own first, then those of its base. -/
def classShape (s : SymbolId) : Check Shape := do
  match ← classOf? s with
  | none => return {}
  | some (file, c) =>
      let scope ← classScope calls s file c
      let own ← c.members.foldlM (addClassMember calls { types := scope }) {}
      match ← baseInstance? calls scope c with
      | none => return own
      | some base =>
          let inherited ← calls.ask (.shape base)
          return { inherited.members.foldl Shape.addMember own with
            stringIndex := own.stringIndex <|> inherited.stringIndex }

/-- The construct signatures of what a class extends, with its type arguments put in. -/
def inheritedConstructs? (scope : TypeScope) (c : ClassExpr) : Check (Option (List Signature)) := do
  match c.base with
  | none => return none
  | some e =>
      let args ← lowerArgs calls scope c.baseArgs
      match ← resolveExpr scope e .value with
      | none => return none
      | some s =>
          let value ← calls.ask (.valueType s)
          match (← calls.ask (.shape value)).construct with
          | [] => return none
          | signatures =>
              some <$> signatures.mapM fun signature => do
                let args ← fillTypeArgs calls signature.typeParams args
                substituteSignature calls (signature.typeParams.zip args) signature

/-- A constructor of a class: its parameters, whether it has a body, and its doc comment. -/
def constructor? : ClassMember → Option (List ConstructorParam × Bool × DocComment)
  | .constructor params hasBody doc => some (params, hasBody, doc)
  | _ => none

/-- Where there are overloads, the constructor with the body is not one of them. -/
def visibleConstructors (c : ClassExpr) : List (List ConstructorParam × DocComment) :=
  let all := c.members.filterMap constructor?
  let hidesBody := all.any (·.2.1) && all.any (!·.2.1)
  (all.filter fun k => !(hidesBody && k.2.1)).map fun k => (k.1, k.2.2)

def constructorParam? (scope : ValueScope) (doc : DocComment) (index : Nat)
    (p : ConstructorParam) : Check (Option Parameter) :=
  if p.isProperty then propertyParam? calls scope doc p.pattern
  else param? calls scope doc index p.pattern

/-- The construct signatures of a class: its own, else those of its base, else one without
parameters. -/
def constructSignatures (s : SymbolId) : Check (List Signature) := do
  match ← classOf? s with
  | none => return []
  | some (file, c) =>
      let scope ← classScope calls s file c
      let typeParams ← calls.ask (.typeParams s)
      let this ← calls.ask (.declaredType s)
      let own ← (visibleConstructors c).mapM fun (params, doc) => do
        let params ← params.zipIdx.filterMapM fun (p, i) =>
          constructorParam? calls { types := scope } doc i p
        return (⟨typeParams, params, this, doc.text⟩ : Signature)
      if !own.isEmpty then return own
      else
        match ← inheritedConstructs? calls scope c with
        | some inherited => return inherited.map fun i => { i with typeParams, result := this }
        | none => return [⟨typeParams, [], this, ""⟩]

/-! ### Shapes -/

/-- The members of an interface or class, once they are known; meanwhile it has none. -/
def structureOf (s : SymbolId) : Check Shape :=
  Check.structureOnce s do
    match ← Check.kind? s with
    | some .interface => interfaceShape calls s
    | some .classDecl => classShape calls s
    | _ => return {}

theorem structureOf_known (s : SymbolId) (p : Program) (c : Checker) :
    let r := (structureOf calls s).outcome p c
    (s ∈ c.structures.running ∧ r.1 = {}) ∨ r.2.structures.find? s = some r.1 := by
  dsimp only [structureOf, Check.structureOnce, Check.once]
  split
  · rename_i answer known
    exact Or.inr known
  · split
    · rename_i running
      exact Or.inl ⟨by simpa [Memo.isRunning] using running, rfl⟩
    · exact Or.inr (Memo.find?_leave_self _ _ _)

/-- Adds a member of one part of an intersection; two under one name intersect. -/
def intersectMember (members : List Member) (m : Member) : Check (List Member) := do
  match members.findIdx? (·.name = m.name) with
  | some i =>
      let existing := ((members[i]?).map (·.type)).getD Arena.anyId
      let t ← Check.intersection [existing, m.type]
      return members.modify i fun old => { old with type := t }
  | none => return members ++ [m]

/-- Adds a part of an intersection to what the parts before it have. -/
def intersectShape (merged part : Shape) : Check Shape := do
  let members ← part.members.foldlM intersectMember merged.members
  return { merged with
    members
    call := merged.call ++ part.call
    construct := merged.construct ++ part.construct
    stringIndex := merged.stringIndex <|> part.stringIndex
    numberIndex := merged.numberIndex <|> part.numberIndex }

def globalShape (name : String) : Check Shape := do
  match ← Check.global? .type name with
  | some s =>
      let t ← calls.ask (.declaredType s)
      calls.ask (.shape t)
  | none => return {}

/-- The interface of the standard library that holds the members of a primitive type. -/
def primitiveInterface? (isBoolean : Bool) : TypeData → Option String
  | .intrinsic .string => some "String"
  | .stringLiteral _ => some "String"
  | .intrinsic .number => some "Number"
  | .numberLiteral _ => some "Number"
  | .booleanLiteral _ => some "Boolean"
  | .union _ => if isBoolean then some "Boolean" else none
  | .intrinsic .object => some "Object"
  | _ => none

/-- The members of an instance of an interface or class. -/
def instanceShape (symbol : SymbolId) (args : List TypeId) : Check Shape := do
  let shape ← calls.ask (.structure_ symbol)
  let params ← calls.ask (.typeParams symbol)
  if params.isEmpty || params = args then return shape
  else substituteShape calls (params.zip args) shape

/-- The members that the data of a type denotes. -/
def shapeOfData (t : TypeId) : Check Shape := do
  let worked : Check Shape := do
    let value ← calls.ask (.evaluate t)
    if value = t then return {} else calls.ask (.shape value)
  match ← Check.data t with
  | .object shape => return shape
  | .reference symbol args => instanceShape calls symbol args
  | .intersection members =>
      members.foldlM (fun (merged : Shape) m => do
        intersectShape merged (← calls.ask (.shape m))) {}
  | .typeParameter param =>
      match param.constraint with
      | some constraint => calls.ask (.shape constraint)
      | none => return {}
  | .keyOf _ => worked
  | .indexedAccess _ _ => worked
  | .mapped _ => worked
  | .tuple items =>
      let array ← arrayOf (← Check.union items)
      calls.ask (.shape array)
  | .nominal _ _ =>
      match ← deferredAlias? t with
      | some ref =>
          let expanded ← aliasInstance calls ref.symbol ref.args
          if expanded = t || (← deferredAlias? expanded).isSome then return {}
          else calls.ask (.shape expanded)
      | none => return {}
  | data =>
      match primitiveInterface? (← Check.isBoolean t) data with
      | some name => globalShape calls name
      | none => return {}

theorem instanceShape_known (symbol : SymbolId) (args : List TypeId) (p : Program) (c : Checker) :
    let r := (instanceShape calls symbol args).outcome p c
    r.1 = {} ∨ r.2.structures.find? symbol = some r.1 ∨
      ∃ params, params ≠ [] ∧ params ≠ args ∧ r.2.typeParams[symbol]? = some params := by
  let members := (calls.ask (.structure_ symbol)).outcome p c
  let params := (calls.ask (.typeParams symbol)).outcome p members.2
  have kept := (calls.ask (.typeParams symbol)).kept p members.2
  have unfolded : (instanceShape calls symbol args).outcome p c =
      (if params.1.isEmpty || params.1 = args then (pure members.1 : Check Shape)
        else substituteShape calls (params.1.zip args) members.1).outcome p params.2 := rfl
  dsimp only
  rw [unfolded]
  split
  · rcases calls.structure_known symbol p c with empty | known
    · exact Or.inl empty
    · exact Or.inr (Or.inl (kept.structures.known symbol _ known))
  · rename_i other
    rw [Bool.or_eq_true, List.isEmpty_iff, decide_eq_true_eq, not_or] at other
    rcases calls.typeParams_known symbol p members.2 with empty | known
    · exact absurd empty other.1
    · have after := (substituteShape calls (params.1.zip args) members.1).kept p params.2
      exact Or.inr (Or.inr ⟨params.1, other.1, other.2, after.typeParams symbol _ known⟩)

theorem denotes_shapeOfData (t : TypeId) (p : Program) (c : Checker) :
    Denotes c.arena ((shapeOfData calls t).outcome p c).2 t
      ((shapeOfData calls t).outcome p c).1 := by
  unfold shapeOfData
  constructor
  · intro outside
    have data : c.arena.data t = .intrinsic .any :=
      congrArg TypeInfo.data (c.arena.info_of_size_le t outside)
    simp only [Check.outcome_bind, Check.outcome_data, data]
    rfl
  · intro s reserved
    have data : c.arena.data t = .nominal s [] := congrArg TypeInfo.data reserved
    have none : c.arena.alias? t = none := congrArg TypeInfo.writtenAs reserved
    simp only [Check.outcome_bind, Check.outcome_data, data, deferredAlias?, Check.outcome_alias?,
      none]
    rfl
  · intro s data
    simp only [Check.outcome_bind, Check.outcome_data, data]
    rfl
  · intro s args data
    simp only [Check.outcome_bind, Check.outcome_data, data]
    exact instanceShape_known calls s args p c

/-- The apparent members of a type, once they are known; meanwhile it has none. -/
def shapeOf (t : TypeId) : Check Shape :=
  Check.shapeOnce t (shapeOfData calls t) (denotes_shapeOfData calls t)

end Checker

end ApiDocs
