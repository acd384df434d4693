import ApiDocs.Checker.Evaluate

set_option autoImplicit false

/-!
The types that symbols stand for in type position, with type arguments or without.
-/

namespace ApiDocs.Checker

open Syntax

variable (calls : Calls)

/-! ### Type parameters -/

/-- What a type parameter is written with. -/
def describeParam (scope : TypeScope) (p : TypeParam) : Check TypeParameter := do
  let constraint ← p.constraint.mapM fun e => calls.ask (.lower scope e)
  let default ← p.default.mapM fun e => calls.ask (.lower scope e)
  return { name := p.name, constraint, default }

/-- New types for type parameters. Their constraints may refer to them. -/
def declareTypeParams (scope : TypeScope) (params : List TypeParam)
    (remember : List TypeId → Check Unit) : Check (List TypeId) :=
  Check.declareParams params remember fun ids p =>
    describeParam calls (scope.withParams (params.map (·.name)) ids) p

/-- The type parameters of a signature, and the scope behind them. -/
def lowerTypeParams (scope : TypeScope) (params : List TypeParam) :
    Check (List TypeId × TypeScope) := do
  let ids ← declareTypeParams calls scope params fun _ => return
  return (ids, scope.withParams (params.map (·.name)) ids)

/-- The type parameters that a declaration is written with. -/
def writtenTypeParams : DeclNode → List TypeParam
  | .typeAlias decl => decl.typeParams
  | .interface interface => interface.typeParams
  | .classDecl class_ => class_.typeParams
  | _ => []

/-- The type parameters of an alias, interface or class: those of its first declaration that has
any. -/
def typeParamsOf (s : SymbolId) : Check (List TypeId) := do
  match (← Check.state).typeParams[s]? with
  | some ids => return ids
  | none =>
      match (← Check.decls s).find? fun d => !(writtenTypeParams d.node).isEmpty with
      | none =>
          Check.rememberParams s []
          return []
      | some d =>
          declareTypeParams calls (← Check.scopeIn d.file s) (writtenTypeParams d.node)
            (Check.rememberParams s)

/-- The type parameters of a symbol are noted when they are first asked for. -/
theorem typeParamsOf_known (s : SymbolId) (p : Program) (c : Checker) :
    let r := (typeParamsOf calls s).outcome p c
    r.2.typeParams[s]? = some r.1 := by
  unfold typeParamsOf
  simp only [Check.outcome_bind, Check.outcome_state]
  split
  · rename_i ids known
    exact known
  · rename_i unknown
    simp only [Check.outcome_bind, Check.outcome_decls]
    split
    · simp only [Check.outcome_bind, Check.outcome_pure, Check.rememberParams, unknown]
      exact Std.HashMap.getElem?_insert_self
    · simp only [Check.outcome_bind, Check.outcome_scopeIn]
      exact Check.declareParams_known _ s _ p c unknown

/-- What a type parameter stands for if no argument is given. -/
def defaultOf? (param : TypeId) : Check (Option TypeId) := do
  match ← Check.data param with
  | .typeParameter p => return p.default
  | _ => return none

/-- Arguments for the parameters that are left. A default may refer to earlier parameters. -/
def fillFrom (params : List TypeId) : List TypeId → List TypeId → Check (List TypeId)
  | args, [] => return args
  | args, param :: rest => do
      let filled ← match ← defaultOf? param with
        | some default => substitute calls (params.zip args) default
        | none => pure Arena.anyId
      fillFrom params (args ++ [filled]) rest

/-- As many arguments as there are parameters. -/
def fillTypeArgs (params args : List TypeId) : Check (List TypeId) :=
  let given := args.take params.length
  fillFrom calls params given (params.drop given.length)

/-! ### Declared types -/

/-- Whether a type shows the alias that it was declared by. -/
def carriesAlias (isBoolean : Bool) : TypeData → Bool
  | .object _ => true
  | .union _ => !isBoolean
  | .intersection _ => true
  | .tuple _ => true
  | .mapped _ => true
  | .indexedAccess _ _ => true
  | .keyOf _ => true
  | .unresolved _ _ => true
  | _ => false

def aliasDecl? (d : SymbolDecl) : Option (FileId × AliasDecl) :=
  match d.node with
  | .typeAlias decl => some (d.file, decl)
  | _ => none

/-- The type of an alias. Its place is reserved first, so that its body can refer to it. -/
def declaredAlias (s : SymbolId) : Check TypeId := do
  match (← Check.decls s).findSome? aliasDecl? with
  | none => return Arena.anyId
  | some (file, decl) =>
      Check.declareAlias s fun reserved => do
        let params ← typeParamsOf calls s
        let scope := (← Check.scopeIn file s).withParams (decl.typeParams.map (·.name)) params
        let body ← Check.readingBody s (calls.ask (.lower scope decl.type))
        let data ← Check.data body
        if carriesAlias (← Check.isBoolean body) data then
          return (⟨data, some ⟨s, params⟩⟩, reserved)
        else return (⟨data, none⟩, body)

/-- The type of a symbol that is no alias. -/
def declaredPlain (s : SymbolId) (kind : Option SymbolKind) : Check TypeId := do
  match kind with
  | some .interface => Check.reference s (← typeParamsOf calls s)
  | some .classDecl => Check.reference s (← typeParamsOf calls s)
  | some .redirect =>
      match ← Check.resolveAlias s .type with
      | some target =>
          if target ≠ s then calls.ask (.declaredType target)
          else Check.unresolved (← Check.nameOf s) []
      | none => Check.unresolved (← Check.nameOf s) []
  | _ => Check.add (.nominal s [])

def declaredType (s : SymbolId) : Check TypeId := do
  match ← Check.kind? s with
  | some .typeAlias => declaredAlias calls s
  | kind => Check.declareAs s (declaredPlain calls s kind)

/-! ### References -/

/-- An alias with arguments inside its own body. It is left alone until its members are needed, so
that a recursive alias unfolds one level at a time. -/
def deferredAliasInstance (s : SymbolId) (args : List TypeId) : Check TypeId :=
  Check.addInfo ⟨.nominal s args, some ⟨s, args⟩⟩

/-- The alias and arguments of a type that was left alone. -/
def deferredAlias? (t : TypeId) : Check (Option AliasRef) := do
  match ← Check.data t, ← Check.alias? t with
  | .nominal s _, some ref =>
      return if ref.symbol ≠ s || (← Check.state).declaring.contains s then none else some ref
  | _, _ => return none

/-- The body of an alias with arguments put in, under the name of the alias. -/
def aliasInstance (s : SymbolId) (args : List TypeId) : Check TypeId := do
  let declared ← calls.ask (.declaredType s)
  let params ← calls.ask (.typeParams s)
  if params.isEmpty then return declared
  else
    let args ← fillTypeArgs calls params args
    if (← Check.state).declaring.contains s then deferredAliasInstance s args
    else
      let instance_ ← substitute calls (params.zip args) declared
      if (← Check.alias? declared).isNone then return instance_
      else Check.addInfo ⟨← Check.data instance_, some ⟨s, args⟩⟩

/-- The declared symbol behind a symbol in type position. -/
def typeTarget? (s : SymbolId) : Check (Option SymbolId) := do
  if (← Check.kind? s) = some .redirect then Check.resolveAlias s .type else return some s

/-- The type that a symbol with arguments stands for. -/
def typeReference (s : SymbolId) (args : List TypeId) : Check TypeId := do
  match ← typeTarget? s with
  | none => Check.unresolved (← Check.nameOf s) args
  | some target =>
      let instance_ : Check TypeId := do
        let params ← calls.ask (.typeParams target)
        if params.isEmpty then calls.ask (.declaredType target)
        else Check.reference target (← fillTypeArgs calls params args)
      match ← Check.kind? target with
      | some .typeAlias => aliasInstance calls target args
      | some .interface => instance_
      | some .classDecl => instance_
      | some .external =>
          if args.isEmpty then calls.ask (.declaredType target)
          else Check.add (.nominal target args)
      | some .enum => calls.ask (.declaredType target)
      | some .namespaceDecl => calls.ask (.declaredType target)
      | some .moduleNamespace => calls.ask (.declaredType target)
      | _ => Check.unresolved (← Check.nameOf target) args

/-- A type of the standard library with one argument. -/
def globalGeneric (name : String) (arg : TypeId) : Check TypeId := do
  match ← Check.global? .type name with
  | some s => Check.reference s [arg]
  | none => Check.unresolved name [arg]

def arrayOf (item : TypeId) : Check TypeId := globalGeneric "Array" item

def promiseOf (value : TypeId) : Check TypeId := globalGeneric "Promise" value

/-- A type of the standard library. -/
def globalType (name : String) : Check TypeId := do
  match ← Check.global? .type name with
  | some s => calls.ask (.declaredType s)
  | none => return Arena.anyId

/-- The type of JSX elements, if the program has one. -/
def elementType? : Check (Option TypeId) :=
  Check.elementOnce do
    let symbol ← match ← Check.global? .type "JSX" with
      | some jsx => Check.member jsx .type "Element"
      | none => pure none
    symbol.mapM fun s => calls.ask (.declaredType s)

end ApiDocs.Checker
