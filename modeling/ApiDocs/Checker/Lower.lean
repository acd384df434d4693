import ApiDocs.Checker.Reference

set_option autoImplicit false

/-!
From type annotations and signatures to types.
-/

namespace ApiDocs.Checker

open Syntax

variable (calls : Calls)

/-! ### Results of functions -/

/-- How many nested types are looked into where one type is matched with another. -/
def maxInference : Nat := 8

/-- What a promise holds, through promises of promises. -/
def awaitedAt (promise : Option SymbolId) : Nat → TypeId → Check TypeId
  | 0, t => return t
  | n + 1, t => do
      match ← Check.data t with
      | .reference symbol (inner :: _) =>
          if some symbol = promise then awaitedAt promise n inner else return t
      | _ => return t

def awaited (t : TypeId) : Check TypeId := do
  awaitedAt (← Check.global? .type "Promise") maxInference t

/-- The type that a function returns, given the type of what its body returns. -/
def returned (isAsync : Bool) (t : TypeId) : Check TypeId := do
  if isAsync then promiseOf (← awaited t) else return t

/-- What a block returns: the union over its return statements, and `void` if there is none. -/
def blockReturn (scope : ValueScope) (statements : List Stmt) (isAsync isGenerator : Bool) :
    Check TypeId := do
  if isGenerator then Check.unresolved "Generator" []
  else
    let found ← statements.foldlM (fun found s => calls.ask (.returns found s)) (Returns.mk scope [])
    let t ← Check.union found.types
    let isVoid := t = Arena.intrinsicId .undefined || t = Arena.intrinsicId .never
    returned isAsync (if isVoid then Arena.intrinsicId .void else t)

/-! ### Parameters -/

/-- The type of an annotation, `any` where there is none. -/
def lowerAnnotated (scope : TypeScope) (e : Option TypeExpr) : Check TypeId :=
  match e with
  | some e => calls.ask (.lower scope e)
  | none => return Arena.anyId

/-- The type of an expression with literals made general. -/
def inferWidened (scope : ValueScope) (e : Expr) : Check TypeId := do
  Check.widen (← calls.ask (.infer scope e))

/-- The name of a parameter that is taken apart. -/
def positionName (index : Nat) : String := "__" ++ toString index

/-- A parameter that is a plain name; `this` is none. -/
def nameParam? (scope : TypeScope) (doc : DocComment) (name : String) (optional : Bool)
    (type : Option TypeExpr) (fallback : TypeId) : Check (Option Parameter) := do
  if name = "this" then return none
  else
    let t ← match type with
      | some e => calls.ask (.lower scope e)
      | none => pure fallback
    return some ⟨name, t, optional, false, none, (doc.param name).getD ""⟩

def objectParam (scope : ValueScope) (index : Nat) (properties : List PatternProperty)
    (optional : Bool) (type : Option TypeExpr) : Check Parameter := do
  let t ← match type with
    | some e => calls.ask (.lower scope.types e)
    | none => calls.ask (.patternType scope properties)
  return ⟨positionName index, t, optional, false, none, ""⟩

def arrayParam (scope : TypeScope) (index : Nat) (items : List (Option Pattern))
    (optional : Bool) (type : Option TypeExpr) : Check Parameter := do
  let t ← match type with
    | some e => calls.ask (.lower scope e)
    | none => Check.tuple (items.map fun _ => Arena.anyId)
  return ⟨positionName index, t, optional, false, none, ""⟩

def restParam (scope : TypeScope) (doc : DocComment) (index : Nat) (of : Pattern)
    (type : Option TypeExpr) : Check Parameter := do
  let (name, annotation) := match of with
    | .ident name _ own => (name, type <|> own)
    | _ => (positionName index, type)
  let t ← match annotation with
    | some e => calls.ask (.lower scope e)
    | none => arrayOf Arena.anyId
  return ⟨name, t, false, true, none, (doc.param name).getD ""⟩

/-- The parameter that a pattern declares. One with a default value is optional. -/
def param? (scope : ValueScope) (doc : DocComment) (index : Nat) :
    Pattern → Check (Option Parameter)
  | .ident name optional type => nameParam? calls scope.types doc name optional type Arena.anyId
  | .object properties optional type =>
      return some (← objectParam calls scope index properties optional type)
  | .array items optional type =>
      return some (← arrayParam calls scope.types index items optional type)
  | .rest of type => return some (← restParam calls scope.types doc index of type)
  | .default left value text => do
      let fallback ← inferWidened calls scope value
      let param ← match left with
        | .ident name optional type => nameParam? calls scope.types doc name optional type fallback
        | .object properties optional type =>
            some <$> objectParam calls scope index properties optional type
        | .array items optional type =>
            some <$> arrayParam calls scope.types index items optional type
        | _ => pure none
      return param.map fun p => { p with optional := true, defaultValue := some text }

/-- The members that an object pattern implies. -/
def patternMember? (scope : ValueScope) : PatternProperty → Check (Option Member)
  | .shorthand name none => return some ⟨name, Arena.anyId, false, false, ""⟩
  | .shorthand name (some value) =>
      return some ⟨name, ← inferWidened calls scope value, true, false, ""⟩
  | .keyed none _ => return none
  | .keyed (some name) (.default _ value _) =>
      return some ⟨name, ← inferWidened calls scope value, true, false, ""⟩
  | .keyed (some name) (.object inner _ _) =>
      return some ⟨name, ← calls.ask (.patternType scope inner), false, false, ""⟩
  | .keyed (some name) _ => return some ⟨name, Arena.anyId, false, false, ""⟩
  | .rest _ => return none

def patternType (scope : ValueScope) (properties : List PatternProperty) : Check TypeId := do
  let shape ← properties.foldlM (fun (shape : Shape) p => do
    match ← patternMember? calls scope p with
    | some m => return shape.addMember m
    | none => return shape) {}
  Check.object shape

/-! ### Signatures -/

/-- The signature of a function type, method or call. -/
def lowerSignature (scope : TypeScope) (doc : DocComment) (s : SignatureExpr) :
    Check Signature := do
  let (typeParams, scope) ← lowerTypeParams calls scope s.typeParams
  let params ← s.params.zipIdx.filterMapM fun (p, i) => param? calls { types := scope } doc i p
  let result ← lowerAnnotated calls scope s.result
  return ⟨typeParams, params, result, doc.text⟩

/-- What a function has read of its parameters: the scope of the next one. -/
structure ParamsRead where
  scope : ValueScope
  params : List Parameter := []

/-- The signature of a function. Each parameter is in reach of the next ones, and all of them of
the body. -/
def functionSignature (scope : ValueScope) (doc : DocComment) (f : FunctionExpr) :
    Check Signature := do
  let (typeParams, types) ← lowerTypeParams calls scope.types f.typeParams
  let read ← f.params.zipIdx.foldlM (fun (read : ParamsRead) (p, i) => do
    match ← param? calls read.scope doc i p with
    | some param =>
        let scope ← calls.ask (.bindPattern read.scope p param.type)
        return ⟨scope, read.params ++ [param]⟩
    | none => return read) ⟨{ scope with types }, []⟩
  let result ← match f.result, f.body with
    | some e, _ => calls.ask (.lower types e)
    | none, .block statements => blockReturn calls read.scope statements f.isAsync f.isGenerator
    | none, .expr value => returned f.isAsync (← inferWidened calls read.scope value)
    | none, .none => pure Arena.anyId
  return ⟨typeParams, read.params, result, doc.text⟩

/-! ### Members -/

/-- Adds an index signature; only a key of type `number` makes a number index. -/
def addIndex (scope : TypeScope) (shape : Shape) (index : IndexExpr) : Check Shape := do
  let keyType ← match index.keyType with
    | some e => calls.ask (.lower scope e)
    | none => pure (Arena.intrinsicId .string)
  let isNumber := match ← Check.data keyType with
    | .intrinsic .number => true
    | _ => false
  let info : IndexInfo := ⟨index.keyName, ← lowerAnnotated calls scope index.type⟩
  return if isNumber then { shape with numberIndex := some info }
    else { shape with stringIndex := some info }

/-- Adds a member of a type. The first member under a name stays. -/
def addTypeMember (scope : TypeScope) (shape : Shape) : TypeMember → Check Shape
  | .property name type optional readonly doc => do
      let t ← lowerAnnotated calls scope type
      return shape.addMember ⟨name, t, optional, readonly, doc.text⟩
  | .method name signature optional doc => do
      if (shape.member? name).isSome then return shape
      else
        let t ← Check.callable (← lowerSignature calls scope doc signature)
        return shape.addMember ⟨name, t, optional, false, doc.text⟩
  | .setter name param doc => do
      let p ← param? calls { types := scope } doc 0 param
      return shape.addMember ⟨name, (p.map (·.type)).getD Arena.anyId, false, false, doc.text⟩
  | .call signature doc => do
      return { shape with call := shape.call ++ [← lowerSignature calls scope doc signature] }
  | .construct signature doc => do
      return { shape with
        construct := shape.construct ++ [← lowerSignature calls scope doc signature] }
  | .index index => addIndex calls scope shape index

def lowerMembers (scope : TypeScope) (members : List TypeMember) : Check Shape :=
  members.foldlM (addTypeMember calls scope) {}

/-! ### Types -/

/-- A named type. Its arguments are read even where they do not count. -/
def lowerReference (scope : TypeScope) (name : Entity) (args : List TypeExpr) : Check TypeId := do
  let args ← args.mapM fun e => calls.ask (.lower scope e)
  let param := match name with
    | .ident text => scope.param? text
    | .qualified _ _ => none
  match param with
  | some t => return t
  | none =>
      match ← Check.resolveEntity scope name .type with
      | some s => typeReference calls s args
      | none => Check.unresolved name.text args

def lowerMapped (scope : TypeScope) (name : String) (constraint : TypeExpr)
    (template : Option TypeExpr) (optional readonly : Option Modifier) : Check TypeId := do
  let param ← Check.add (.typeParameter { name })
  let constraint ← calls.ask (.lower scope constraint)
  let template ← lowerAnnotated calls (scope.withParams [name] [param]) template
  let t ← Check.add (.mapped ⟨param, constraint, template, optional, readonly⟩)
  calls.ask (.evaluate t)

/-- The type that an annotation stands for. -/
def lower (scope : TypeScope) : TypeExpr → Check TypeId
  | .intrinsic i => return Arena.intrinsicId i
  | .boolean => return Arena.booleanId
  | .this => return scope.this.getD Arena.anyId
  | .function signature => do Check.callable (← lowerSignature calls scope {} signature)
  | .constructor signature => do
      Check.object { construct := [← lowerSignature calls scope {} signature] }
  | .reference name args => lowerReference calls scope name args
  | .query name => do
      match ← Check.resolveEntity scope name .value with
      | some s => calls.ask (.valueType s)
      | none => return Arena.anyId
  | .members members => do Check.object (← lowerMembers calls scope members)
  | .array item => do arrayOf (← calls.ask (.lower scope item))
  | .tuple items => do Check.tuple (← items.mapM fun e => calls.ask (.lower scope e))
  | .union members => do Check.union (← members.mapM fun e => calls.ask (.lower scope e))
  | .intersection members => do
      Check.intersection (← members.mapM fun e => calls.ask (.lower scope e))
  | .verbatim text => Check.unresolved text []
  | .keyOf of => do
      let t ← Check.add (.keyOf (← calls.ask (.lower scope of)))
      calls.ask (.evaluate t)
  | .indexed object index => do
      let object ← calls.ask (.lower scope object)
      let index ← calls.ask (.lower scope index)
      let t ← Check.add (.indexedAccess object index)
      calls.ask (.evaluate t)
  | .mapped name constraint template optional readonly =>
      lowerMapped calls scope name constraint template optional readonly
  | .booleanLiteral value => Check.booleanLiteral value
  | .numberLiteral value => Check.numberLiteral value.text
  | .stringLiteral value => Check.stringLiteral value

end ApiDocs.Checker
