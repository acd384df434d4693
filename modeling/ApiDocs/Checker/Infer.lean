import ApiDocs.Checker.Members

set_option autoImplicit false

/-!
The types of expressions.
-/

namespace ApiDocs.Checker

open Syntax

variable (calls : Calls)

def identifierType (scope : ValueScope) (name : String) : Check TypeId := do
  match scope.local? name with
  | some t => return t
  | none =>
      if name = "undefined" then return Arena.intrinsicId .undefined
      else
        match ← Check.lookup scope.types .value name with
        | some s => calls.ask (.valueType s)
        | none => return Arena.anyId

/-! ### Operators -/

/-- A number literal with the other sign. -/
def negated (text : String) : String :=
  match text.toList with
  | '-' :: positive => String.ofList positive
  | _ => "-" ++ text

def unaryType (scope : ValueScope) (op : UnaryOp) (of : Expr) : Check TypeId := do
  match op with
  | .not => return Arena.booleanId
  | .delete => return Arena.booleanId
  | .typeOf => return Arena.intrinsicId .string
  | .void => return Arena.intrinsicId .undefined
  | .plus => return Arena.intrinsicId .number
  | .tilde => return Arena.intrinsicId .number
  | .minus =>
      match ← Check.data (← calls.ask (.infer scope of)) with
      | .numberLiteral text => Check.numberLiteral (negated text)
      | _ => return Arena.intrinsicId .number

def binaryType (scope : ValueScope) (op : BinaryOp) (left right : Expr) : Check TypeId := do
  let either : Check TypeId := do
    let l ← calls.ask (.infer scope left)
    let r ← calls.ask (.infer scope right)
    Check.union [l, r]
  match op with
  | .compare => return Arena.booleanId
  | .arithmetic => return Arena.intrinsicId .number
  | .and => calls.ask (.infer scope right)
  | .or => either
  | .nullish => either
  | .add =>
      let l ← inferWidened calls scope left
      let r ← inferWidened calls scope right
      let string := Arena.intrinsicId .string
      return if l = string || r = string then string
        else if l = Arena.anyId || r = Arena.anyId then Arena.anyId
        else Arena.intrinsicId .number

/-! ### Arrays and objects -/

def arrayType (scope : ValueScope) (items : List (Bool × Expr)) : Check TypeId := do
  let types ← items.mapM fun (isSpread, e) => do
    let t ← calls.ask (.infer scope e)
    let t ← if isSpread then itemType calls t else pure t
    Check.widen t
  let item ← if types.isEmpty then pure Arena.anyId else Check.union types
  arrayOf item

/-- Sets a member; one of that name gives way, and the new one comes last. -/
def setMember (shape : Shape) (m : Member) : Shape :=
  { shape with members := shape.members.filter (·.name ≠ m.name) ++ [m] }

/-- Adds a property of an object literal. -/
def addProperty (scope : ValueScope) (shape : Shape) (p : ObjectProperty) : Check Shape := do
  let set (name : String) (type : TypeId) (doc : DocComment) : Shape :=
    setMember shape ⟨name, type, false, false, doc.text⟩
  match p with
  | .spread of =>
      let t ← calls.ask (.infer scope of)
      return (← calls.ask (.shape t)).members.foldl setMember shape
  | .shorthand name doc => return set name (← Check.widen (← identifierType calls scope name)) doc
  | .keyed name value doc => return set name (← inferWidened calls scope value) doc
  | .assign name value doc => return set name (← inferWidened calls scope value) doc
  | .getter name type body doc =>
      let t ← match type, body with
        | some e, _ => calls.ask (.lower scope.types e)
        | none, some statements => blockReturn calls scope statements false false
        | none, none => pure Arena.anyId
      return set name t doc
  | .setter name doc =>
      return if (shape.member? name).isSome then shape else set name Arena.anyId doc
  | .method name function doc =>
      return set name (← Check.callable (← functionSignature calls scope doc function)) doc

def objectType (scope : ValueScope) (properties : List ObjectProperty) : Check TypeId := do
  Check.object (← properties.foldlM (addProperty calls scope) {})

/-! ### Members and calls -/

/-- The type of `object[index]`. -/
def computedType (scope : ValueScope) (object : TypeId) (index : Expr) : Check TypeId := do
  match index with
  | .string name => memberType calls object name
  | .number value =>
      match ← Check.data object with
      | .tuple items => return (value.index?.bind (items[·]?)).getD Arena.anyId
      | _ => numberIndexType calls object
  | _ =>
      let t ← inferWidened calls scope index
      if t = Arena.intrinsicId .number then itemType calls object
      else stringIndexType calls object

/-- Finds types for type parameters by matching the type of an argument with that of a parameter;
the first find for each stays. -/
def inferFrom (params : List TypeId) : Nat → Substitution → TypeId → TypeId → Check Substitution
  | 0, map, _, _ => return map
  | n + 1, map, target, source => do
      if params.contains target then
        if (map.lookup target).isSome then return map
        else return map ++ [(target, ← Check.widen source)]
      else
        match ← Check.data target, ← Check.data source with
        | .reference targetSymbol targetArgs, .reference sourceSymbol sourceArgs =>
            if targetSymbol = sourceSymbol then
              (targetArgs.zip sourceArgs).foldlM (fun map (t, s) => inferFrom params n map t s) map
            else return map
        | .union members, _ =>
            (members.filter params.contains).foldlM
              (fun map m => inferFrom params n map m source) map
        | .object shape, _ =>
            let sourceCall := (← calls.ask (.shape source)).call.head?
            let map ← match shape.call.head?, sourceCall with
              | some t, some s => do
                  let map ← (t.params.zip s.params).foldlM
                    (fun map (tp, sp) => inferFrom params n map tp.type sp.type) map
                  inferFrom params n map t.result s.result
              | _, _ => pure map
            shape.members.foldlM (fun map m => do
              match (← calls.ask (.shape source)).member? m.name with
              | some found => inferFrom params n map m.type found.type
              | none => return map) map
        | _, _ => return map

/-- The type arguments that are written, or else found from the arguments of a call. -/
def typeArgsFor (scope : ValueScope) (s : Signature) (typeArgs : Option (List TypeExpr))
    (args : List Expr) : Check Substitution := do
  match typeArgs with
  | some written =>
      (s.typeParams.zip written).mapM fun (param, e) =>
        return (param, ← calls.ask (.lower scope.types e))
  | none =>
      (s.params.zip args).foldlM (fun map (param, e) => do
        let t ← calls.ask (.infer scope e)
        inferFrom calls s.typeParams (maxInference + 1) map param.type t) []

/-- The type of a call. Type parameters that nothing is known about become `unknown`. -/
def applySignature (scope : ValueScope) (s : Signature) (typeArgs : Option (List TypeExpr))
    (args : List Expr) : Check TypeId := do
  if s.typeParams.isEmpty then return s.result
  else
    let found ← typeArgsFor calls scope s typeArgs args
    let open_ := s.typeParams.filter fun p => (found.lookup p).isNone
    substitute calls (found ++ open_.map (·, Arena.intrinsicId .unknown)) s.result

def applyFirst (scope : ValueScope) (signatures : List Signature)
    (typeArgs : Option (List TypeExpr)) (args : List Expr) : Check TypeId :=
  match signatures with
  | s :: _ => applySignature calls scope s typeArgs args
  | [] => return Arena.anyId

/-! ### Expressions -/

/-- The type of an expression. -/
def infer (scope : ValueScope) : Expr → Check TypeId
  | .ident name => identifierType calls scope name
  | .this => return scope.types.this.getD Arena.anyId
  | .null => return Arena.intrinsicId .null
  | .boolean value => Check.booleanLiteral value
  | .number value => Check.numberLiteral value.text
  | .bigint => return Arena.intrinsicId .bigint
  | .string value => Check.stringLiteral value
  | .regex => globalType calls "RegExp"
  | .template (some text) => Check.stringLiteral text
  | .template none => return Arena.intrinsicId .string
  | .array items => arrayType calls scope items
  | .object properties => objectType calls scope properties
  | .function function => do Check.callable (← functionSignature calls scope {} function)
  | .element => return (← elementType? calls).getD Arena.anyId
  | .paren of => calls.ask (.infer scope of)
  | .cast type => calls.ask (.lower scope.types type)
  | .wrapped of => calls.ask (.infer scope of)
  | .instantiation of _ _ => calls.ask (.infer scope of)
  | .await of => do awaited (← calls.ask (.infer scope of))
  | .unary op of => unaryType calls scope op of
  | .update => return Arena.intrinsicId .number
  | .binary op left right => binaryType calls scope op left right
  | .conditional whenTrue whenFalse => do
      let t ← calls.ask (.infer scope whenTrue)
      let f ← calls.ask (.infer scope whenFalse)
      Check.union [t, f]
  | .assign value => calls.ask (.infer scope value)
  | .sequence last => calls.ask (.infer scope last)
  | .member object name => do memberType calls (← calls.ask (.infer scope object)) name
  | .computed object index => do
      computedType calls scope (← calls.ask (.infer scope object)) index
  | .privateMember object => do
      let _ ← calls.ask (.infer scope object)
      return Arena.anyId
  | .call callee typeArgs args => do
      let t ← calls.ask (.infer scope callee)
      applyFirst calls scope (← calls.ask (.shape t)).call typeArgs args
  | .new callee typeArgs args => do
      let t ← calls.ask (.infer scope callee)
      applyFirst calls scope (← calls.ask (.shape t)).construct typeArgs args
  | .other => return Arena.anyId

end ApiDocs.Checker
