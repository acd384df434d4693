import ApiDocs.Proofs.Arity.Types

set_option autoImplicit false

/-!
What is read from annotations, declarations and expressions keeps states matched, for all instances
that it makes are made of references, arrays and promises.
-/

namespace ApiDocs.Checker

open Syntax Check

variable {b : Bindings} {calls : Calls} [matching : MatchingCalls b calls]

/-! ## Parts that make neither arrays nor promises -/

/-! ### Results of functions -/

instance matching_awaitedAt {promise : Option SymbolId} {n : Nat} {t : TypeId} :
    Matching b (awaitedAt promise n t) := by
  induction n generalizing t with
  | zero => exact matching_pure
  | succ n ih =>
      refine .bind fun data => ?_
      split <;> infer_instance

instance matching_awaited {t : TypeId} : Matching b (awaited t) := matching_bind

/-! ### Parameters -/

instance matching_lowerAnnotated {scope : TypeScope} {e : Option TypeExpr} :
    Matching b (lowerAnnotated calls scope e) := by
  unfold lowerAnnotated
  split <;> infer_instance

instance matching_inferWidened {scope : ValueScope} {e : Expr} :
    Matching b (inferWidened calls scope e) := matching_bind

section

variable {scope : TypeScope} {values : ValueScope} {doc : DocComment} {index : Nat} {optional : Bool}
  {type : Option TypeExpr}

instance matching_nameParam? {name : String} {fallback : TypeId} :
    Matching b (nameParam? calls scope doc name optional type fallback) := by
  unfold nameParam?
  split
  · exact matching_pure
  · split <;> exact .bind fun t => inferInstance

instance matching_objectParam {properties : List PatternProperty} :
    Matching b (objectParam calls values index properties optional type) := by
  unfold objectParam
  split <;> exact .bind fun t => inferInstance

instance matching_arrayParam {items : List (Option Pattern)} :
    Matching b (arrayParam calls scope index items optional type) := by
  unfold arrayParam
  split <;> exact .bind fun t => inferInstance

end

instance matching_patternMember? {scope : ValueScope} {property : PatternProperty} :
    Matching b (patternMember? calls scope property) := by
  unfold patternMember?
  split <;> infer_instance

instance matching_patternType {scope : ValueScope} {properties : List PatternProperty} :
    Matching b (patternType calls scope properties) := by
  have each : ∀ (shape : Shape) (x : PatternProperty), Matching b (do
      match ← patternMember? calls scope x with
      | some m => return shape.addMember m
      | none => return shape) := by
    intro shape x
    refine .bind fun found => ?_
    split <;> infer_instance
  exact @Matching.bind _ _ _ _ _ (@matching_foldlM _ _ _ _ _ _ each) fun shape => matching_object

/-! ### Members of types -/

instance matching_addIndex {scope : TypeScope} {shape : Shape} {index : IndexExpr} :
    Matching b (addIndex calls scope shape index) := by
  unfold addIndex
  split <;> infer_instance

/-! ### Annotations -/

instance matching_lowerReference {scope : TypeScope} {name : Entity} {args : List TypeExpr} :
    Matching b (lowerReference calls scope name args) := by
  have named : ∀ args, Matching b (do
      match ← Check.resolveEntity scope name .type with
      | some s => typeReference calls s args
      | none => Check.unresolved name.text args) := by
    intro args
    refine .bind fun found => ?_
    split <;> infer_instance
  refine .bind fun args => ?_
  cases name with
  | ident text =>
      dsimp only
      split
      · exact matching_pure
      · exact named args
  | qualified left name => exact named args

instance matching_lowerMapped {scope : TypeScope} {name : String} {constraint : TypeExpr}
    {template : Option TypeExpr} {optional readonly : Option Modifier} :
    Matching b (lowerMapped calls scope name constraint template optional readonly) := by
  have param : Matching b (add (.typeParameter { name })) := matching_add trivial
  have mapped : ∀ m, Matching b (add (.mapped m)) := fun m => matching_add trivial
  unfold lowerMapped
  infer_instance

/-! ### Interfaces and classes -/

instance matching_lowerArgs {scope : TypeScope} {args : List TypeExpr} :
    Matching b (lowerArgs calls scope args) := matching_mapM

instance matching_resolveExpr {scope : TypeScope} {e : Expr} {space : Space} :
    Matching b (resolveExpr scope e space) := by
  unfold resolveExpr
  split <;> infer_instance

instance matching_lowerHeritage {scope : TypeScope} {h : Heritage} :
    Matching b (lowerHeritage calls scope h) := by
  refine .bind fun args => .bind fun found => ?_
  split <;> infer_instance

instance matching_classOf? {s : SymbolId} : Matching b (classOf? s) := matching_bind

instance matching_classScope {s : SymbolId} {file : FileId} {class_ : ClassExpr} :
    Matching b (classScope calls s file class_) := by
  unfold classScope
  infer_instance

instance matching_propertyParam? {scope : ValueScope} {doc : DocComment} {pattern : Pattern} :
    Matching b (propertyParam? calls scope doc pattern) := by
  unfold propertyParam?
  split <;> infer_instance

instance matching_methodType {signature : Signature} {kind : MethodKind} :
    Matching b (methodType signature kind) := by
  unfold methodType
  split <;> infer_instance

instance matching_addParamMembers {scope : ValueScope} {doc : DocComment} {shape : Shape}
    {params : List ConstructorParam} : Matching b (addParamMembers calls scope doc shape params) := by
  refine @matching_foldlM _ _ _ _ _ _ fun shape x => ?_
  split
  · refine .bind fun param => ?_
    split <;> infer_instance
  · exact matching_pure

instance matching_baseInstance? {scope : TypeScope} {class_ : ClassExpr} :
    Matching b (baseInstance? calls scope class_) := by
  unfold baseInstance?
  split
  · exact matching_pure
  · refine .bind fun args => .bind fun found => ?_
    split
    · exact matching_pure
    · refine .bind fun target => ?_
      split
      · exact matching_pure
      · refine .bind fun kind => ?_
        split
        · infer_instance
        · refine .bind fun value => .bind fun shape => ?_
          split <;> infer_instance

instance matching_inheritedConstructs? {scope : TypeScope} {class_ : ClassExpr} :
    Matching b (inheritedConstructs? calls scope class_) := by
  unfold inheritedConstructs?
  split
  · exact matching_pure
  · refine .bind fun args => .bind fun found => ?_
    split
    · exact matching_pure
    · refine .bind fun value => .bind fun shape => ?_
      split <;> infer_instance

/-! ### Shapes of types -/

instance matching_intersectMember {members : List Member} {m : Member} :
    Matching b (intersectMember members m) := by
  unfold intersectMember
  split <;> infer_instance

instance matching_intersectShape {merged part : Shape} : Matching b (intersectShape merged part) := by
  unfold intersectShape
  infer_instance

instance matching_globalShape {name : String} : Matching b (globalShape calls name) := by
  refine .bind fun found => ?_
  split <;> infer_instance

instance matching_instanceShape {symbol : SymbolId} {args : List TypeId} :
    Matching b (instanceShape calls symbol args) := by
  unfold instanceShape
  infer_instance

/-! ### Expressions -/

instance matching_identifierType {scope : ValueScope} {name : String} :
    Matching b (identifierType calls scope name) := by
  unfold identifierType
  split
  · exact matching_pure
  · split
    · exact matching_pure
    · refine .bind fun found => ?_
      split <;> infer_instance

instance matching_unaryType {scope : ValueScope} {op : UnaryOp} {of : Expr} :
    Matching b (unaryType calls scope op of) := by
  cases op with
  | minus =>
      refine .bind fun t => .bind fun data => ?_
      split <;> infer_instance
  | _ => exact matching_pure

instance matching_binaryType {scope : ValueScope} {op : BinaryOp} {left right : Expr} :
    Matching b (binaryType calls scope op left right) := by
  cases op <;> (unfold binaryType; infer_instance)

instance matching_computedType {scope : ValueScope} {object : TypeId} {index : Expr} :
    Matching b (computedType calls scope object index) := by
  unfold computedType
  split
  · infer_instance
  · refine .bind fun data => ?_
    split <;> infer_instance
  · infer_instance

instance matching_inferFrom {params : List TypeId} {n : Nat} {map : Substitution}
    {target source : TypeId} : Matching b (inferFrom calls params n map target source) := by
  induction n generalizing map target source with
  | zero => exact matching_pure
  | succ n ih =>
      unfold inferFrom
      split
      · infer_instance
      · refine .bind fun targetData => .bind fun sourceData => ?_
        split
        · infer_instance
        · infer_instance
        · rename_i shape
          have members : ∀ map, Matching b (shape.members.foldlM (fun map m => do
              match (← calls.ask (.shape source)).member? m.name with
              | some found => inferFrom calls params n map m.type found.type
              | none => return map) map) := by
            intro map
            refine @matching_foldlM _ _ _ _ _ _ fun map m => .bind fun found => ?_
            split <;> infer_instance
          refine .bind fun sourceShape => ?_
          dsimp only
          split
          · exact .bind fun first => .bind fun map => members map
          · exact .bind fun map => members map
        · infer_instance

instance matching_typeArgsFor {scope : ValueScope} {s : Signature} {typeArgs : Option (List TypeExpr)}
    {args : List Expr} : Matching b (typeArgsFor calls scope s typeArgs args) := by
  unfold typeArgsFor
  split <;> infer_instance

instance matching_applySignature {scope : ValueScope} {s : Signature}
    {typeArgs : Option (List TypeExpr)} {args : List Expr} :
    Matching b (applySignature calls scope s typeArgs args) := by
  unfold applySignature
  infer_instance

instance matching_applyFirst {scope : ValueScope} {signatures : List Signature}
    {typeArgs : Option (List TypeExpr)} {args : List Expr} :
    Matching b (applyFirst calls scope signatures typeArgs args) := by
  unfold applyFirst
  split <;> infer_instance

/-! ### Statements -/

instance matching_declaratorType {scope : ValueScope} {isConst : Bool} {d : Declarator} :
    Matching b (declaratorType calls scope isConst d) := by
  unfold declaratorType
  dsimp only
  generalize (match d.name with
    | .ident _ _ type => type
    | _ => none) = annotation
  split <;> infer_instance

instance matching_bindItems {t : TypeId} {items : List (Option Pattern)} {scope : ValueScope} :
    Matching b (bindItems calls t items scope) := by
  refine .bind fun data => ?_
  refine @matching_foldlM _ _ _ _ _ _ fun scope x => ?_
  dsimp only
  split
  · exact matching_pure
  · split <;> exact .bind fun part => inferInstance

instance matching_bindProperty {t : TypeId} {scope : ValueScope} {property : PatternProperty} :
    Matching b (bindProperty calls t scope property) := by
  unfold bindProperty
  split <;> infer_instance

instance matching_bindPattern {scope : ValueScope} {t : TypeId} {pattern : Pattern} :
    Matching b (bindPattern calls scope t pattern) := by
  unfold bindPattern
  split <;> infer_instance

/-! ### Values -/

instance matching_variableType {s : SymbolId} : Matching b (variableType calls s) := by
  refine .bind fun decls => ?_
  split <;> infer_instance

instance matching_namespaceMembers {s : SymbolId} : Matching b (namespaceMembers s) := by
  refine .bind fun symbol => ?_
  split
  · exact matching_pure
  · split <;> infer_instance

instance matching_namespaceObject {s : SymbolId} : Matching b (namespaceObject calls s) := by
  have each : ∀ (shape : Shape) (x : String × Option SymbolId), Matching b (do
      let type ← match x.2 with
        | some id => calls.ask (.valueType id)
        | none => pure Arena.anyId
      return shape.addMember ⟨x.1, type, false, true, ""⟩) := by
    intro shape x
    split <;> exact .bind fun type => inferInstance
  refine .bind fun members => ?_
  exact @Matching.bind _ _ _ _ _ (@matching_foldlM _ _ _ _ _ _ each) fun shape => matching_object

/-! ## Parts that make arrays and promises -/

section

variable [standard : b.Standard]

/-! ### Results of functions -/

instance matching_returned {isAsync : Bool} {t : TypeId} : Matching b (returned isAsync t) := by
  unfold returned
  infer_instance

instance matching_blockReturn {scope : ValueScope} {statements : List Stmt}
    {isAsync isGenerator : Bool} :
    Matching b (blockReturn calls scope statements isAsync isGenerator) := by
  unfold blockReturn
  infer_instance

/-! ### Parameters -/

section

variable {scope : TypeScope} {values : ValueScope} {doc : DocComment} {index : Nat} {optional : Bool}
  {type : Option TypeExpr}

instance matching_restParam {of : Pattern} : Matching b (restParam calls scope doc index of type) := by
  unfold restParam
  split
  split <;> exact .bind fun t => inferInstance

instance matching_param? {pattern : Pattern} : Matching b (param? calls values doc index pattern) := by
  unfold param?
  split
  · infer_instance
  · infer_instance
  · infer_instance
  · infer_instance
  · refine .bind fun fallback => ?_
    split <;> exact .bind fun param => inferInstance

end

/-! ### Signatures -/

instance matching_lowerSignature {scope : TypeScope} {doc : DocComment} {s : SignatureExpr} :
    Matching b (lowerSignature calls scope doc s) := by
  unfold lowerSignature
  infer_instance

instance matching_functionSignature {scope : ValueScope} {doc : DocComment} {f : FunctionExpr} :
    Matching b (functionSignature calls scope doc f) := by
  have param : ∀ (read : ParamsRead) (x : Pattern × Nat), Matching b (do
      match ← param? calls read.scope doc x.2 x.1 with
      | some param =>
          let scope ← calls.ask (.bindPattern read.scope x.1 param.type)
          return (⟨scope, read.params ++ [param]⟩ : ParamsRead)
      | none => return read) := by
    intro read x
    refine .bind fun found => ?_
    cases found <;> infer_instance
  unfold functionSignature
  refine .bind fun (typeParams, types) => ?_
  refine @Matching.bind _ _ _ _ _ (@matching_foldlM _ _ _ _ _ _ param) fun read => ?_
  split <;> exact .bind fun result => inferInstance

/-! ### Members of types -/

instance matching_addTypeMember {scope : TypeScope} {shape : Shape} {m : TypeMember} :
    Matching b (addTypeMember calls scope shape m) := by
  unfold addTypeMember
  split <;> infer_instance

instance matching_lowerMembers {scope : TypeScope} {members : List TypeMember} :
    Matching b (lowerMembers calls scope members) := matching_foldlM

/-! ### Annotations -/

instance matching_lower {scope : TypeScope} {e : TypeExpr} : Matching b (lower calls scope e) := by
  cases e with
  | query name =>
      refine .bind fun found => ?_
      split <;> infer_instance
  | keyOf of =>
      have made : ∀ t, Matching b (add (.keyOf t)) := fun t => matching_add trivial
      unfold lower
      infer_instance
  | indexed object index =>
      have made : ∀ t u, Matching b (add (.indexedAccess t u)) := fun t u => matching_add trivial
      unfold lower
      infer_instance
  | _ =>
      unfold lower
      infer_instance

/-! ### Interfaces and classes -/

instance matching_interfaceShape {s : SymbolId} : Matching b (interfaceShape calls s) := by
  refine .bind fun params => .bind fun this => .bind fun decls => ?_
  refine @Matching.bind _ _ _ _ _ (@matching_mapM _ _ _ _ _ fun x => ?_) fun decls => ?_
  · exact matching_bind
  · refine @Matching.bind _ _ _ _ _ (@matching_foldlM _ _ _ _ _ _ fun shape x => ?_) fun own => ?_
    · exact matching_bind
    · refine @matching_foldlM _ _ _ _ _ _ fun shape x => ?_
      exact @matching_foldlM _ _ _ _ _ _ fun shape h => matching_bind

instance matching_addClassMember {scope : ValueScope} {shape : Shape} {m : ClassMember} :
    Matching b (addClassMember calls scope shape m) := by
  unfold addClassMember
  split
  · split <;> exact .bind fun t => inferInstance
  · infer_instance
  · infer_instance
  · infer_instance

instance matching_classShape {s : SymbolId} : Matching b (classShape calls s) := by
  refine .bind fun found => ?_
  split
  · exact matching_pure
  · refine .bind fun scope => .bind fun own => .bind fun base => ?_
    split <;> infer_instance

instance matching_constructorParam? {scope : ValueScope} {doc : DocComment} {index : Nat}
    {x : ConstructorParam} : Matching b (constructorParam? calls scope doc index x) := by
  unfold constructorParam?
  infer_instance

instance matching_constructSignatures {s : SymbolId} : Matching b (constructSignatures calls s) := by
  refine .bind fun found => ?_
  split
  · exact matching_pure
  · refine .bind fun scope => .bind fun typeParams => .bind fun this => .bind fun own => ?_
    split
    · exact matching_pure
    · refine .bind fun inherited => ?_
      split <;> infer_instance

instance matching_structureOf {s : SymbolId} : Matching b (structureOf calls s) := by
  have found : Matching b (do
      match ← Check.kind? s with
      | some .interface => interfaceShape calls s
      | some .classDecl => classShape calls s
      | _ => return {}) := by
    refine .bind fun kind => ?_
    split <;> infer_instance
  exact matching_structureOnce

/-! ### Shapes of types -/

instance matching_shapeOfData {t : TypeId} : Matching b (shapeOfData calls t) := by
  refine .bind fun data => ?_
  split
  · infer_instance
  · infer_instance
  · infer_instance
  · split <;> infer_instance
  · infer_instance
  · infer_instance
  · infer_instance
  · infer_instance
  · -- an alias that waited for its members is expanded with the arguments that it is named with
    refine .andThen (upholds_deferredAlias? t) fun found takes => ?_
    split
    · rename_i ref
      have expanded : Matching b (aliasInstance calls ref.symbol ref.args) :=
        matching_aliasInstance (takes ref rfl).declared
      have deferred : ∀ t, Matching b (deferredAlias? t) := fun t => (upholds_deferredAlias? t).matching
      infer_instance
    · exact matching_pure
  · refine .bind fun isBoolean => ?_
    split <;> infer_instance

instance matching_shapeOf {t : TypeId} : Matching b (shapeOf calls t) := matching_shapeOnce

/-! ### Expressions -/

instance matching_arrayType {scope : ValueScope} {items : List (Bool × Expr)} :
    Matching b (arrayType calls scope items) := by
  have each : ∀ x : Bool × Expr, Matching b (do
      let t ← calls.ask (.infer scope x.2)
      let t ← if x.1 then itemType calls t else pure t
      Check.widen t) := by
    intro x
    refine .bind fun t => ?_
    split <;> exact .bind fun t => inferInstance
  refine @Matching.bind _ _ _ _ _ (@matching_mapM _ _ _ _ _ each) fun types => ?_
  split <;> exact .bind fun item => inferInstance

instance matching_addProperty {scope : ValueScope} {shape : Shape} {x : ObjectProperty} :
    Matching b (addProperty calls scope shape x) := by
  cases x with
  | getter name type body doc =>
      dsimp only [addProperty]
      split <;> exact .bind fun t => inferInstance
  | _ =>
      unfold addProperty
      infer_instance

instance matching_objectType {scope : ValueScope} {properties : List ObjectProperty} :
    Matching b (objectType calls scope properties) := by
  unfold objectType
  infer_instance

instance matching_infer {scope : ValueScope} {e : Expr} : Matching b (infer calls scope e) := by
  unfold infer
  split <;> infer_instance

/-! ### Statements -/

instance matching_returns {sofar : Returns} {s : Stmt} : Matching b (returns calls sofar s) := by
  unfold returns
  split
  · split <;> exact .bind fun t => inferInstance
  · infer_instance
  · infer_instance
  · infer_instance
  · infer_instance

/-! ### Values -/

instance matching_functionSignatures {s : SymbolId} : Matching b (functionSignatures calls s) := by
  unfold functionSignatures
  infer_instance

instance matching_declaredValue {s : SymbolId} : Matching b (declaredValue calls s) := by
  refine .bind fun kind => ?_
  split
  · infer_instance
  · infer_instance
  · infer_instance
  · refine .bind fun target => ?_
    split <;> infer_instance
  all_goals infer_instance

instance matching_valueType {s : SymbolId} : Matching b (valueType calls s) := matching_valueOnce

/-! ### Questions -/

/-- One step of the checker, for every question. -/
instance matching_step {α : Type} {q : Query α} : Matching b (step calls q) := by
  cases q <;> (unfold step; infer_instance)

end

/-! ### Answers -/

variable [standard : b.Standard]

instance matching_callsWithin {n : Nat} : MatchingCalls b (callsWithin n) := by
  induction n with
  | zero => exact ⟨fun q => matching_bind⟩
  | succ n ih => exact ⟨fun q => matching_step⟩

instance matching_callsTo {n : Nat} : MatchingCalls b (callsTo n) := matching_callsWithin

instance matching_calls : MatchingCalls b Checker.calls := matching_callsTo

end ApiDocs.Checker
