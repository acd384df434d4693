import ApiDocs.Proofs.Safety.Types

set_option autoImplicit false

/-!
The parts of the checker that read annotations and members keep it sound, as long as the questions
that they ask do.
-/

namespace ApiDocs.Checker

open Syntax Check

variable {p : Program} {calls : Calls} [safe : SafeCalls p calls] {c : Checker} [c.Started]

/-! ### Results of functions -/

omit [c.Started] in
instance safe_awaitedAt {promise : Option SymbolId} {n : Nat} {t : TypeId} [Known c t] :
    Safe p c (awaitedAt promise n t) := by
  induction n generalizing c t with
  | zero =>
      unfold awaitedAt
      infer_instance
  | succ n ih =>
      unfold awaitedAt
      refine .bind fun data c₁ _ known => ?_
      split
      · rename_i symbol inner rest
        obtain ⟨_, args⟩ := known_reference_iff.mp known
        have : Known c₁ inner := args.mem List.mem_cons_self
        have : Safe p c₁ (awaitedAt promise n inner) := ih
        infer_instance
      · infer_instance

omit [c.Started] in
instance safe_awaited {t : TypeId} [Known c t] : Safe p c (awaited t) := by
  unfold awaited
  exact .bind fun promise c₁ _ _ => inferInstance

instance safe_returned {isAsync : Bool} {t : TypeId} [Known c t] :
    Safe p c (returned isAsync t) := by
  unfold returned
  have : Safe p c (do promiseOf (← awaited t)) := .bind fun value c₁ _ _ => inferInstance
  infer_instance

instance safe_blockReturn {scope : ValueScope} {statements : List Stmt} {isAsync isGenerator : Bool}
    [Known c scope] : Safe p c (blockReturn calls scope statements isAsync isGenerator) := by
  unfold blockReturn
  split
  · infer_instance
  · refine .andThen (.foldlM fun found s c₁ _ _ _ => inferInstance) fun found c₁ _ _ => ?_
    exact .bind fun t c₂ _ _ => inferInstance

/-! ### Parameters -/

instance safe_lowerAnnotated {scope : TypeScope} {e : Option TypeExpr} [Known c scope] :
    Safe p c (lowerAnnotated calls scope e) := by
  unfold lowerAnnotated
  split <;> infer_instance

instance safe_inferWidened {scope : ValueScope} {e : Expr} [Known c scope] :
    Safe p c (inferWidened calls scope e) := by
  unfold inferWidened
  exact .bind fun t c₁ _ _ => inferInstance

instance safe_nameParam? {scope : TypeScope} {doc : DocComment} {name : String} {optional : Bool}
    {type : Option TypeExpr} {fallback : TypeId} [Known c scope] [Known c fallback] :
    Safe p c (nameParam? calls scope doc name optional type fallback) := by
  unfold nameParam?
  split
  · infer_instance
  · cases type with
    | none => exact .bind fun t c₁ _ _ => inferInstance
    | some e => exact .bind fun t c₁ _ _ => inferInstance

instance safe_objectParam {scope : ValueScope} {index : Nat} {properties : List PatternProperty}
    {optional : Bool} {type : Option TypeExpr} [Known c scope] :
    Safe p c (objectParam calls scope index properties optional type) := by
  unfold objectParam
  cases type with
  | none => exact .bind fun t c₁ _ _ => inferInstance
  | some e => exact .bind fun t c₁ _ _ => inferInstance

instance safe_arrayParam {scope : TypeScope} {index : Nat} {items : List (Option Pattern)}
    {optional : Bool} {type : Option TypeExpr} [Known c scope] :
    Safe p c (arrayParam calls scope index items optional type) := by
  unfold arrayParam
  cases type with
  | none =>
      have : Known c (items.map fun _ => Arena.anyId) :=
        known_map inferInstance fun _ _ => inferInstance
      exact .bind fun t c₁ _ _ => inferInstance
  | some e => exact .bind fun t c₁ _ _ => inferInstance

instance safe_restParam {scope : TypeScope} {doc : DocComment} {index : Nat} {of : Pattern}
    {type : Option TypeExpr} [Known c scope] : Safe p c (restParam calls scope doc index of type) := by
  unfold restParam
  dsimp only
  split
  · exact .bind fun t c₁ _ _ => inferInstance
  · exact .bind fun t c₁ _ _ => inferInstance

instance safe_param? {scope : ValueScope} {doc : DocComment} {index : Nat} {pattern : Pattern}
    [Known c scope] : Safe p c (param? calls scope doc index pattern) := by
  unfold param?
  split
  · infer_instance
  · exact .bind fun param c₁ _ _ => inferInstance
  · exact .bind fun param c₁ _ _ => inferInstance
  · exact .bind fun param c₁ _ _ => inferInstance
  · refine .bind fun fallback c₁ _ _ => ?_
    split <;> exact .bind fun param c₂ _ _ => inferInstance

instance safe_patternMember? {scope : ValueScope} {property : PatternProperty} [Known c scope] :
    Safe p c (patternMember? calls scope property) := by
  unfold patternMember?
  split
  · infer_instance
  · exact .bind fun t c₁ _ _ => inferInstance
  · infer_instance
  · exact .bind fun t c₁ _ _ => inferInstance
  · exact .bind fun t c₁ _ _ => inferInstance
  · infer_instance
  · infer_instance

instance safe_patternType {scope : ValueScope} {properties : List PatternProperty} [Known c scope] :
    Safe p c (patternType calls scope properties) := by
  unfold patternType
  refine .andThen (.foldlM fun shape property c₁ _ _ _ => ?_) fun shape c₁ _ _ => inferInstance
  refine .bind fun found c₂ _ known => ?_
  cases found with
  | none => exact safe_pure
  | some m =>
      have := known.of_some
      exact safe_pure

/-! ### Signatures -/

instance safe_lowerSignature {scope : TypeScope} {doc : DocComment} {s : SignatureExpr}
    [Known c scope] : Safe p c (lowerSignature calls scope doc s) := by
  unfold lowerSignature
  refine .bind fun r c₁ _ _ => ?_
  refine .andThen (.filterMapM fun x c₂ _ _ => inferInstance) fun params c₂ _ _ => ?_
  exact .bind fun result c₃ _ _ => inferInstance

instance safe_functionSignature {scope : ValueScope} {doc : DocComment} {f : FunctionExpr}
    [Known c scope] : Safe p c (functionSignature calls scope doc f) := by
  unfold functionSignature
  refine .bind fun r c₁ _ _ => ?_
  refine .andThen (.foldlM fun read x c₂ _ _ _ => ?_) fun read c₂ _ _ => ?_
  · refine .bind fun param c₃ _ known => ?_
    cases param with
    | none => exact safe_pure
    | some param =>
        have := known.of_some
        exact .bind fun scope c₄ _ _ => inferInstance
  · split
    · exact .bind fun result c₃ _ _ => inferInstance
    · exact .bind fun result c₃ _ _ => inferInstance
    · exact .bind fun value c₃ _ _ => .bind fun result c₄ _ _ => inferInstance
    · exact .bind fun result c₃ _ _ => inferInstance

/-! ### Members -/

instance safe_addIndex {scope : TypeScope} {shape : Shape} {index : IndexExpr} [Known c scope]
    [Known c shape] : Safe p c (addIndex calls scope shape index) := by
  have indexed : ∀ (keyType : TypeId) (c' : Checker) [c.Before c'] [c'.Started] [Known c' keyType],
      Safe p c' (do
        let isNumber := match ← Check.data keyType with
          | .intrinsic .number => true
          | _ => false
        let info : IndexInfo := ⟨index.keyName, ← lowerAnnotated calls scope index.type⟩
        return if isNumber then { shape with numberIndex := some info }
          else { shape with stringIndex := some info }) := by
    intro keyType c' _ _ _
    exact .bind fun data c₁ _ _ => .bind fun type c₂ _ _ => inferInstance
  unfold addIndex
  cases index.keyType with
  | none => exact .bind fun keyType c₁ _ _ => indexed keyType c₁
  | some e => exact .bind fun keyType c₁ _ _ => indexed keyType c₁

instance safe_addTypeMember {scope : TypeScope} {shape : Shape} {m : TypeMember} [Known c scope]
    [Known c shape] : Safe p c (addTypeMember calls scope shape m) := by
  unfold addTypeMember
  split
  · exact .bind fun t c₁ _ _ => inferInstance
  · split
    · infer_instance
    · exact .bind fun s c₁ _ _ => .bind fun t c₂ _ _ => inferInstance
  · exact .bind fun param c₁ _ _ => inferInstance
  · exact .bind fun s c₁ _ _ => inferInstance
  · exact .bind fun s c₁ _ _ => inferInstance
  · infer_instance

instance safe_lowerMembers {scope : TypeScope} {members : List TypeMember} [Known c scope] :
    Safe p c (lowerMembers calls scope members) :=
  .foldlM fun _ _ _ _ _ _ => inferInstance

/-! ### Annotations -/

/-- Annotations that are read one after the other. -/
instance safe_lowerAll {scope : TypeScope} {es : List TypeExpr} [Known c scope] :
    Safe p c (es.mapM fun e => calls.ask (.lower scope e)) :=
  .mapM fun _ _ _ _ => inferInstance

instance safe_lowerReference {scope : TypeScope} {name : Entity} {args : List TypeExpr}
    [Known c scope] : Safe p c (lowerReference calls scope name args) := by
  have resolved : ∀ (args : List TypeId) (c' : Checker) [c'.Started] [Known c' args],
      Safe p c' (do
        match ← Check.resolveEntity scope name .type with
        | some s => typeReference calls s args
        | none => Check.unresolved name.text args) := by
    intro args c' _ _
    refine .bind fun found c₁ _ known => ?_
    cases found with
    | none => exact safe_unresolved
    | some s =>
        have := known.of_some
        exact safe_typeReference
  unfold lowerReference
  refine .bind fun args c₁ _ _ => ?_
  cases name with
  | qualified left right => exact resolved args c₁
  | ident text =>
      have param : Known c₁ (scope.param? text) := inferInstance
      dsimp only
      split
      · rename_i t found
        rw [found] at param
        have := param.of_some
        infer_instance
      · exact resolved args c₁

instance safe_lowerMapped {scope : TypeScope} {name : String} {constraint : TypeExpr}
    {template : Option TypeExpr} {optional readonly : Option Modifier} [Known c scope] :
    Safe p c (lowerMapped calls scope name constraint template optional readonly) := by
  unfold lowerMapped
  refine .bind fun param c₁ _ _ => .bind fun constraint c₂ _ _ => ?_
  exact .bind fun template c₃ _ _ => .bind fun t c₄ _ _ => inferInstance

instance safe_lower {scope : TypeScope} {e : TypeExpr} [Known c scope] :
    Safe p c (lower calls scope e) := by
  cases e with
  | intrinsic | boolean | this => exact safe_pure
  | function => exact .bind fun s c₁ _ _ => inferInstance
  | constructor => exact .bind fun s c₁ _ _ => inferInstance
  | reference => exact safe_lowerReference
  | query name =>
      refine .bind fun found c₁ _ known => ?_
      cases found with
      | none => exact safe_pure
      | some s =>
          have := known.of_some
          exact inferInstanceAs (Safe p c₁ (calls.ask (.valueType s)))
  | members => exact .bind fun shape c₁ _ _ => inferInstance
  | array => exact .bind fun item c₁ _ _ => inferInstance
  | tuple => exact .bind fun items c₁ _ _ => inferInstance
  | union => exact .bind fun members c₁ _ _ => inferInstance
  | intersection => exact .bind fun members c₁ _ _ => inferInstance
  | verbatim => exact safe_unresolved
  | keyOf => exact .bind fun inner c₁ _ _ => .bind fun t c₂ _ _ => inferInstance
  | indexed =>
      refine .bind fun object c₁ _ _ => .bind fun index c₂ _ _ => ?_
      exact .bind fun t c₃ _ _ => inferInstance
  | mapped => exact safe_lowerMapped
  | booleanLiteral => exact safe_booleanLiteral
  | numberLiteral => exact safe_numberLiteral
  | stringLiteral => exact safe_stringLiteral

/-! ### Interfaces and classes -/

instance safe_lowerArgs {scope : TypeScope} {args : List TypeExpr} [Known c scope] :
    Safe p c (lowerArgs calls scope args) := safe_lowerAll

omit [c.Started] in
instance safe_resolveExpr {scope : TypeScope} {e : Expr} {space : Space} :
    Safe p c (resolveExpr scope e space) := by
  unfold resolveExpr
  split <;> infer_instance

instance safe_lowerHeritage {scope : TypeScope} {h : Heritage} [Known c scope] :
    Safe p c (lowerHeritage calls scope h) := by
  unfold lowerHeritage
  refine .bind fun args c₁ _ _ => .bind fun found c₂ _ known => ?_
  cases found with
  | none => exact safe_unresolved
  | some s =>
      have := known.of_some
      exact safe_typeReference

omit [c.Started] in
instance known_mergeDeclaration {shape own : Shape} [Known c shape] [Known c own] :
    Known c (mergeDeclaration shape own) := by
  unfold mergeDeclaration
  infer_instance

instance safe_interfaceShape {s : SymbolId} [Known c s] : Safe p c (interfaceShape calls s) := by
  unfold interfaceShape
  refine .bind fun params c₁ _ _ => .bind fun this c₂ _ _ => .bind fun decls c₃ _ _ => ?_
  refine .andThen (.mapM fun x c₄ _ _ => ?_) fun decls c₄ _ _ => ?_
  · exact .bind fun scope c₅ _ _ => inferInstance
  refine .andThen (.foldlM fun shape x c₅ _ _ _ => ?_) fun own c₅ _ _ => ?_
  · exact .bind fun members c₆ _ _ => inferInstance
  refine .foldlM fun shape x c₆ _ _ _ => .foldlM fun shape h c₇ _ _ _ => ?_
  exact .bind fun base c₈ _ _ => .bind fun inherited c₉ _ _ => inferInstance

omit [c.Started] in
instance safe_classOf? {s : SymbolId} : Safe p c (classOf? s) := by
  unfold classOf?
  exact .bind fun decls c₁ _ _ => inferInstance

instance safe_classScope {s : SymbolId} {file : FileId} {class_ : ClassExpr} [Known c s] :
    Safe p c (classScope calls s file class_) := by
  unfold classScope
  refine .bind fun params c₁ _ _ => .bind fun this c₂ _ _ => ?_
  exact .bind fun scope c₃ _ _ => inferInstance

instance safe_propertyParam? {scope : ValueScope} {doc : DocComment} {pattern : Pattern}
    [Known c scope] : Safe p c (propertyParam? calls scope doc pattern) := by
  unfold propertyParam?
  split
  · infer_instance
  · exact .bind fun fallback c₁ _ _ => .bind fun param c₂ _ _ => inferInstance
  · infer_instance

instance safe_methodType {signature : Signature} {kind : MethodKind} [Known c signature] :
    Safe p c (methodType signature kind) := by
  cases kind with
  | method => exact safe_callable
  | getter | setter => exact safe_pure

instance safe_addParamMembers {scope : ValueScope} {doc : DocComment} {shape : Shape}
    {params : List ConstructorParam} [Known c scope] [Known c shape] :
    Safe p c (addParamMembers calls scope doc shape params) := by
  refine .foldlM fun shape param c₁ _ _ _ => ?_
  split
  · refine .bind fun found c₂ _ known => ?_
    cases found with
    | none => exact safe_pure
    | some param =>
        have := known.of_some
        exact safe_pure
  · infer_instance

instance safe_addClassMember {scope : ValueScope} {shape : Shape} {m : ClassMember}
    [Known c scope] [Known c shape] : Safe p c (addClassMember calls scope shape m) := by
  unfold addClassMember
  split
  · split <;> exact .bind fun t c₁ _ _ => inferInstance
  · split
    · infer_instance
    · exact .bind fun s c₁ _ _ => .bind fun t c₂ _ _ => inferInstance
  · infer_instance
  · infer_instance

instance safe_baseInstance? {scope : TypeScope} {class_ : ClassExpr} [Known c scope] :
    Safe p c (baseInstance? calls scope class_) := by
  unfold baseInstance?
  split
  · infer_instance
  · refine .bind fun args c₁ _ _ => .bind fun found c₂ _ known => ?_
    cases found with
    | none => exact safe_pure
    | some s =>
        refine .bind fun target c₃ _ known => ?_
        cases target with
        | none => exact safe_pure
        | some target =>
            have := known.of_some
            refine .bind fun kind c₄ _ _ => ?_
            split
            · exact .bind fun t c₅ _ _ => inferInstance
            · refine .bind fun value c₅ _ _ => .bind fun shape c₆ _ _ => ?_
              split
              · rename_i signature rest found
                have all : Known c₆ shape.construct := inferInstance
                have : Known c₆ signature := all.mem (found ▸ List.mem_cons_self)
                exact .bind fun t c₇ _ _ => inferInstance
              · infer_instance

instance safe_classShape {s : SymbolId} [Known c s] : Safe p c (classShape calls s) := by
  unfold classShape
  refine .bind fun class_ c₁ _ _ => ?_
  split
  · infer_instance
  · refine .bind fun scope c₂ _ _ => ?_
    refine .andThen (.foldlM fun shape m c₃ _ _ _ => inferInstance) fun own c₃ _ _ => ?_
    refine .bind fun base c₄ _ known => ?_
    cases base with
    | none => exact safe_pure
    | some base =>
        have := known.of_some
        exact .bind fun inherited c₅ _ _ => inferInstance

instance safe_inheritedConstructs? {scope : TypeScope} {class_ : ClassExpr} [Known c scope] :
    Safe p c (inheritedConstructs? calls scope class_) := by
  unfold inheritedConstructs?
  split
  · infer_instance
  · refine .bind fun args c₁ _ _ => .bind fun found c₂ _ known => ?_
    cases found with
    | none => exact safe_pure
    | some s =>
        have := known.of_some
        refine .bind fun value c₃ _ _ => .bind fun shape c₄ _ _ => ?_
        split
        · infer_instance
        · have inherited : Safe p c₄ (shape.construct.mapM fun signature => do
              let args ← fillTypeArgs calls signature.typeParams args
              substituteSignature calls (signature.typeParams.zip args) signature) :=
            .mapM fun signature c₅ _ _ => .bind fun args c₆ _ _ => inferInstance
          exact safe_map_some

instance safe_constructorParam? {scope : ValueScope} {doc : DocComment} {index : Nat}
    {param : ConstructorParam} [Known c scope] :
    Safe p c (constructorParam? calls scope doc index param) := by
  unfold constructorParam?
  infer_instance

instance safe_constructSignatures {s : SymbolId} [Known c s] :
    Safe p c (constructSignatures calls s) := by
  unfold constructSignatures
  refine .bind fun class_ c₁ _ _ => ?_
  split
  · infer_instance
  · refine .bind fun scope c₂ _ _ => .bind fun typeParams c₃ _ _ => .bind fun this c₄ _ _ => ?_
    refine .andThen (.mapM fun x c₅ _ _ => ?_) fun own c₅ _ _ => ?_
    · exact .andThen (.filterMapM fun y c₆ _ _ => inferInstance) fun params c₆ _ _ => inferInstance
    · split
      · infer_instance
      · refine .bind fun inherited c₆ _ known => ?_
        cases inherited with
        | none => exact safe_pure
        | some inherited =>
            have : Known c₆ (inherited.map fun i => { i with typeParams, result := this }) :=
              known_map known.of_some fun i _ => inferInstance
            exact safe_pure

/-! ### Shapes -/

instance safe_structureOf {s : SymbolId} [Known c s] : Safe p c (structureOf calls s) := by
  unfold structureOf
  have : Safe p c (do
      match ← Check.kind? s with
      | some .interface => interfaceShape calls s
      | some .classDecl => classShape calls s
      | _ => return {}) := by
    refine .bind fun kind c₁ _ _ => ?_
    split <;> infer_instance
  infer_instance

instance safe_intersectMember {members : List Member} {m : Member} [Known c members] [Known c m] :
    Safe p c (intersectMember members m) := by
  unfold intersectMember
  split
  · rename_i i _
    have existing : Known c ((members[i]?).map (·.type)) :=
      known_option_map inferInstance fun _ _ => inferInstance
    exact .bind fun t c₁ _ _ => inferInstance
  · infer_instance

instance safe_intersectShape {merged part : Shape} [Known c merged] [Known c part] :
    Safe p c (intersectShape merged part) := by
  unfold intersectShape
  refine .andThen (.foldlM fun members m c₁ _ _ _ => inferInstance) fun members c₁ _ _ => ?_
  infer_instance

instance safe_globalShape {name : String} : Safe p c (globalShape calls name) := by
  unfold globalShape
  refine .bind fun found c₁ _ known => ?_
  cases found with
  | none => exact safe_pure
  | some s =>
      have := known.of_some
      exact .bind fun t c₂ _ _ => inferInstance

instance safe_instanceShape {s : SymbolId} {args : List TypeId} [Known c s] [Known c args] :
    Safe p c (instanceShape calls s args) := by
  unfold instanceShape
  exact .bind fun shape c₁ _ _ => .bind fun params c₂ _ _ => inferInstance

instance safe_shapeOfData {t : TypeId} [Known c t] : Safe p c (shapeOfData calls t) := by
  have worked : Safe p c (do
      let value ← calls.ask (.evaluate t)
      if value = t then return {} else calls.ask (.shape value)) :=
    .bind fun value c₁ _ _ => inferInstance
  unfold shapeOfData
  refine .bind fun data c₁ _ known => ?_
  split
  · have := known_object_iff.mp known
    infer_instance
  · obtain ⟨_, _⟩ := known_reference_iff.mp known
    infer_instance
  · have := known_intersection_iff.mp known
    exact .foldlM fun merged m c₂ _ _ _ => .bind fun part c₃ _ _ => inferInstance
  · rename_i param
    have := known_parameterData_iff.mp known
    split
    · rename_i constraint found
      have all : Known c₁ param.constraint := inferInstance
      rw [found] at all
      have := all.of_some
      infer_instance
    · infer_instance
  · infer_instance
  · infer_instance
  · infer_instance
  · have := known_tuple_iff.mp known
    exact .bind fun item c₂ _ _ => .bind fun array c₃ _ _ => inferInstance
  · refine .bind fun deferred c₂ _ known => ?_
    cases deferred with
    | none => exact safe_pure
    | some ref =>
        have := known.of_some
        refine .bind fun expanded c₃ _ _ => ?_
        exact .bind fun further c₄ _ _ => inferInstance
  · refine .bind fun isBoolean c₂ _ _ => ?_
    split <;> infer_instance

instance safe_shapeOf {t : TypeId} [Known c t] : Safe p c (shapeOf calls t) := by
  unfold shapeOf
  infer_instance

end ApiDocs.Checker
