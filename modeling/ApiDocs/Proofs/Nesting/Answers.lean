import ApiDocs.Proofs.Nesting.Rules

set_option autoImplicit false

/-!
Answers do not depend on how deep questions may nest, as long as none is given up: each question is
answered from others in the same way at every depth.
-/

namespace ApiDocs

open Syntax

/-- Questions that do what others do, unless they give one up. -/
class CallsTruncate (calls calls' : Calls) : Prop where
  ask : ∀ {α : Type} (q : Query α), Check.Truncates (calls.ask q) (calls'.ask q)

namespace Checker

open Check

instance (priority := low) truncates_self {α : Type} {m : Check α} : Truncates m m := truncates_refl m

variable {calls calls' : Calls} [below : CallsTruncate calls calls']

instance truncates_ask {α : Type} {q : Query α} : Truncates (calls.ask q) (calls'.ask q) :=
  below.ask q

/-! ### Substitution -/

section

variable {f f' : TypeId → Check TypeId} [on : ∀ t, Truncates (f t) (f' t)]

instance truncates_mapSignature {s : Signature} :
    Truncates (mapSignature f s) (mapSignature f' s) := by
  unfold mapSignature
  infer_instance

instance truncates_mapIndex {index : Option IndexInfo} :
    Truncates (mapIndex f index) (mapIndex f' index) := by
  unfold mapIndex
  infer_instance

instance truncates_mapShape {s : Shape} : Truncates (mapShape f s) (mapShape f' s) := by
  unfold mapShape
  infer_instance

end

instance truncates_mapParts {f f' : Substitution → TypeId → Check TypeId}
    [on : ∀ map t, Truncates (f map t) (f' map t)] {map : Substitution} {data : TypeData} :
    Truncates (mapParts f map data) (mapParts f' map data) := by
  unfold mapParts
  split <;> infer_instance

instance truncates_rebuild {data : TypeData} {writtenAs : Option AliasRef} :
    Truncates (rebuild calls data writtenAs) (rebuild calls' data writtenAs) := by
  unfold rebuild
  split
  · infer_instance
  · infer_instance
  · infer_instance
  · dsimp only
    split <;> infer_instance

instance truncates_substituteAt {n : Nat} {map : Substitution} {t : TypeId} :
    Truncates (substituteAt calls n map t) (substituteAt calls' n map t) := by
  induction n generalizing map t with
  | zero => exact truncates_pure
  | succ n ih =>
      unfold substituteAt
      split <;> infer_instance

instance truncates_substitute {map : Substitution} {t : TypeId} :
    Truncates (substitute calls map t) (substitute calls' map t) := by
  unfold substitute
  infer_instance

instance truncates_substituteShape {map : Substitution} {s : Shape} :
    Truncates (substituteShape calls map s) (substituteShape calls' map s) := truncates_mapShape

instance truncates_substituteSignature {map : Substitution} {s : Signature} :
    Truncates (substituteSignature calls map s) (substituteSignature calls' map s) :=
  truncates_mapSignature

/-! ### Evaluation -/

instance truncates_numberIndexType {t : TypeId} :
    Truncates (numberIndexType calls t) (numberIndexType calls' t) := truncates_bind

instance truncates_stringIndexType {t : TypeId} :
    Truncates (stringIndexType calls t) (stringIndexType calls' t) := truncates_bind

instance truncates_memberType {t : TypeId} {name : String} :
    Truncates (memberType calls t name) (memberType calls' t name) := by
  refine .bind fun shape => ?_
  split <;> infer_instance

instance truncates_itemType {t : TypeId} : Truncates (itemType calls t) (itemType calls' t) := by
  refine .bind fun data => ?_
  split <;> infer_instance

instance truncates_evaluateKeyOf {whole inner : TypeId} :
    Truncates (evaluateKeyOf calls whole inner) (evaluateKeyOf calls' whole inner) := by
  unfold evaluateKeyOf
  infer_instance

instance truncates_indexedAccess {whole object index : TypeId} :
    Truncates (indexedAccess calls whole object index) (indexedAccess calls' whole object index) := by
  unfold indexedAccess
  refine .bind fun object => .bind fun index => .bind fun first => .bind fun second => ?_
  split
  · exact truncates_pure
  · refine .bind fun data => ?_
    split
    · infer_instance
    · refine .bind fun data => ?_
      split <;> infer_instance
    · infer_instance
    · infer_instance
    · infer_instance
    · infer_instance

instance truncates_templateAt {m : MappedType} {key : TypeId} :
    Truncates (templateAt calls m key) (templateAt calls' m key) := truncates_bind

instance truncates_mapMembers {m : MappedType} {source : Shape} :
    Truncates (mapMembers calls m source) (mapMembers calls' m source) := by
  unfold mapMembers
  infer_instance

instance truncates_mapKeys {m : MappedType} {keyName : String} {shape : Shape} {keys : List TypeId} :
    Truncates (mapKeys calls m keyName shape keys) (mapKeys calls' m keyName shape keys) := by
  induction keys generalizing shape with
  | nil => exact truncates_pure
  | cons key rest ih =>
      refine .bind fun data => ?_
      split <;> infer_instance

instance truncates_evaluateMapped {whole : TypeId} {m : MappedType} :
    Truncates (evaluateMapped calls whole m) (evaluateMapped calls' whole m) := by
  have mapped : ∀ members : List TypeId, Truncates (do
      match ← mapKeys calls m (← keyName m) {} members with
      | some shape => Check.object shape
      | none => return whole) (do
      match ← mapKeys calls' m (← keyName m) {} members with
      | some shape => Check.object shape
      | none => return whole) := by
    intro members
    refine .bind fun name => .bind fun found => ?_
    cases found <;> infer_instance
  unfold evaluateMapped
  refine .bind fun data => ?_
  split
  · infer_instance
  · refine .bind fun keys => .bind fun data => ?_
    split <;> exact .bind mapped

instance truncates_evaluate {t : TypeId} : Truncates (evaluate calls t) (evaluate calls' t) := by
  have worked : Truncates (evaluateData calls t) (evaluateData calls' t) := by
    refine .bind fun data => ?_
    split <;> infer_instance
  exact truncates_evaluateOnce

/-! ### Declared types and references -/

instance truncates_describeParam {scope : TypeScope} {x : TypeParam} :
    Truncates (describeParam calls scope x) (describeParam calls' scope x) := by
  unfold describeParam
  infer_instance

instance truncates_declareTypeParams {scope : TypeScope} {params : List TypeParam}
    {remember : List TypeId → Check Unit} :
    Truncates (declareTypeParams calls scope params remember)
      (declareTypeParams calls' scope params remember) := truncates_declareParams

instance truncates_lowerTypeParams {scope : TypeScope} {params : List TypeParam} :
    Truncates (lowerTypeParams calls scope params) (lowerTypeParams calls' scope params) :=
  truncates_bind

instance truncates_typeParamsOf {s : SymbolId} :
    Truncates (typeParamsOf calls s) (typeParamsOf calls' s) := by
  refine .after fun c => ?_
  split
  · exact truncates_pure
  · refine .after fun decls => ?_
    split <;> infer_instance

instance truncates_fillFrom {params args rest : List TypeId} :
    Truncates (fillFrom calls params args rest) (fillFrom calls' params args rest) := by
  induction rest generalizing args with
  | nil => exact truncates_pure
  | cons param rest ih =>
      refine .bind fun default => ?_
      split <;> exact .bind fun filled => ih

instance truncates_fillTypeArgs {params args : List TypeId} :
    Truncates (fillTypeArgs calls params args) (fillTypeArgs calls' params args) := truncates_fillFrom

instance truncates_declaredAlias {s : SymbolId} :
    Truncates (declaredAlias calls s) (declaredAlias calls' s) := by
  refine .after fun decls => ?_
  split <;> infer_instance

instance truncates_declaredPlain {s : SymbolId} {kind : Option SymbolKind} :
    Truncates (declaredPlain calls s kind) (declaredPlain calls' s kind) := by
  unfold declaredPlain
  split
  · infer_instance
  · infer_instance
  · refine .after fun target => ?_
    split <;> infer_instance
  · infer_instance

instance truncates_declaredType {s : SymbolId} :
    Truncates (declaredType calls s) (declaredType calls' s) := by
  refine .after fun kind => ?_
  split <;> infer_instance

instance truncates_aliasInstance {s : SymbolId} {args : List TypeId} :
    Truncates (aliasInstance calls s args) (aliasInstance calls' s args) := by
  refine .bind fun declared => .bind fun params => ?_
  split
  · exact truncates_pure
  · refine .bind fun args => .after fun c => ?_
    split
    · infer_instance
    · exact .bind fun instance_ => inferInstance

instance truncates_typeReference {s : SymbolId} {args : List TypeId} :
    Truncates (typeReference calls s args) (typeReference calls' s args) := by
  refine .after fun target => ?_
  split
  · infer_instance
  · refine .after fun kind => ?_
    split <;> infer_instance

instance truncates_globalType {name : String} :
    Truncates (globalType calls name) (globalType calls' name) := by
  refine .after fun found => ?_
  split <;> infer_instance

instance truncates_elementType? : Truncates (elementType? calls) (elementType? calls') := by
  have found : Truncates (do
      let symbol ← match ← Check.global? .type "JSX" with
        | some jsx => Check.member jsx .type "Element"
        | none => pure none
      symbol.mapM fun s => calls.ask (.declaredType s)) (do
      let symbol ← match ← Check.global? .type "JSX" with
        | some jsx => Check.member jsx .type "Element"
        | none => pure none
      symbol.mapM fun s => calls'.ask (.declaredType s)) := by
    refine .after fun jsx => ?_
    split <;> exact .after fun symbol => inferInstance
  exact truncates_elementOnce

/-! ### Parameters and signatures -/

instance truncates_blockReturn {scope : ValueScope} {statements : List Stmt}
    {isAsync isGenerator : Bool} :
    Truncates (blockReturn calls scope statements isAsync isGenerator)
      (blockReturn calls' scope statements isAsync isGenerator) := by
  unfold blockReturn
  infer_instance

instance truncates_lowerAnnotated {scope : TypeScope} {e : Option TypeExpr} :
    Truncates (lowerAnnotated calls scope e) (lowerAnnotated calls' scope e) := by
  unfold lowerAnnotated
  split <;> infer_instance

instance truncates_inferWidened {scope : ValueScope} {e : Expr} :
    Truncates (inferWidened calls scope e) (inferWidened calls' scope e) := truncates_bind

section

variable {scope : TypeScope} {values : ValueScope} {doc : DocComment} {index : Nat} {optional : Bool}
  {type : Option TypeExpr}

instance truncates_nameParam? {name : String} {fallback : TypeId} :
    Truncates (nameParam? calls scope doc name optional type fallback)
      (nameParam? calls' scope doc name optional type fallback) := by
  unfold nameParam?
  split
  · exact truncates_pure
  · split <;> exact .bind fun t => inferInstance

instance truncates_objectParam {properties : List PatternProperty} :
    Truncates (objectParam calls values index properties optional type)
      (objectParam calls' values index properties optional type) := by
  unfold objectParam
  split <;> exact .bind fun t => inferInstance

instance truncates_arrayParam {items : List (Option Pattern)} :
    Truncates (arrayParam calls scope index items optional type)
      (arrayParam calls' scope index items optional type) := by
  unfold arrayParam
  split <;> exact .bind fun t => inferInstance

instance truncates_restParam {of : Pattern} :
    Truncates (restParam calls scope doc index of type)
      (restParam calls' scope doc index of type) := by
  unfold restParam
  split
  split <;> exact .bind fun t => inferInstance

instance truncates_param? {pattern : Pattern} :
    Truncates (param? calls values doc index pattern) (param? calls' values doc index pattern) := by
  unfold param?
  split
  · infer_instance
  · infer_instance
  · infer_instance
  · infer_instance
  · refine .bind fun fallback => ?_
    split <;> exact .bind fun param => inferInstance

end

instance truncates_patternMember? {scope : ValueScope} {property : PatternProperty} :
    Truncates (patternMember? calls scope property) (patternMember? calls' scope property) := by
  unfold patternMember?
  split <;> infer_instance

instance truncates_patternType {scope : ValueScope} {properties : List PatternProperty} :
    Truncates (patternType calls scope properties) (patternType calls' scope properties) := by
  refine @Truncates.bind _ _ _ _ _ _ (@truncates_foldlM _ _ _ _ _ _ fun shape x => ?_) fun shape =>
    inferInstance
  refine .bind fun found => ?_
  split <;> infer_instance

instance truncates_lowerSignature {scope : TypeScope} {doc : DocComment} {s : SignatureExpr} :
    Truncates (lowerSignature calls scope doc s) (lowerSignature calls' scope doc s) := by
  unfold lowerSignature
  infer_instance

instance truncates_functionSignature {scope : ValueScope} {doc : DocComment} {f : FunctionExpr} :
    Truncates (functionSignature calls scope doc f) (functionSignature calls' scope doc f) := by
  unfold functionSignature
  refine .bind fun (typeParams, types) => ?_
  refine @Truncates.bind _ _ _ _ _ _ (@truncates_foldlM _ _ _ _ _ _ fun read x => ?_) fun read => ?_
  · refine .bind fun found => ?_
    cases found <;> infer_instance
  · split <;> exact .bind fun result => inferInstance

/-! ### Annotations -/

instance truncates_addIndex {scope : TypeScope} {shape : Shape} {index : IndexExpr} :
    Truncates (addIndex calls scope shape index) (addIndex calls' scope shape index) := by
  unfold addIndex
  split <;> infer_instance

instance truncates_addTypeMember {scope : TypeScope} {shape : Shape} {m : TypeMember} :
    Truncates (addTypeMember calls scope shape m) (addTypeMember calls' scope shape m) := by
  unfold addTypeMember
  split <;> infer_instance

instance truncates_lowerMembers {scope : TypeScope} {members : List TypeMember} :
    Truncates (lowerMembers calls scope members) (lowerMembers calls' scope members) :=
  truncates_foldlM

instance truncates_lowerReference {scope : TypeScope} {name : Entity} {args : List TypeExpr} :
    Truncates (lowerReference calls scope name args) (lowerReference calls' scope name args) := by
  have named : ∀ args, Truncates (do
      match ← Check.resolveEntity scope name .type with
      | some s => typeReference calls s args
      | none => Check.unresolved name.text args) (do
      match ← Check.resolveEntity scope name .type with
      | some s => typeReference calls' s args
      | none => Check.unresolved name.text args) := by
    intro args
    refine .after fun found => ?_
    split <;> infer_instance
  refine .bind fun args => ?_
  cases name with
  | ident text =>
      dsimp only
      split
      · exact truncates_pure
      · exact named args
  | qualified left name => exact named args

instance truncates_lowerMapped {scope : TypeScope} {name : String} {constraint : TypeExpr}
    {template : Option TypeExpr} {optional readonly : Option Modifier} :
    Truncates (lowerMapped calls scope name constraint template optional readonly)
      (lowerMapped calls' scope name constraint template optional readonly) := by
  unfold lowerMapped
  infer_instance

instance truncates_lower {scope : TypeScope} {e : TypeExpr} :
    Truncates (lower calls scope e) (lower calls' scope e) := by
  cases e with
  | query name =>
      refine .after fun found => ?_
      split <;> infer_instance
  | _ =>
      unfold lower
      infer_instance

/-! ### Interfaces and classes -/

instance truncates_lowerArgs {scope : TypeScope} {args : List TypeExpr} :
    Truncates (lowerArgs calls scope args) (lowerArgs calls' scope args) := truncates_mapM

instance truncates_lowerHeritage {scope : TypeScope} {h : Heritage} :
    Truncates (lowerHeritage calls scope h) (lowerHeritage calls' scope h) := by
  refine .bind fun args => .after fun found => ?_
  split <;> infer_instance

instance truncates_interfaceShape {s : SymbolId} :
    Truncates (interfaceShape calls s) (interfaceShape calls' s) := by
  refine .bind fun params => .bind fun this => .after fun decls => .after fun decls => ?_
  refine @Truncates.bind _ _ _ _ _ _ (@truncates_foldlM _ _ _ _ _ _ fun shape x => ?_) fun own => ?_
  · exact truncates_bind
  · refine @truncates_foldlM _ _ _ _ _ _ fun shape x => ?_
    exact @truncates_foldlM _ _ _ _ _ _ fun shape h => truncates_bind

instance truncates_classScope {s : SymbolId} {file : FileId} {class_ : ClassExpr} :
    Truncates (classScope calls s file class_) (classScope calls' s file class_) := by
  unfold classScope
  infer_instance

instance truncates_propertyParam? {scope : ValueScope} {doc : DocComment} {pattern : Pattern} :
    Truncates (propertyParam? calls scope doc pattern) (propertyParam? calls' scope doc pattern) := by
  unfold propertyParam?
  split <;> infer_instance

instance truncates_addParamMembers {scope : ValueScope} {doc : DocComment} {shape : Shape}
    {params : List ConstructorParam} :
    Truncates (addParamMembers calls scope doc shape params)
      (addParamMembers calls' scope doc shape params) := by
  refine @truncates_foldlM _ _ _ _ _ _ fun shape x => ?_
  split
  · refine .bind fun param => ?_
    split <;> infer_instance
  · exact truncates_pure

instance truncates_addClassMember {scope : ValueScope} {shape : Shape} {m : ClassMember} :
    Truncates (addClassMember calls scope shape m) (addClassMember calls' scope shape m) := by
  unfold addClassMember
  split
  · split <;> exact .bind fun t => inferInstance
  · infer_instance
  · infer_instance
  · infer_instance

instance truncates_baseInstance? {scope : TypeScope} {class_ : ClassExpr} :
    Truncates (baseInstance? calls scope class_) (baseInstance? calls' scope class_) := by
  unfold baseInstance?
  split
  · exact truncates_pure
  · refine .bind fun args => .after fun found => ?_
    split
    · exact truncates_pure
    · refine .after fun target => ?_
      split
      · exact truncates_pure
      · refine .after fun kind => ?_
        split
        · infer_instance
        · refine .bind fun value => .bind fun shape => ?_
          split <;> infer_instance

instance truncates_classShape {s : SymbolId} :
    Truncates (classShape calls s) (classShape calls' s) := by
  refine .after fun found => ?_
  split
  · exact truncates_pure
  · refine .bind fun scope => .bind fun own => .bind fun base => ?_
    split <;> infer_instance

instance truncates_inheritedConstructs? {scope : TypeScope} {class_ : ClassExpr} :
    Truncates (inheritedConstructs? calls scope class_)
      (inheritedConstructs? calls' scope class_) := by
  unfold inheritedConstructs?
  split
  · exact truncates_pure
  · refine .bind fun args => .after fun found => ?_
    split
    · exact truncates_pure
    · refine .bind fun value => .bind fun shape => ?_
      split <;> infer_instance

instance truncates_constructorParam? {scope : ValueScope} {doc : DocComment} {index : Nat}
    {x : ConstructorParam} :
    Truncates (constructorParam? calls scope doc index x)
      (constructorParam? calls' scope doc index x) := by
  unfold constructorParam?
  infer_instance

instance truncates_constructSignatures {s : SymbolId} :
    Truncates (constructSignatures calls s) (constructSignatures calls' s) := by
  refine .after fun found => ?_
  split
  · exact truncates_pure
  · refine .bind fun scope => .bind fun typeParams => .bind fun this => .bind fun own => ?_
    split
    · exact truncates_pure
    · refine .bind fun inherited => ?_
      split <;> infer_instance

instance truncates_structureOf {s : SymbolId} :
    Truncates (structureOf calls s) (structureOf calls' s) := by
  refine @truncates_structureOnce _ _ _ (.after fun kind => ?_)
  split <;> infer_instance

/-! ### Shapes of types -/

instance truncates_globalShape {name : String} :
    Truncates (globalShape calls name) (globalShape calls' name) := by
  refine .after fun found => ?_
  split <;> infer_instance

instance truncates_instanceShape {symbol : SymbolId} {args : List TypeId} :
    Truncates (instanceShape calls symbol args) (instanceShape calls' symbol args) := by
  unfold instanceShape
  infer_instance

instance truncates_shapeOfData {t : TypeId} :
    Truncates (shapeOfData calls t) (shapeOfData calls' t) := by
  refine .after fun data => ?_
  split
  · infer_instance
  · infer_instance
  · infer_instance
  · split <;> infer_instance
  · infer_instance
  · infer_instance
  · infer_instance
  · infer_instance
  · refine .after fun found => ?_
    split <;> infer_instance
  · refine .after fun isBoolean => ?_
    split <;> infer_instance

instance truncates_shapeOf {t : TypeId} : Truncates (shapeOf calls t) (shapeOf calls' t) :=
  truncates_shapeOnce

/-! ### Expressions -/

instance truncates_identifierType {scope : ValueScope} {name : String} :
    Truncates (identifierType calls scope name) (identifierType calls' scope name) := by
  unfold identifierType
  split
  · exact truncates_pure
  · split
    · exact truncates_pure
    · refine .after fun found => ?_
      split <;> infer_instance

instance truncates_unaryType {scope : ValueScope} {op : UnaryOp} {of : Expr} :
    Truncates (unaryType calls scope op of) (unaryType calls' scope op of) := by
  cases op with
  | minus =>
      refine .bind fun t => .bind fun data => ?_
      split <;> infer_instance
  | _ => exact truncates_pure

instance truncates_binaryType {scope : ValueScope} {op : BinaryOp} {left right : Expr} :
    Truncates (binaryType calls scope op left right) (binaryType calls' scope op left right) := by
  cases op <;> (unfold binaryType; infer_instance)

instance truncates_arrayType {scope : ValueScope} {items : List (Bool × Expr)} :
    Truncates (arrayType calls scope items) (arrayType calls' scope items) := by
  refine @Truncates.bind _ _ _ _ _ _ (@truncates_mapM _ _ _ _ _ fun x => ?_) fun types => ?_
  · refine .bind fun t => ?_
    split <;> exact .bind fun t => inferInstance
  · split <;> exact .bind fun item => inferInstance

instance truncates_addProperty {scope : ValueScope} {shape : Shape} {x : ObjectProperty} :
    Truncates (addProperty calls scope shape x) (addProperty calls' scope shape x) := by
  cases x with
  | getter name type body doc =>
      dsimp only [addProperty]
      split <;> exact .bind fun t => inferInstance
  | _ =>
      unfold addProperty
      infer_instance

instance truncates_objectType {scope : ValueScope} {properties : List ObjectProperty} :
    Truncates (objectType calls scope properties) (objectType calls' scope properties) := by
  unfold objectType
  infer_instance

instance truncates_computedType {scope : ValueScope} {object : TypeId} {index : Expr} :
    Truncates (computedType calls scope object index) (computedType calls' scope object index) := by
  unfold computedType
  split
  · infer_instance
  · refine .bind fun data => ?_
    split <;> infer_instance
  · infer_instance

instance truncates_inferFrom {params : List TypeId} {n : Nat} {map : Substitution}
    {target source : TypeId} :
    Truncates (inferFrom calls params n map target source)
      (inferFrom calls' params n map target source) := by
  induction n generalizing map target source with
  | zero => exact truncates_pure
  | succ n ih =>
      unfold inferFrom
      split
      · infer_instance
      · refine .after fun targetData => .after fun sourceData => ?_
        split
        · infer_instance
        · infer_instance
        · rename_i shape
          have members : ∀ map, Truncates (shape.members.foldlM (fun map m => do
              match (← calls.ask (.shape source)).member? m.name with
              | some found => inferFrom calls params n map m.type found.type
              | none => return map) map) (shape.members.foldlM (fun map m => do
              match (← calls'.ask (.shape source)).member? m.name with
              | some found => inferFrom calls' params n map m.type found.type
              | none => return map) map) := by
            intro map
            refine @truncates_foldlM _ _ _ _ _ _ fun map m => .bind fun found => ?_
            split <;> infer_instance
          refine .bind fun sourceShape => ?_
          dsimp only
          split
          · exact .bind fun first => .bind fun map => members map
          · exact .bind fun map => members map
        · infer_instance

instance truncates_typeArgsFor {scope : ValueScope} {s : Signature}
    {typeArgs : Option (List TypeExpr)} {args : List Expr} :
    Truncates (typeArgsFor calls scope s typeArgs args)
      (typeArgsFor calls' scope s typeArgs args) := by
  unfold typeArgsFor
  split <;> infer_instance

instance truncates_applySignature {scope : ValueScope} {s : Signature}
    {typeArgs : Option (List TypeExpr)} {args : List Expr} :
    Truncates (applySignature calls scope s typeArgs args)
      (applySignature calls' scope s typeArgs args) := by
  unfold applySignature
  infer_instance

instance truncates_applyFirst {scope : ValueScope} {signatures : List Signature}
    {typeArgs : Option (List TypeExpr)} {args : List Expr} :
    Truncates (applyFirst calls scope signatures typeArgs args)
      (applyFirst calls' scope signatures typeArgs args) := by
  unfold applyFirst
  split <;> infer_instance

instance truncates_infer {scope : ValueScope} {e : Expr} :
    Truncates (infer calls scope e) (infer calls' scope e) := by
  unfold infer
  split <;> infer_instance

/-! ### Statements -/

instance truncates_declaratorType {scope : ValueScope} {isConst : Bool} {d : Declarator} :
    Truncates (declaratorType calls scope isConst d) (declaratorType calls' scope isConst d) := by
  unfold declaratorType
  dsimp only
  generalize (match d.name with
    | .ident _ _ type => type
    | _ => none) = annotation
  split <;> infer_instance

instance truncates_bindItems {t : TypeId} {items : List (Option Pattern)} {scope : ValueScope} :
    Truncates (bindItems calls t items scope) (bindItems calls' t items scope) := by
  refine .after fun data => @truncates_foldlM _ _ _ _ _ _ fun scope x => ?_
  dsimp only
  split
  · exact truncates_pure
  · split <;> exact .bind fun part => inferInstance

instance truncates_bindProperty {t : TypeId} {scope : ValueScope} {property : PatternProperty} :
    Truncates (bindProperty calls t scope property) (bindProperty calls' t scope property) := by
  unfold bindProperty
  split <;> infer_instance

instance truncates_bindPattern {scope : ValueScope} {t : TypeId} {pattern : Pattern} :
    Truncates (bindPattern calls scope t pattern) (bindPattern calls' scope t pattern) := by
  unfold bindPattern
  split <;> infer_instance

instance truncates_returns {sofar : Returns} {s : Stmt} :
    Truncates (returns calls sofar s) (returns calls' sofar s) := by
  unfold returns
  split
  · split <;> exact .bind fun t => inferInstance
  · infer_instance
  · infer_instance
  · infer_instance
  · infer_instance

/-! ### Values -/

instance truncates_variableType {s : SymbolId} :
    Truncates (variableType calls s) (variableType calls' s) := by
  refine .after fun decls => ?_
  split <;> infer_instance

instance truncates_functionSignatures {s : SymbolId} :
    Truncates (functionSignatures calls s) (functionSignatures calls' s) := by
  unfold functionSignatures
  infer_instance

instance truncates_namespaceObject {s : SymbolId} :
    Truncates (namespaceObject calls s) (namespaceObject calls' s) := by
  refine .after fun members => ?_
  refine @Truncates.bind _ _ _ _ _ _ (@truncates_foldlM _ _ _ _ _ _ fun shape x => ?_) fun shape =>
    inferInstance
  dsimp only
  split <;> infer_instance

instance truncates_declaredValue {s : SymbolId} :
    Truncates (declaredValue calls s) (declaredValue calls' s) := by
  refine .after fun kind => ?_
  split
  · infer_instance
  · infer_instance
  · infer_instance
  · refine .after fun target => ?_
    split <;> infer_instance
  all_goals infer_instance

instance truncates_valueType {s : SymbolId} :
    Truncates (valueType calls s) (valueType calls' s) := truncates_valueOnce

/-! ### Questions -/

/-- One step of the checker, for every question. -/
instance truncates_step {α : Type} {q : Query α} : Truncates (step calls q) (step calls' q) := by
  cases q <;> (unfold step; infer_instance)

/-- With more room below them, questions do the same, unless they gave one up with less. -/
theorem callsTruncate_callsWithin {n m : Nat} (more : n ≤ m) :
    CallsTruncate (callsWithin n) (callsWithin m) := by
  induction n generalizing m with
  | zero =>
      refine ⟨fun q => ⟨fun p c done => ?_⟩⟩
      cases done
  | succ n ih =>
      obtain ⟨k, rfl⟩ : ∃ k, m = k + 1 := ⟨m - 1, by omega⟩
      have below := ih (Nat.le_of_succ_le_succ more)
      exact ⟨fun q => truncates_step⟩

/-- An answer that nothing was given up for is the answer however much deeper questions may nest. -/
theorem ask_of_deeper {α : Type} {n m : Nat} (more : n ≤ m) (q : Query α) {p : Program} {c : Checker}
    (done : (((callsTo n).ask q).outcome p c).2.gaveUp = false) :
    ((callsTo m).ask q).outcome p c = ((callsTo n).ask q).outcome p c :=
  ((callsTruncate_callsWithin (Nat.succ_le_succ more)).ask q).same p c done

end Checker

end ApiDocs
