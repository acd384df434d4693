import ApiDocs.Proofs.Members.Types

set_option autoImplicit false

/-!
What is read from annotations, declarations and expressions keeps states distinct. A type keeps the
first member of a name, an object literal the last one, and an intersection has one for all of them.
-/

namespace ApiDocs.Checker

open Syntax Check

variable {calls : Calls} [neat : NeatCalls calls]

/-! ### Results of functions -/

instance neat_awaitedAt {promise : Option SymbolId} {n : Nat} {t : TypeId} :
    Neat (awaitedAt promise n t) := by
  induction n generalizing t with
  | zero => exact neat_pure
  | succ n ih =>
      refine .bind fun data => ?_
      split <;> infer_instance

instance neat_awaited {t : TypeId} : Neat (awaited t) := neat_bind

instance neat_returned {isAsync : Bool} {t : TypeId} : Neat (returned isAsync t) := by
  unfold returned
  infer_instance

instance neat_blockReturn {scope : ValueScope} {statements : List Stmt} {isAsync isGenerator : Bool} :
    Neat (blockReturn calls scope statements isAsync isGenerator) := by
  unfold blockReturn
  infer_instance

/-! ### Parameters -/

instance neat_lowerAnnotated {scope : TypeScope} {e : Option TypeExpr} :
    Neat (lowerAnnotated calls scope e) := by
  unfold lowerAnnotated
  split <;> infer_instance

instance neat_inferWidened {scope : ValueScope} {e : Expr} : Neat (inferWidened calls scope e) :=
  neat_bind

section

variable {scope : TypeScope} {values : ValueScope} {doc : DocComment} {index : Nat} {optional : Bool}
  {type : Option TypeExpr}

instance neat_nameParam? {name : String} {fallback : TypeId} :
    Neat (nameParam? calls scope doc name optional type fallback) := by
  unfold nameParam?
  split
  · exact neat_pure
  · split <;> exact .bind fun t => inferInstance

instance neat_objectParam {properties : List PatternProperty} :
    Neat (objectParam calls values index properties optional type) := by
  unfold objectParam
  split <;> exact .bind fun t => inferInstance

instance neat_arrayParam {items : List (Option Pattern)} :
    Neat (arrayParam calls scope index items optional type) := by
  unfold arrayParam
  split <;> exact .bind fun t => inferInstance

instance neat_restParam {of : Pattern} : Neat (restParam calls scope doc index of type) := by
  unfold restParam
  split
  split <;> exact .bind fun t => inferInstance

instance neat_param? {pattern : Pattern} : Neat (param? calls values doc index pattern) := by
  unfold param?
  split
  · infer_instance
  · infer_instance
  · infer_instance
  · infer_instance
  · refine .bind fun fallback => ?_
    split <;> exact .bind fun param => inferInstance

end

instance neat_patternMember? {scope : ValueScope} {property : PatternProperty} :
    Neat (patternMember? calls scope property) := by
  unfold patternMember?
  split <;> infer_instance

instance neat_patternType {scope : ValueScope} {properties : List PatternProperty} :
    Neat (patternType calls scope properties) := by
  refine .andThen (.foldlM (fun shape p distinct => ?_) Shape.distinct_empty) ?_
  · refine .skip fun found => ?_
    cases found with
    | some m => exact .pure (distinct.addMember m)
    | none => exact .pure distinct
  · exact fun shape distinct => neat_object distinct

/-! ### Signatures -/

instance neat_lowerSignature {scope : TypeScope} {doc : DocComment} {s : SignatureExpr} :
    Neat (lowerSignature calls scope doc s) := by
  unfold lowerSignature
  infer_instance

instance neat_functionSignature {scope : ValueScope} {doc : DocComment} {f : FunctionExpr} :
    Neat (functionSignature calls scope doc f) := by
  have param : ∀ (read : ParamsRead) (x : Pattern × Nat), Neat (do
      match ← param? calls read.scope doc x.2 x.1 with
      | some param =>
          let scope ← calls.ask (.bindPattern read.scope x.1 param.type)
          return (⟨scope, read.params ++ [param]⟩ : ParamsRead)
      | none => return read) := by
    intro read x
    refine .bind fun found => ?_
    cases found <;> infer_instance
  unfold functionSignature
  refine .bind fun (typeParams, types) => ?_
  refine @Neat.bind _ _ _ _ (@neat_foldlM _ _ _ _ _ param) fun read => ?_
  split <;> exact .bind fun result => inferInstance

/-! ### Members of types -/

theorem ensures_addIndex {scope : TypeScope} {shape : Shape} {index : IndexExpr}
    (distinct : shape.Distinct) : Ensures (addIndex calls scope shape index) Shape.Distinct := by
  unfold addIndex
  split
  all_goals
    refine .skip fun keyType => .skip fun data => .skip fun type => .pure ?_
    split <;> exact distinct

theorem ensures_addTypeMember {scope : TypeScope} {shape : Shape} {m : TypeMember}
    (distinct : shape.Distinct) : Ensures (addTypeMember calls scope shape m) Shape.Distinct := by
  cases m with
  | property name type optional readonly doc =>
      exact .skip fun t => .pure (distinct.addMember _)
  | method name signature optional doc =>
      dsimp only [addTypeMember]
      split
      · exact .pure distinct
      · exact .skip fun s => .skip fun t => .pure (distinct.addMember _)
  | setter name param doc => exact .skip fun p => .pure (distinct.addMember _)
  | call signature doc => exact .skip fun s => .pure distinct
  | construct signature doc => exact .skip fun s => .pure distinct
  | index index => exact ensures_addIndex distinct

theorem ensures_lowerMembers {scope : TypeScope} {members : List TypeMember} :
    Ensures (lowerMembers calls scope members) Shape.Distinct :=
  .foldlM (fun _ _ distinct => ensures_addTypeMember distinct) Shape.distinct_empty

/-! ### Annotations -/

instance neat_lowerReference {scope : TypeScope} {name : Entity} {args : List TypeExpr} :
    Neat (lowerReference calls scope name args) := by
  have named : ∀ args, Neat (do
      match ← Check.resolveEntity scope name .type with
      | some s => typeReference calls s args
      | none => Check.unresolved name.text args) := by
    intro args
    refine .bind fun found => ?_
    split <;> infer_instance
  refine .bind fun args => ?_
  cases name with
  | ident text =>
      dsimp only
      split
      · exact neat_pure
      · exact named args
  | qualified left name => exact named args

instance neat_lowerMapped {scope : TypeScope} {name : String} {constraint : TypeExpr}
    {template : Option TypeExpr} {optional readonly : Option Modifier} :
    Neat (lowerMapped calls scope name constraint template optional readonly) := by
  have param : Neat (add (.typeParameter { name })) := neat_add trivial
  have mapped : ∀ m, Neat (add (.mapped m)) := fun m => neat_add trivial
  unfold lowerMapped
  infer_instance

instance neat_lower {scope : TypeScope} {e : TypeExpr} : Neat (lower calls scope e) := by
  cases e with
  | members members =>
      exact .andThen ensures_lowerMembers fun shape distinct => neat_object distinct
  | constructor signature => exact .bind fun s => neat_object Shape.distinct_empty
  | query name =>
      refine .bind fun found => ?_
      split <;> infer_instance
  | keyOf of =>
      have made : ∀ t, Neat (add (.keyOf t)) := fun t => neat_add trivial
      unfold lower
      infer_instance
  | indexed object index =>
      have made : ∀ t u, Neat (add (.indexedAccess t u)) := fun t u => neat_add trivial
      unfold lower
      infer_instance
  | _ =>
      unfold lower
      infer_instance

/-! ### Interfaces and classes -/

instance neat_lowerArgs {scope : TypeScope} {args : List TypeExpr} :
    Neat (lowerArgs calls scope args) := neat_mapM

instance neat_resolveExpr {scope : TypeScope} {e : Expr} {space : Space} :
    Neat (resolveExpr scope e space) := by
  unfold resolveExpr
  split <;> infer_instance

instance neat_lowerHeritage {scope : TypeScope} {h : Heritage} : Neat (lowerHeritage calls scope h) := by
  refine .bind fun args => .bind fun found => ?_
  split <;> infer_instance

theorem distinct_mergeDeclaration {shape : Shape} (distinct : shape.Distinct) (own : Shape) :
    (mergeDeclaration shape own).Distinct := by
  unfold mergeDeclaration
  split
  · exact distinct.inherit own
  · exact distinct.inherit own

theorem ensures_interfaceShape {s : SymbolId} : Ensures (interfaceShape calls s) Shape.Distinct := by
  refine .skip fun params => .skip fun this => .skip fun decls => .skip fun decls => ?_
  refine Ensures.bind (.foldlM (fun shape decl distinct => ?_) Shape.distinct_empty)
    fun own distinct => .foldlM (fun shape decl distinct => ?_) distinct
  · exact ensures_lowerMembers.bind fun members _ => .pure (distinct_mergeDeclaration distinct members)
  · refine .foldlM (fun shape h distinct => ?_) distinct
    exact .skip fun base => .skip fun inherited => .pure (distinct.inherit inherited)

instance neat_classOf? {s : SymbolId} : Neat (classOf? s) := neat_bind

instance neat_classScope {s : SymbolId} {file : FileId} {class_ : ClassExpr} :
    Neat (classScope calls s file class_) := by
  unfold classScope
  infer_instance

instance neat_propertyParam? {scope : ValueScope} {doc : DocComment} {pattern : Pattern} :
    Neat (propertyParam? calls scope doc pattern) := by
  unfold propertyParam?
  split <;> infer_instance

instance neat_methodType {signature : Signature} {kind : MethodKind} :
    Neat (methodType signature kind) := by
  cases kind with
  | method => exact neat_callable
  | getter => exact neat_pure
  | setter => exact neat_pure

theorem ensures_addParamMembers {scope : ValueScope} {doc : DocComment} {shape : Shape}
    {params : List ConstructorParam} (distinct : shape.Distinct) :
    Ensures (addParamMembers calls scope doc shape params) Shape.Distinct := by
  refine .foldlM (fun shape x distinct => ?_) distinct
  split
  · refine .skip fun param => ?_
    cases param with
    | some param => exact .pure (distinct.addMember _)
    | none => exact .pure distinct
  · exact .pure distinct

theorem ensures_addClassMember {scope : ValueScope} {shape : Shape} {m : ClassMember}
    (distinct : shape.Distinct) : Ensures (addClassMember calls scope shape m) Shape.Distinct := by
  cases m with
  | property name type value optional readonly doc =>
      dsimp only [addClassMember]
      split <;> exact .skip fun t => .pure (distinct.addMember _)
  | method name function kind optional doc =>
      dsimp only [addClassMember]
      split
      · exact .pure distinct
      · exact .skip fun s => .skip fun t => .pure (distinct.addMember _)
  | constructor params hasBody doc => exact ensures_addParamMembers distinct
  | index index => exact ensures_addIndex distinct

instance neat_baseInstance? {scope : TypeScope} {class_ : ClassExpr} :
    Neat (baseInstance? calls scope class_) := by
  unfold baseInstance?
  split
  · exact neat_pure
  · refine .bind fun args => .bind fun found => ?_
    split
    · exact neat_pure
    · refine .bind fun target => ?_
      split
      · exact neat_pure
      · refine .bind fun kind => ?_
        split
        · infer_instance
        · refine .bind fun value => .bind fun shape => ?_
          split <;> infer_instance

theorem ensures_classShape {s : SymbolId} : Ensures (classShape calls s) Shape.Distinct := by
  refine .skip fun found => ?_
  split
  · exact .pure Shape.distinct_empty
  · refine .skip fun scope => Ensures.bind
      (.foldlM (fun shape m distinct => ensures_addClassMember distinct) Shape.distinct_empty)
      fun own distinct => .skip fun base => ?_
    cases base with
    | none => exact .pure distinct
    | some base => exact .skip fun inherited => .pure (distinct.addMembers inherited.members)

instance neat_inheritedConstructs? {scope : TypeScope} {class_ : ClassExpr} :
    Neat (inheritedConstructs? calls scope class_) := by
  unfold inheritedConstructs?
  split
  · exact neat_pure
  · refine .bind fun args => .bind fun found => ?_
    split
    · exact neat_pure
    · refine .bind fun value => .bind fun shape => ?_
      split <;> infer_instance

instance neat_constructorParam? {scope : ValueScope} {doc : DocComment} {index : Nat}
    {x : ConstructorParam} : Neat (constructorParam? calls scope doc index x) := by
  unfold constructorParam?
  infer_instance

instance neat_constructSignatures {s : SymbolId} : Neat (constructSignatures calls s) := by
  refine .bind fun found => ?_
  split
  · exact neat_pure
  · refine .bind fun scope => .bind fun typeParams => .bind fun this => .bind fun own => ?_
    split
    · exact neat_pure
    · refine .bind fun inherited => ?_
      split <;> infer_instance

theorem ensures_structureOf {s : SymbolId} : Ensures (structureOf calls s) Shape.Distinct := by
  refine ensures_structureOnce (.skip fun kind => ?_)
  split
  · exact ensures_interfaceShape
  · exact ensures_classShape
  · exact .pure Shape.distinct_empty

/-! ### Shapes of types -/

theorem names_modify (members : List Member) (i : Nat) (t : TypeId) :
    (members.modify i fun old => { old with type := t }).map (·.name) = members.map (·.name) := by
  apply List.ext_getElem?
  intro j
  rw [List.getElem?_map, List.getElem?_map, List.getElem?_modify]
  cases members[j]? with
  | none => rfl
  | some m =>
      show some (if i = j then { m with type := t } else m).name = some m.name
      split <;> rfl

/-- Two members of one name become one under that name, in the place of the first. -/
theorem ensures_intersectMember {members : List Member} {m : Member}
    (distinct : (members.map (·.name)).Nodup) :
    Ensures (intersectMember members m) fun merged => (merged.map (·.name)).Nodup := by
  unfold intersectMember
  split
  · rename_i i found
    refine .skip fun t => .pure ?_
    rw [names_modify]
    exact distinct
  · rename_i missing
    refine .pure ?_
    have new : m.name ∉ members.map (·.name) := by
      rw [List.mem_map]
      rintro ⟨other, inside, same⟩
      have differs := List.findIdx?_eq_none_iff.mp missing other inside
      exact absurd same (of_decide_eq_false differs)
    exact Shape.Distinct.append (s := { members }) distinct new

theorem ensures_intersectShape {merged part : Shape} (distinct : merged.Distinct) :
    Ensures (intersectShape merged part) Shape.Distinct :=
  Ensures.bind (.foldlM (fun _ _ distinct => ensures_intersectMember distinct) distinct)
    fun _ distinct => .pure distinct

theorem ensures_globalShape {name : String} : Ensures (globalShape calls name) Shape.Distinct := by
  refine .skip fun found => ?_
  split
  · exact .skip fun t => ensures_shape t
  · exact .pure Shape.distinct_empty

theorem ensures_instanceShape {symbol : SymbolId} {args : List TypeId} :
    Ensures (instanceShape calls symbol args) Shape.Distinct := by
  refine (neat.ask (.structure_ symbol)).bind fun shape distinct => .skip fun params => ?_
  split
  · exact .pure distinct
  · exact ensures_substituteShape distinct

theorem ensures_shapeOfData {t : TypeId} : Ensures (shapeOfData calls t) Shape.Distinct := by
  have worked : Ensures (do
      let value ← calls.ask (.evaluate t)
      if value = t then return {} else calls.ask (.shape value)) Shape.Distinct := by
    refine .skip fun value => ?_
    split
    · exact .pure Shape.distinct_empty
    · exact ensures_shape value
  refine (ensures_data t).bind fun data distinct => ?_
  cases data with
  | object shape => exact .pure distinct
  | reference symbol args => exact ensures_instanceShape
  | intersection members =>
      refine .foldlM (fun merged m distinct => ?_) Shape.distinct_empty
      exact .skip fun part => ensures_intersectShape distinct
  | typeParameter param =>
      dsimp only
      split
      · exact ensures_shape _
      · exact .pure Shape.distinct_empty
  | keyOf of => exact worked
  | indexedAccess object index => exact worked
  | mapped m => exact worked
  | tuple items => exact .skip fun item => .skip fun array => ensures_shape array
  | nominal symbol args =>
      refine .skip fun found => ?_
      split
      · refine .skip fun expanded => .skip fun deferred => ?_
        split
        · exact .pure Shape.distinct_empty
        · exact ensures_shape expanded
      · exact .pure Shape.distinct_empty
  | _ =>
      refine .skip fun isBoolean => ?_
      split
      · exact ensures_globalShape
      · exact .pure Shape.distinct_empty

theorem ensures_shapeOf {t : TypeId} : Ensures (shapeOf calls t) Shape.Distinct :=
  ensures_shapeOnce ensures_shapeOfData

/-! ### Expressions -/

instance neat_identifierType {scope : ValueScope} {name : String} :
    Neat (identifierType calls scope name) := by
  unfold identifierType
  split
  · exact neat_pure
  · split
    · exact neat_pure
    · refine .bind fun found => ?_
      split <;> infer_instance

instance neat_unaryType {scope : ValueScope} {op : UnaryOp} {of : Expr} :
    Neat (unaryType calls scope op of) := by
  cases op with
  | minus =>
      refine .bind fun t => .bind fun data => ?_
      split <;> infer_instance
  | _ => exact neat_pure

instance neat_binaryType {scope : ValueScope} {op : BinaryOp} {left right : Expr} :
    Neat (binaryType calls scope op left right) := by
  cases op <;> (unfold binaryType; infer_instance)

instance neat_arrayType {scope : ValueScope} {items : List (Bool × Expr)} :
    Neat (arrayType calls scope items) := by
  have each : ∀ x : Bool × Expr, Neat (do
      let t ← calls.ask (.infer scope x.2)
      let t ← if x.1 then itemType calls t else pure t
      Check.widen t) := by
    intro x
    refine .bind fun t => ?_
    split <;> exact .bind fun t => inferInstance
  refine @Neat.bind _ _ _ _ (@neat_mapM _ _ _ _ each) fun types => ?_
  split <;> exact .bind fun item => inferInstance

theorem distinct_setMember {shape : Shape} (distinct : shape.Distinct) (m : Member) :
    (setMember shape m).Distinct := by
  have others : Shape.Distinct { shape with members := shape.members.filter (·.name ≠ m.name) } :=
    distinct.sublist (List.filter_sublist.map _)
  apply others.append
  intro listed
  obtain ⟨other, kept, same⟩ := List.mem_map.mp listed
  exact of_decide_eq_true (List.mem_filter.mp kept).2 same

theorem distinct_setMembers {shape : Shape} (distinct : shape.Distinct) (members : List Member) :
    (members.foldl setMember shape).Distinct := by
  induction members generalizing shape with
  | nil => exact distinct
  | cons m rest ih => exact ih (distinct_setMember distinct m)

/-- In an object literal the last member of a name stays. -/
theorem ensures_addProperty {scope : ValueScope} {shape : Shape} {x : ObjectProperty}
    (distinct : shape.Distinct) : Ensures (addProperty calls scope shape x) Shape.Distinct := by
  have set := distinct_setMember distinct
  cases x with
  | spread of =>
      exact .skip fun t => .skip fun spread => .pure (distinct_setMembers distinct spread.members)
  | shorthand name doc => exact .skip fun t => .skip fun t => .pure (set _)
  | keyed name value doc => exact .skip fun t => .pure (set _)
  | assign name value doc => exact .skip fun t => .pure (set _)
  | getter name type body doc =>
      dsimp only [addProperty]
      split <;> exact .skip fun t => .pure (set _)
  | setter name doc =>
      refine .pure ?_
      split
      · exact distinct
      · exact set _
  | method name function doc => exact .skip fun s => .skip fun t => .pure (set _)

instance neat_objectType {scope : ValueScope} {properties : List ObjectProperty} :
    Neat (objectType calls scope properties) :=
  .andThen (.foldlM (fun _ _ distinct => ensures_addProperty distinct) Shape.distinct_empty)
    fun _ distinct => neat_object distinct

instance neat_computedType {scope : ValueScope} {object : TypeId} {index : Expr} :
    Neat (computedType calls scope object index) := by
  unfold computedType
  split
  · infer_instance
  · refine .bind fun data => ?_
    split <;> infer_instance
  · infer_instance

instance neat_inferFrom {params : List TypeId} {n : Nat} {map : Substitution}
    {target source : TypeId} : Neat (inferFrom calls params n map target source) := by
  induction n generalizing map target source with
  | zero => exact neat_pure
  | succ n ih =>
      unfold inferFrom
      split
      · infer_instance
      · refine .bind fun targetData => .bind fun sourceData => ?_
        split
        · infer_instance
        · infer_instance
        · rename_i shape
          have members : ∀ map, Neat (shape.members.foldlM (fun map m => do
              match (← calls.ask (.shape source)).member? m.name with
              | some found => inferFrom calls params n map m.type found.type
              | none => return map) map) := by
            intro map
            refine @neat_foldlM _ _ _ _ _ fun map m => .bind fun found => ?_
            split <;> infer_instance
          refine .bind fun sourceShape => ?_
          dsimp only
          split
          · exact .bind fun first => .bind fun map => members map
          · exact .bind fun map => members map
        · infer_instance

instance neat_typeArgsFor {scope : ValueScope} {s : Signature} {typeArgs : Option (List TypeExpr)}
    {args : List Expr} : Neat (typeArgsFor calls scope s typeArgs args) := by
  unfold typeArgsFor
  split <;> infer_instance

instance neat_applySignature {scope : ValueScope} {s : Signature}
    {typeArgs : Option (List TypeExpr)} {args : List Expr} :
    Neat (applySignature calls scope s typeArgs args) := by
  unfold applySignature
  infer_instance

instance neat_applyFirst {scope : ValueScope} {signatures : List Signature}
    {typeArgs : Option (List TypeExpr)} {args : List Expr} :
    Neat (applyFirst calls scope signatures typeArgs args) := by
  unfold applyFirst
  split <;> infer_instance

instance neat_infer {scope : ValueScope} {e : Expr} : Neat (infer calls scope e) := by
  unfold infer
  split <;> infer_instance

/-! ### Statements -/

instance neat_declaratorType {scope : ValueScope} {isConst : Bool} {d : Declarator} :
    Neat (declaratorType calls scope isConst d) := by
  unfold declaratorType
  dsimp only
  generalize (match d.name with
    | .ident _ _ type => type
    | _ => none) = annotation
  split <;> infer_instance

instance neat_bindItems {t : TypeId} {items : List (Option Pattern)} {scope : ValueScope} :
    Neat (bindItems calls t items scope) := by
  refine .bind fun data => ?_
  refine @neat_foldlM _ _ _ _ _ fun scope x => ?_
  dsimp only
  split
  · exact neat_pure
  · split <;> exact .bind fun part => inferInstance

instance neat_bindProperty {t : TypeId} {scope : ValueScope} {property : PatternProperty} :
    Neat (bindProperty calls t scope property) := by
  unfold bindProperty
  split <;> infer_instance

instance neat_bindPattern {scope : ValueScope} {t : TypeId} {pattern : Pattern} :
    Neat (bindPattern calls scope t pattern) := by
  unfold bindPattern
  split <;> infer_instance

instance neat_returns {sofar : Returns} {s : Stmt} : Neat (returns calls sofar s) := by
  unfold returns
  split
  · split <;> exact .bind fun t => inferInstance
  · infer_instance
  · infer_instance
  · infer_instance
  · infer_instance

/-! ### Values -/

instance neat_variableType {s : SymbolId} : Neat (variableType calls s) := by
  refine .bind fun decls => ?_
  split <;> infer_instance

instance neat_functionSignatures {s : SymbolId} : Neat (functionSignatures calls s) := by
  unfold functionSignatures
  infer_instance

instance neat_namespaceMembers {s : SymbolId} : Neat (namespaceMembers s) := by
  refine .bind fun symbol => ?_
  split
  · exact neat_pure
  · split <;> infer_instance

instance neat_namespaceObject {s : SymbolId} : Neat (namespaceObject calls s) := by
  have start : Shape.Distinct { symbol := some s } := Shape.distinct_empty
  refine .bind fun members => .andThen (.foldlM (fun shape x distinct => ?_) start) ?_
  · dsimp only
    split <;> exact .skip fun type => .pure (distinct.addMember _)
  · exact fun shape distinct => neat_object distinct

instance neat_declaredValue {s : SymbolId} : Neat (declaredValue calls s) := by
  have object : ∀ call construct, Neat (Check.object { call, construct, symbol := some s }) :=
    fun _ _ => neat_object Shape.distinct_empty
  refine .bind fun kind => ?_
  split
  · infer_instance
  · exact .bind fun signatures => object _ _
  · exact .bind fun signatures => object _ _
  · refine .bind fun target => ?_
    split <;> infer_instance
  · infer_instance
  · infer_instance
  · infer_instance
  · infer_instance
  · infer_instance

instance neat_valueType {s : SymbolId} : Neat (valueType calls s) := neat_valueOnce

/-! ### Questions -/

/-- One step of the checker, for every question. -/
theorem ensures_step {α : Type} (q : Query α) : Ensures (step calls q) q.Distinct := by
  cases q with
  | structure_ s => exact ensures_structureOf
  | shape t => exact ensures_shapeOf
  | declaredType s => exact neat_declaredType.ensures
  | typeParams s => exact neat_typeParamsOf.ensures
  | valueType s => exact neat_valueType.ensures
  | evaluate t => exact neat_evaluate.ensures
  | indexedAccess whole object index => exact neat_indexedAccess.ensures
  | lower scope e => exact neat_lower.ensures
  | infer scope e => exact neat_infer.ensures
  | patternType scope properties => exact neat_patternType.ensures
  | bindPattern scope pattern t => exact neat_bindPattern.ensures
  | returns sofar s => exact neat_returns.ensures

theorem distinct_fallback {α : Type} (q : Query α) : q.Distinct q.fallback := by
  cases q with
  | structure_ s => exact Shape.distinct_empty
  | shape t => exact Shape.distinct_empty
  | _ => exact trivial

instance neat_callsWithin {n : Nat} : NeatCalls (callsWithin n) := by
  induction n with
  | zero => exact ⟨fun q => .skip fun _ => .pure (distinct_fallback q)⟩
  | succ n ih => exact ⟨fun q => ensures_step q⟩

instance neat_callsTo {n : Nat} : NeatCalls (callsTo n) := neat_callsWithin

instance neat_calls : NeatCalls Checker.calls := neat_callsTo

theorem distinct_ofProgram (p : Program) : (ofProgram p).Distinct where
  arena := Arena.distinct_initial
  structures s shape found := by simp [ofProgram, Memo.find?] at found
  shapes t shape found := by simp [ofProgram, Memo.find?] at found

end ApiDocs.Checker
