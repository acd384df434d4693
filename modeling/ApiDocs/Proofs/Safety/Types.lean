import ApiDocs.Proofs.Safety.Rules

set_option autoImplicit false

/-!
The parts of the checker that work on types keep it sound, as long as the questions that they ask
do.
-/

namespace ApiDocs

open Syntax

/-- What the answer to a question mentions. -/
@[reducible] def Query.mentions : {α : Type} → Query α → Mentions α
  | _, .declaredType _ => inferInstance
  | _, .typeParams _ => inferInstance
  | _, .valueType _ => inferInstance
  | _, .structure_ _ => inferInstance
  | _, .shape _ => inferInstance
  | _, .evaluate _ => inferInstance
  | _, .indexedAccess _ _ _ => inferInstance
  | _, .lower _ _ => inferInstance
  | _, .infer _ _ => inferInstance
  | _, .patternType _ _ => inferInstance
  | _, .bindPattern _ _ _ => inferInstance
  | _, .returns _ _ => inferInstance

/-- The checker has all that a question is about. -/
def Query.Known (c : Checker) : {α : Type} → Query α → Prop
  | _, .declaredType s => ApiDocs.Known c s
  | _, .typeParams s => ApiDocs.Known c s
  | _, .valueType s => ApiDocs.Known c s
  | _, .structure_ s => ApiDocs.Known c s
  | _, .shape t => ApiDocs.Known c t
  | _, .evaluate t => ApiDocs.Known c t
  | _, .indexedAccess whole object index => ApiDocs.Known c [whole, object, index]
  | _, .lower scope _ => ApiDocs.Known c scope
  | _, .infer scope _ => ApiDocs.Known c scope
  | _, .patternType scope _ => ApiDocs.Known c scope
  | _, .bindPattern scope _ t => ApiDocs.Known c (scope, t)
  | _, .returns sofar _ => ApiDocs.Known c sofar

/-- Questions that can be asked about whatever is known. -/
class SafeCalls (p : Program) (calls : Calls) : Prop where
  ask : ∀ {α : Type} (q : Query α) (c : Checker) [c.Started], q.Known c →
    @Check.Safe α q.mentions p c (calls.ask q)

namespace Checker

open Check

variable {p : Program} {calls : Calls} [safe : SafeCalls p calls] {c : Checker} [c.Started]

section

variable {s : SymbolId} [known : Known c s]

instance : Safe p c (calls.ask (.declaredType s)) := safe.ask (.declaredType s) c known

instance : Safe p c (calls.ask (.typeParams s)) := safe.ask (.typeParams s) c known

instance : Safe p c (calls.ask (.valueType s)) := safe.ask (.valueType s) c known

instance : Safe p c (calls.ask (.structure_ s)) := safe.ask (.structure_ s) c known

end

instance {t : TypeId} [known : Known c t] : Safe p c (calls.ask (.shape t)) :=
  safe.ask (.shape t) c known

instance {t : TypeId} [known : Known c t] : Safe p c (calls.ask (.evaluate t)) :=
  safe.ask (.evaluate t) c known

instance {whole object index : TypeId} [Known c whole] [Known c object] [Known c index] :
    Safe p c (calls.ask (.indexedAccess whole object index)) :=
  safe.ask (.indexedAccess whole object index) c (inferInstanceAs (Known c [whole, object, index]))

instance {scope : TypeScope} {e : TypeExpr} [known : Known c scope] :
    Safe p c (calls.ask (.lower scope e)) := safe.ask (.lower scope e) c known

section

variable {scope : ValueScope} [known : Known c scope]

instance {e : Expr} : Safe p c (calls.ask (.infer scope e)) := safe.ask (.infer scope e) c known

instance {properties : List PatternProperty} :
    Safe p c (calls.ask (.patternType scope properties)) :=
  safe.ask (.patternType scope properties) c known

instance {pattern : Pattern} {t : TypeId} [Known c t] :
    Safe p c (calls.ask (.bindPattern scope pattern t)) :=
  safe.ask (.bindPattern scope pattern t) c (inferInstanceAs (Known c (scope, t)))

end

instance {sofar : Returns} {s : Stmt} [known : Known c sofar] :
    Safe p c (calls.ask (.returns sofar s)) := safe.ask (.returns sofar s) c known

/-! ### Substitution -/

/-- Work that can be done on every type that is known by then. -/
class SafeOn (p : Program) (c : Checker) (f : TypeId → Check TypeId) : Prop where
  safe : ∀ (t : TypeId) (c' : Checker), c.Before c' → Known c' t → Safe p c' (f t)

section

variable {f : TypeId → Check TypeId} [on : SafeOn p c f]

omit [c.Started]

instance {t : TypeId} [known : Known c t] : Safe p c (f t) := on.safe t c (.refl c) known

instance (priority := low) safeOn_later {c' : Checker} [before : c.Before c'] : SafeOn p c' f :=
  ⟨fun t c'' after => on.safe t c'' (before.trans after)⟩

instance safe_mapSignature {s : Signature} [Known c s] : Safe p c (mapSignature f s) := by
  unfold mapSignature
  refine .andThen (.mapM fun param c₁ _ _ => ?_) fun params c₁ _ _ => ?_
  · exact .bind fun _ _ _ _ => inferInstance
  · exact .bind fun _ _ _ _ => inferInstance

instance safe_mapIndex {index : Option IndexInfo} [Known c index] : Safe p c (mapIndex f index) :=
  .mapM_option fun _ _ => .bind fun _ _ _ _ => inferInstance

instance safe_mapShape {s : Shape} [Known c s] : Safe p c (mapShape f s) := by
  unfold mapShape
  refine .andThen (.mapM fun m c₁ _ _ => ?_) fun members c₁ _ _ => ?_
  · exact .bind fun _ _ _ _ => inferInstance
  refine .andThen (.mapM fun signature c₂ _ _ => inferInstance) fun call c₂ _ _ => ?_
  refine .andThen (.mapM fun signature c₃ _ _ => inferInstance) fun construct c₃ _ _ => ?_
  exact .bind fun stringIndex c₄ _ _ => .bind fun numberIndex c₅ _ _ => inferInstance

instance safe_mapTypes {types : List TypeId} [Known c types] : Safe p c (types.mapM f) :=
  .mapM fun _ _ _ _ => inferInstance

end

section

variable {f : Substitution → TypeId → Check TypeId} {map : Substitution}

omit [c.Started] in
theorem safe_mapParts {data : TypeData} [known : Known c data]
    (on : ∀ map' : Substitution, (∀ entry ∈ map', entry ∈ map) → SafeOn p c (f map')) :
    Safe p c (mapParts f map data) := by
  have whole := on map fun _ h => h
  unfold mapParts
  split
  · rename_i members
    have := known_union_iff.mp known
    exact .bind fun _ _ _ _ => inferInstance
  · have := known_intersection_iff.mp known
    exact .bind fun _ _ _ _ => inferInstance
  · have := known_tuple_iff.mp known
    exact .bind fun _ _ _ _ => inferInstance
  · obtain ⟨_, _⟩ := known_reference_iff.mp known
    exact .bind fun _ _ _ _ => inferInstance
  · obtain ⟨_, _⟩ := known_nominal_iff.mp known
    exact .bind fun _ _ _ _ => inferInstance
  · have := known_unresolved_iff.mp known
    exact .bind fun _ _ _ _ => inferInstance
  · have := known_object_iff.mp known
    exact .bind fun _ _ _ _ => inferInstance
  · have := known_keyOf_iff.mp known
    exact .bind fun _ _ _ _ => inferInstance
  · obtain ⟨_, _⟩ := known_indexedAccess_iff.mp known
    exact .bind fun _ _ _ _ => .bind fun _ _ _ _ => inferInstance
  · rename_i m
    have := known_mapped_iff.mp known
    have without := on (map.filter (·.1 ≠ m.param)) fun _ inside => (List.mem_filter.mp inside).1
    exact .bind fun _ _ _ _ => .bind fun _ _ _ _ => inferInstance
  · infer_instance

end

instance safe_rebuild {data : TypeData} {writtenAs : Option AliasRef} [known : Known c data]
    [Known c writtenAs] : Safe p c (rebuild calls data writtenAs) := by
  have filled : ∀ (c' : Checker) [c.Before c'] [c'.Started] (normal : TypeData) [Known c' normal],
      Safe p c' (do
        let result ← addInfo ⟨normal, writtenAs⟩
        let value ← calls.ask (.evaluate result)
        return if writtenAs.isNone then value else result) := by
    intro c' _ _ normal _
    exact .bind fun _ _ _ _ => .bind fun _ _ _ _ => inferInstance
  have start : c.Before c := .refl c
  unfold rebuild
  split
  · have := known_union_iff.mp known
    infer_instance
  · have := known_intersection_iff.mp known
    infer_instance
  · obtain ⟨_, _⟩ := known_reference_iff.mp known
    infer_instance
  · cases data with
    | union members =>
        have := known_union_iff.mp known
        refine .bind fun t c₁ first _ => .bind fun normal c₂ second _ => ?_
        have : c.Before c₂ := first.trans second
        exact filled c₂ normal
    | intersection members =>
        have := known_intersection_iff.mp known
        refine .bind fun t c₁ first _ => .bind fun normal c₂ second _ => ?_
        have : c.Before c₂ := first.trans second
        exact filled c₂ normal
    | _ => exact .bind fun normal c₁ _ _ => filled c₁ normal

instance safe_substituteAt {n : Nat} {map : Substitution} [known : Known c map] :
    SafeOn p c (substituteAt calls n map) := by
  refine ⟨fun t c' before here => ?_⟩
  induction n generalizing c c' map t with
  | zero =>
      unfold substituteAt
      infer_instance
  | succ n ih =>
      have deeper : ∀ (c' : Checker), c.Before c' → ∀ map' : Substitution,
          (∀ entry ∈ map', entry ∈ map) → SafeOn p c' (substituteAt calls n map') := by
        intro c' first map' subset
        have part : Known c map' := known.sublist subset
        exact ⟨fun t c'' second here => ih t c'' (first.trans second) here⟩
      have own := deeper c' before map fun _ h => h
      unfold substituteAt
      split
      · rename_i image found
        have listed : Known c' (map.lookup t) := inferInstance
        rw [found] at listed
        have := listed.of_some
        infer_instance
      · refine .bind fun info c₁ first _ => ?_
        refine .andThen (.mapM_option fun a _ => ?_) fun writtenAs c₂ second _ => ?_
        · exact .bind fun _ _ _ _ => inferInstance
        have parts : Safe p c₂ (mapParts (substituteAt calls n) map info.data) :=
          safe_mapParts (deeper c₂ ((before.trans first).trans second))
        exact .bind fun data c₃ _ _ => inferInstance

instance safe_substitute {map : Substitution} {t : TypeId} [Known c map] [Known c t] :
    Safe p c (substitute calls map t) := by
  unfold substitute
  infer_instance

instance safe_substituteShape {map : Substitution} {s : Shape} [Known c map] [Known c s] :
    Safe p c (substituteShape calls map s) := by
  unfold substituteShape
  infer_instance

instance safe_substituteSignature {map : Substitution} {s : Signature} [Known c map] [Known c s] :
    Safe p c (substituteSignature calls map s) := by
  unfold substituteSignature
  infer_instance

/-! ### Working types out -/

omit [c.Started] in
instance safe_isWaiting {t : TypeId} [Known c t] : Safe p c (isWaiting t) := by
  unfold isWaiting
  refine .bind fun data c₁ _ _ => ?_
  cases data <;> exact safe_pure

instance safe_numberIndexType {object : TypeId} [Known c object] :
    Safe p c (numberIndexType calls object) := by
  unfold numberIndexType
  exact .bind fun shape c₁ _ _ => inferInstance

instance safe_stringIndexType {object : TypeId} [Known c object] :
    Safe p c (stringIndexType calls object) := by
  unfold stringIndexType
  exact .bind fun shape c₁ _ _ => inferInstance

instance safe_memberType {object : TypeId} {name : String} [Known c object] :
    Safe p c (memberType calls object name) := by
  unfold memberType
  refine .bind fun shape c₁ _ _ => ?_
  split
  · rename_i m found
    have member : Known c₁ (shape.member? name) := inferInstance
    rw [found] at member
    have := member.of_some
    infer_instance
  · infer_instance

instance safe_itemType {t : TypeId} [Known c t] : Safe p c (itemType calls t) := by
  unfold itemType
  refine .bind fun data c₁ _ known => ?_
  cases data with
  | tuple items =>
      have := known_tuple_iff.mp known
      exact safe_union
  | _ => exact safe_numberIndexType

instance safe_evaluateKeyOf {whole inner : TypeId} [Known c whole] [Known c inner] :
    Safe p c (evaluateKeyOf calls whole inner) := by
  unfold evaluateKeyOf
  refine .bind fun inner c₁ _ _ => .bind fun waiting c₂ _ _ => ?_
  have base : Known c₂ ([Intrinsic.string, .number, .symbol].map Arena.intrinsicId) :=
    known_list_iff.mpr fun t inside => by
      obtain ⟨i, _, rfl⟩ := List.mem_map.mp inside
      infer_instance
  have members : Safe p c₂ (do
      let shape ← calls.ask (.shape inner)
      let names ← shape.members.mapM fun m => stringLiteral m.name
      let keys (index : Option IndexInfo) (i : Intrinsic) : List TypeId :=
        if index.isSome then [Arena.intrinsicId i] else []
      union (names ++ keys shape.stringIndex .string ++ keys shape.numberIndex .number)) := by
    refine .bind fun shape c₃ _ _ => .andThen (.mapM fun m c₄ _ _ => ?_) fun names c₄ _ _ => ?_
    · infer_instance
    · infer_instance
  infer_instance

instance safe_indexedAccess {whole object index : TypeId} [Known c whole] [Known c object]
    [Known c index] : Safe p c (indexedAccess calls whole object index) := by
  unfold indexedAccess
  refine .bind fun object c₁ _ _ => .bind fun index c₂ _ _ => ?_
  refine .bind fun waiting c₃ _ _ => .bind fun other c₄ _ _ => ?_
  have selected : Safe p c₄ (do
      match ← data index with
      | .stringLiteral name => memberType calls object name
      | .numberLiteral text =>
          match ← data object with
          | .tuple items => return ((place? text).bind (items[·]?)).getD Arena.anyId
          | _ => numberIndexType calls object
      | .intrinsic .number => itemType calls object
      | .intrinsic .string => stringIndexType calls object
      | .union members =>
          union (← members.mapM fun m => calls.ask (.indexedAccess whole object m))
      | _ => return Arena.anyId) := by
    refine .bind fun key c₅ _ known => ?_
    split
    · infer_instance
    · refine .bind fun data c₆ _ tuple => ?_
      split
      · have := known_tuple_iff.mp tuple
        infer_instance
      · infer_instance
    · infer_instance
    · infer_instance
    · have := known_union_iff.mp known
      exact .andThen (.mapM fun m c₆ _ _ => inferInstance) fun parts c₆ _ _ => inferInstance
    · infer_instance
  infer_instance

instance safe_templateAt {m : MappedType} {key : TypeId} [Known c m] [Known c key] :
    Safe p c (templateAt calls m key) := by
  unfold templateAt
  exact .bind fun _ _ _ _ => inferInstance

instance safe_mapMembers {m : MappedType} {source : Shape} [Known c m] [Known c source] :
    Safe p c (mapMembers calls m source) := by
  unfold mapMembers
  refine .andThen (.foldlM fun shape member c₁ _ _ _ => ?_) fun shape c₁ _ _ => ?_
  · exact .bind fun key c₂ _ _ => .bind fun type c₃ _ _ => inferInstance
  · refine .andThen (.mapM_option fun i _ => ?_) fun stringIndex c₂ _ _ => inferInstance
    exact .bind fun type c₂ _ _ => inferInstance

instance safe_mapKeys {m : MappedType} {keyName : String} {shape : Shape} {keys : List TypeId}
    [Known c m] [Known c shape] [all : Known c keys] :
    Safe p c (mapKeys calls m keyName shape keys) := by
  induction keys generalizing c shape with
  | nil =>
      unfold mapKeys
      infer_instance
  | cons key rest ih =>
      have first : Known c key := all.mem List.mem_cons_self
      have others : Known c rest := all.sublist fun _ => List.mem_cons_of_mem _
      unfold mapKeys
      refine .bind fun data c₁ _ known => ?_
      split
      · exact .bind fun type c₂ _ _ => ih
      · exact .bind fun type c₂ _ _ => ih
      · exact .bind fun type c₂ _ _ => ih
      · exact .bind fun type c₂ _ _ => ih
      · infer_instance
      · exact ih

instance safe_keyName {m : MappedType} [Known c m] : Safe p c (keyName m) := by
  unfold keyName
  refine .bind fun data c₁ _ _ => ?_
  cases data <;> exact safe_pure

instance safe_evaluateMapped {whole : TypeId} {m : MappedType} [Known c whole] [Known c m] :
    Safe p c (evaluateMapped calls whole m) := by
  have mapped : ∀ (members : List TypeId) (c' : Checker) [c.Before c'] [c'.Started]
      [Known c' members], Safe p c' (do
        match ← mapKeys calls m (← keyName m) {} members with
        | some shape => Check.object shape
        | none => return whole) := by
    intro members c' _ _ _
    refine .bind fun name c₁ _ _ => .bind fun found c₂ _ known => ?_
    cases found with
    | some shape =>
        have := known.of_some
        exact safe_object
    | none => exact safe_pure
  unfold evaluateMapped
  refine .bind fun data c₁ first known => ?_
  split
  · have := known_keyOf_iff.mp known
    refine .bind fun source c₂ _ _ => ?_
    have ready : Safe p c₂ (do
        let shape ← mapMembers calls m (← calls.ask (.shape source))
        Check.object shape) :=
      .bind fun shape c₃ _ _ => .bind fun members c₄ _ _ => inferInstance
    have waiting : Safe p c₂ (do
        if ← isWaiting source then return whole
        else
          let shape ← mapMembers calls m (← calls.ask (.shape source))
          Check.object shape) := .bind fun isWaiting c₃ _ _ => inferInstance
    infer_instance
  · refine .bind fun keys c₂ second _ => .bind fun data c₃ third known => ?_
    have : c.Before c₃ := (first.trans second).trans third
    cases data with
    | union members =>
        have := known_union_iff.mp known
        exact mapped members c₃
    | _ => exact mapped [keys] c₃

instance safe_evaluate {t : TypeId} [Known c t] : Safe p c (evaluate calls t) := by
  unfold evaluate
  have : Safe p c (evaluateData calls t) := by
    refine .bind fun data c₁ _ known => ?_
    cases data with
    | keyOf inner =>
        have := known_keyOf_iff.mp known
        exact safe_evaluateKeyOf
    | indexedAccess object index =>
        obtain ⟨_, _⟩ := known_indexedAccess_iff.mp known
        exact safe_indexedAccess
    | mapped m =>
        have := known_mapped_iff.mp known
        exact safe_evaluateMapped
    | _ => exact safe_pure
  infer_instance

/-! ### Type parameters -/

instance safe_describeParam {scope : TypeScope} {param : TypeParam} [Known c scope] :
    Safe p c (describeParam calls scope param) := by
  unfold describeParam
  refine .andThen (.mapM_option fun e _ => inferInstance) fun constraint c₁ _ _ => ?_
  exact .andThen (.mapM_option fun e _ => inferInstance) fun default c₂ _ _ => inferInstance

theorem safe_declareTypeParams {scope : TypeScope} {params : List TypeParam}
    {remember : List TypeId → Check Unit} [Known c scope]
    (noted : ∀ (ids : List TypeId) (c' : Checker) [c.Before c'] [Known c' ids],
      Safe p c' (remember ids)) : Safe p c (declareTypeParams calls scope params remember) :=
  safe_declareParams noted fun _ _ _ _ _ => inferInstance

instance safe_lowerTypeParams {scope : TypeScope} {params : List TypeParam} [Known c scope] :
    Safe p c (lowerTypeParams calls scope params) := by
  unfold lowerTypeParams
  refine .andThen (safe_declareTypeParams fun ids c' _ _ => inferInstance) fun ids c₁ _ _ => ?_
  infer_instance

instance safe_typeParamsOf {s : SymbolId} : Safe p c (typeParamsOf calls s) := by
  unfold typeParamsOf
  refine .state fun c₁ _ sound => ?_
  split
  · rename_i ids found
    have := sound.holds.typeParams s ids found
    infer_instance
  · refine .bind fun decls c₂ _ _ => ?_
    split
    · exact .bind fun _ _ _ _ => inferInstance
    · exact .bind fun scope c₃ _ _ => safe_declareTypeParams fun ids c₄ _ _ => inferInstance

omit [c.Started] in
instance safe_defaultOf? {param : TypeId} [Known c param] : Safe p c (defaultOf? param) := by
  unfold defaultOf?
  refine .bind fun data c₁ _ known => ?_
  cases data with
  | typeParameter param =>
      have := known_parameterData_iff.mp known
      exact safe_pure
  | _ => exact safe_pure

instance safe_fillFrom {params args rest : List TypeId} [Known c params] [Known c args]
    [all : Known c rest] : Safe p c (fillFrom calls params args rest) := by
  induction rest generalizing c args with
  | nil =>
      unfold fillFrom
      infer_instance
  | cons param rest ih =>
      have first : Known c param := all.mem List.mem_cons_self
      have others : Known c rest := all.sublist fun _ => List.mem_cons_of_mem _
      unfold fillFrom
      refine .bind fun default c₁ _ known => ?_
      cases default with
      | none => exact .bind fun filled c₂ _ _ => ih
      | some default =>
          have := known.of_some
          exact .bind fun filled c₂ _ _ => ih

instance safe_fillTypeArgs {params args : List TypeId} [Known c params] [Known c args] :
    Safe p c (fillTypeArgs calls params args) := by
  unfold fillTypeArgs
  infer_instance

/-! ### Declared types -/

instance safe_declaredAlias {s : SymbolId} [Known c s] : Safe p c (declaredAlias calls s) := by
  unfold declaredAlias
  refine .bind fun decls c₁ _ _ => ?_
  split
  · infer_instance
  · refine safe_declareAlias fun reserved c₂ _ _ => ?_
    refine .bind fun params c₃ _ _ => .bind fun scope c₄ _ _ => .bind fun body c₅ _ _ => ?_
    exact .bind fun data c₆ _ _ => .bind fun isBoolean c₇ _ _ => inferInstance

instance safe_declaredPlain {s : SymbolId} {kind : Option SymbolKind} [Known c s] :
    Safe p c (declaredPlain calls s kind) := by
  have named : ∀ (c' : Checker) [c'.Started], Safe p c' (do unresolved (← nameOf s) []) :=
    fun c' _ => .bind fun name c₁ _ _ => inferInstance
  unfold declaredPlain
  split
  · exact .bind fun params c₁ _ _ => inferInstance
  · exact .bind fun params c₁ _ _ => inferInstance
  · refine .bind fun target c₁ _ known => ?_
    have missing := named c₁
    cases target with
    | none => exact missing
    | some target =>
        have := known.of_some
        exact safe_ite
  · infer_instance

instance safe_declaredType {s : SymbolId} [Known c s] : Safe p c (declaredType calls s) := by
  unfold declaredType
  refine .bind fun kind c₁ _ _ => ?_
  split <;> infer_instance

/-! ### References -/

omit [c.Started] in
instance safe_deferredAliasInstance {s : SymbolId} {args : List TypeId} [Known c s] [Known c args] :
    Safe p c (deferredAliasInstance s args) := by
  unfold deferredAliasInstance
  infer_instance

omit [c.Started] in
instance safe_deferredAlias? {t : TypeId} [Known c t] : Safe p c (deferredAlias? t) := by
  unfold deferredAlias?
  refine .bind fun data c₁ _ _ => .bind fun written c₂ _ known => ?_
  split
  · have := known.of_some
    exact .state fun c₃ _ _ => inferInstance
  · infer_instance

instance safe_aliasInstance {s : SymbolId} {args : List TypeId} [Known c s] [Known c args] :
    Safe p c (aliasInstance calls s args) := by
  unfold aliasInstance
  refine .bind fun declared c₁ _ _ => .bind fun params c₂ _ _ => ?_
  have filled : Safe p c₂ (do
      let args ← fillTypeArgs calls params args
      if (← Check.state).declaring.contains s then deferredAliasInstance s args
      else
        let instance_ ← substitute calls (params.zip args) declared
        if (← Check.alias? declared).isNone then return instance_
        else Check.addInfo ⟨← Check.data instance_, some ⟨s, args⟩⟩) := by
    refine .bind fun args c₃ _ _ => .state fun c₄ _ _ => ?_
    have put : Safe p c₄ (do
        let instance_ ← substitute calls (params.zip args) declared
        if (← Check.alias? declared).isNone then return instance_
        else Check.addInfo ⟨← Check.data instance_, some ⟨s, args⟩⟩) := by
      refine .bind fun instance_ c₅ _ _ => .bind fun written c₆ _ _ => ?_
      have shown : Safe p c₆ (do Check.addInfo ⟨← Check.data instance_, some ⟨s, args⟩⟩) :=
        .bind fun data c₇ _ _ => inferInstance
      infer_instance
    infer_instance
  infer_instance

omit [c.Started] in
instance safe_typeTarget? {s : SymbolId} [Known c s] : Safe p c (typeTarget? s) := by
  unfold typeTarget?
  exact .bind fun kind c₁ _ _ => inferInstance

instance safe_typeReference {s : SymbolId} {args : List TypeId} [Known c s] [Known c args] :
    Safe p c (typeReference calls s args) := by
  unfold typeReference
  refine .bind fun target c₁ _ known => ?_
  cases target with
  | none => exact .bind fun name c₂ _ _ => inferInstance
  | some target =>
      have := known.of_some
      refine .bind fun kind c₂ _ _ => ?_
      have named : Safe p c₂ (do unresolved (← nameOf target) args) :=
        .bind fun name c₃ _ _ => inferInstance
      have instance_ : Safe p c₂ (do
          let params ← calls.ask (.typeParams target)
          if params.isEmpty then calls.ask (.declaredType target)
          else Check.reference target (← fillTypeArgs calls params args)) := by
        refine .bind fun params c₃ _ _ => ?_
        have whole : Safe p c₃ (do Check.reference target (← fillTypeArgs calls params args)) :=
          .bind fun args c₄ _ _ => inferInstance
        infer_instance
      split <;> infer_instance

instance safe_globalGeneric {name : String} {arg : TypeId} [Known c arg] :
    Safe p c (globalGeneric name arg) := by
  unfold globalGeneric
  refine .bind fun found c₁ _ known => ?_
  cases found with
  | none => exact safe_unresolved
  | some s =>
      have := known.of_some
      exact safe_reference

instance safe_arrayOf {item : TypeId} [Known c item] : Safe p c (arrayOf item) := safe_globalGeneric

instance safe_promiseOf {value : TypeId} [Known c value] : Safe p c (promiseOf value) :=
  safe_globalGeneric

instance safe_globalType {name : String} : Safe p c (globalType calls name) := by
  unfold globalType
  refine .bind fun found c₁ _ known => ?_
  cases found with
  | none => exact safe_pure
  | some s =>
      have := known.of_some
      exact inferInstanceAs (Safe p c₁ (calls.ask (.declaredType s)))

instance safe_elementType? : Safe p c (elementType? calls) := by
  unfold elementType?
  have : Safe p c (do
      let symbol ← match ← Check.global? .type "JSX" with
        | some jsx => Check.member jsx .type "Element"
        | none => pure none
      symbol.mapM fun s => calls.ask (.declaredType s)) := by
    refine .bind fun jsx c₁ _ known => ?_
    cases jsx with
    | none => exact .bind fun symbol c₂ _ _ => .mapM_option fun s _ => inferInstance
    | some jsx => exact .bind fun symbol c₂ _ _ => .mapM_option fun s _ => inferInstance
  infer_instance

end Checker

end ApiDocs
