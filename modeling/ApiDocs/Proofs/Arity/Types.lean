import ApiDocs.Proofs.Arity.Rules

set_option autoImplicit false

/-!
The parts of the checker that make types keep states matched, as long as the questions that they ask
do. Instances are made from the type parameters of their symbol, from arguments that were filled up
to as many, from one argument for an array or a promise, and from other instances by replacing each
argument; and so are the names of aliases.
-/

namespace ApiDocs

open Syntax

/-- Questions that keep states matched. -/
class MatchingCalls (b : Bindings) (calls : Calls) : Prop where
  ask : ∀ {α : Type} (q : Query α), Check.Matching b (calls.ask q)

/-- The interfaces that types are made of without being asked for have one type parameter. -/
class Bindings.Standard (b : Bindings) : Prop where
  takes : ∀ name ∈ ["Array", "Promise"], ∀ s, b.global.get? .type name = some s →
    ∀ t, b.Takes s [t]

namespace Checker

open Check

variable {b : Bindings} {calls : Calls} [matching : MatchingCalls b calls]

instance matching_ask {α : Type} {q : Query α} : Matching b (calls.ask q) := matching.ask q

/-! ### Substitution -/

section

variable {f : TypeId → Check TypeId} [on : ∀ t, Matching b (f t)]

instance matching_mapSignature {s : Signature} : Matching b (mapSignature f s) := by
  unfold mapSignature
  infer_instance

instance matching_mapIndex {index : Option IndexInfo} : Matching b (mapIndex f index) := by
  unfold mapIndex
  infer_instance

instance matching_mapShape {s : Shape} : Matching b (mapShape f s) := by
  unfold mapShape
  infer_instance

end

/-- Each argument of an instance is replaced by one type. -/
theorem upholds_mapParts {f : Substitution → TypeId → Check TypeId}
    [on : ∀ map t, Matching b (f map t)] {map : Substitution} {data : TypeData}
    (matched : data.Matched b) : Upholds b (mapParts f map data) (TypeData.Matched b) := by
  cases data with
  | reference s args =>
      exact upholds_mapM_length.bind fun images same =>
        .pure ⟨matched.declared, same.trans matched.length⟩
  | indexedAccess object index => exact .skip fun _ => .skip fun _ => .pure trivial
  | mapped m => exact .skip fun _ => .skip fun _ => .pure trivial
  | intrinsic | booleanLiteral | numberLiteral | stringLiteral | typeParameter => exact .pure trivial
  | union | intersection | tuple | object | keyOf | nominal | unresolved =>
      exact .skip fun _ => .pure trivial

/-- What is put together again is as matched as its parts. -/
theorem matching_rebuild {data : TypeData} {writtenAs : Option AliasRef} (matched : data.Matched b)
    (named : ∀ ref ∈ writtenAs, b.Takes ref.symbol ref.args) :
    Matching b (rebuild calls data writtenAs) := by
  have filled : ∀ normal : TypeData, normal.Matched b → Matching b (do
      let result ← addInfo ⟨normal, writtenAs⟩
      let value ← calls.ask (.evaluate result)
      return if writtenAs.isNone then value else result) := by
    intro normal here
    have : Matching b (addInfo ⟨normal, writtenAs⟩) := matching_addInfo ⟨here, named⟩
    infer_instance
  unfold rebuild
  split
  · infer_instance
  · infer_instance
  · exact matching_reference matched
  · cases data with
    | union members => exact .bind fun t => .andThen (upholds_data t) filled
    | intersection members => exact .bind fun t => .andThen (upholds_data t) filled
    | _ => exact .andThen (.pure matched) filled

instance matching_substituteAt {n : Nat} {map : Substitution} {t : TypeId} :
    Matching b (substituteAt calls n map t) := by
  induction n generalizing map t with
  | zero => exact matching_pure
  | succ n ih =>
      unfold substituteAt
      split
      · exact matching_pure
      · refine .andThen (upholds_info t) fun info matched => ?_
        have renamed : ∀ ref ∈ info.writtenAs, Upholds b (do
            return { ref with args := ← ref.args.mapM (substituteAt calls n map) } : Check AliasRef)
            fun image => b.Takes image.symbol image.args := fun ref same =>
          upholds_mapM_length.bind fun images length => .pure
            ⟨(matched.writtenAs ref same).declared, length.trans (matched.writtenAs ref same).length⟩
        refine .andThen (.mapM_option renamed) fun writtenAs named => ?_
        refine .andThen (upholds_mapParts matched.data) fun data here => ?_
        have : Matching b (rebuild calls data writtenAs) := matching_rebuild here named
        infer_instance

instance matching_substitute {map : Substitution} {t : TypeId} :
    Matching b (substitute calls map t) := by
  unfold substitute
  infer_instance

instance matching_substituteShape {map : Substitution} {s : Shape} :
    Matching b (substituteShape calls map s) := matching_mapShape

instance matching_substituteSignature {map : Substitution} {s : Signature} :
    Matching b (substituteSignature calls map s) := matching_mapSignature

/-! ### Evaluation -/

instance matching_isWaiting {t : TypeId} : Matching b (isWaiting t) := by
  refine .bind fun data => ?_
  split <;> infer_instance

instance matching_numberIndexType {t : TypeId} : Matching b (numberIndexType calls t) := matching_bind

instance matching_stringIndexType {t : TypeId} : Matching b (stringIndexType calls t) := matching_bind

instance matching_memberType {t : TypeId} {name : String} : Matching b (memberType calls t name) := by
  refine .bind fun shape => ?_
  split <;> infer_instance

instance matching_itemType {t : TypeId} : Matching b (itemType calls t) := by
  refine .bind fun data => ?_
  split <;> infer_instance

instance matching_evaluateKeyOf {whole inner : TypeId} :
    Matching b (evaluateKeyOf calls whole inner) := by
  unfold evaluateKeyOf
  infer_instance

instance matching_indexedAccess {whole object index : TypeId} :
    Matching b (indexedAccess calls whole object index) := by
  have selected : ∀ (object : TypeId) (data : TypeData) (text : String), Matching b (match data with
      | .tuple items => pure (((place? text).bind (items[·]?)).getD Arena.anyId)
      | _ => numberIndexType calls object) := by
    intro object data text
    split <;> infer_instance
  unfold indexedAccess
  refine .bind fun object => .bind fun index => .bind fun first => .bind fun second => ?_
  split
  · exact matching_pure
  · refine .bind fun data => ?_
    split
    · infer_instance
    · exact .bind fun data => selected object data _
    · infer_instance
    · infer_instance
    · infer_instance
    · infer_instance

instance matching_templateAt {m : MappedType} {key : TypeId} : Matching b (templateAt calls m key) :=
  matching_bind

instance matching_mapMembers {m : MappedType} {source : Shape} :
    Matching b (mapMembers calls m source) := by
  unfold mapMembers
  infer_instance

instance matching_mapKeys {m : MappedType} {keyName : String} {shape : Shape} {keys : List TypeId} :
    Matching b (mapKeys calls m keyName shape keys) := by
  induction keys generalizing shape with
  | nil => exact matching_pure
  | cons key rest ih =>
      refine .bind fun data => ?_
      split <;> infer_instance

instance matching_keyName {m : MappedType} : Matching b (keyName m) := by
  refine .bind fun data => ?_
  split <;> infer_instance

instance matching_evaluateMapped {whole : TypeId} {m : MappedType} :
    Matching b (evaluateMapped calls whole m) := by
  have mapped : ∀ members : List TypeId, Matching b (do
      match ← mapKeys calls m (← keyName m) {} members with
      | some shape => Check.object shape
      | none => return whole) := by
    intro members
    refine .bind fun name => .bind fun found => ?_
    cases found <;> infer_instance
  unfold evaluateMapped
  refine .bind fun data => ?_
  split
  · infer_instance
  · refine .bind fun keys => .bind fun data => ?_
    split <;> exact .bind mapped

instance matching_evaluate {t : TypeId} : Matching b (evaluate calls t) := by
  have worked : Matching b (evaluateData calls t) := by
    refine .bind fun data => ?_
    split <;> infer_instance
  exact matching_evaluateOnce

/-! ### Type parameters -/

instance matching_describeParam {scope : TypeScope} {x : TypeParam} :
    Matching b (describeParam calls scope x) := by
  unfold describeParam
  infer_instance

/-- There is a new type for each type parameter. -/
theorem upholds_declareTypeParams {scope : TypeScope} {params : List TypeParam}
    {remember : List TypeId → Check Unit}
    (noted : ∀ ids, ids.length = params.length → Matching b (remember ids)) :
    Upholds b (declareTypeParams calls scope params remember) fun ids => ids.length = params.length :=
  upholds_declareParams noted

instance matching_lowerTypeParams {scope : TypeScope} {params : List TypeParam} :
    Matching b (lowerTypeParams calls scope params) :=
  .andThen (upholds_declareTypeParams fun _ _ => matching_pure) fun _ _ => matching_pure

/-- A symbol of the program has the type parameters that it is declared with. -/
theorem upholds_typeParamsOf (s : SymbolId) : Upholds b (typeParamsOf calls s) fun ids =>
    (b.symbol? s).isSome = true → ids.length = b.arity s := by
  refine .state fun c matched => ?_
  split
  · rename_i ids known
    exact .pure (matched.params s ids known)
  · refine (upholds_decls s).bind fun decls same => ?_
    split
    · rename_i none
      have zero : (b.symbol? s).isSome = true → ([] : List TypeId).length = b.arity s := by
        intro declared
        rw [same declared] at none
        rw [Bindings.arity, none]
        rfl
      have : Matching b (rememberParams s []) := matching_rememberParams zero
      exact .skip fun _ => .pure zero
    · rename_i d first
      have written : (b.symbol? s).isSome = true → (writtenTypeParams d.node).length = b.arity s := by
        intro declared
        rw [same declared] at first
        rw [Bindings.arity, first]
      have noted : ∀ ids : List TypeId, ids.length = (writtenTypeParams d.node).length →
          Matching b (rememberParams s ids) := fun ids length =>
        matching_rememberParams fun declared => length.trans (written declared)
      exact .skip fun scope => (upholds_declareTypeParams noted).mono fun ids length declared =>
        length.trans (written declared)

instance matching_typeParamsOf {s : SymbolId} : Matching b (typeParamsOf calls s) :=
  (upholds_typeParamsOf s).matching

/-- A question for type parameters that nests too deep is answered with none. -/
theorem upholds_typeParams (s : SymbolId) : Upholds b (calls.ask (.typeParams s)) fun ids =>
    (b.symbol? s).isSome = true → ids = [] ∨ ids.length = b.arity s := by
  intro p c matched
  have after := ((matching.ask (.typeParams s)).upholds p c matched).1
  exact ⟨after, fun declared =>
    (calls.typeParams_known s p c).imp_right fun known => after.params s _ known declared⟩

/-! ### Arguments -/

instance matching_defaultOf? {param : TypeId} : Matching b (defaultOf? param) := by
  refine .bind fun data => ?_
  split <;> infer_instance

instance matching_fillFrom {params args rest : List TypeId} :
    Matching b (fillFrom calls params args rest) := by
  induction rest generalizing args with
  | nil => exact matching_pure
  | cons param rest ih =>
      refine .bind fun default => ?_
      split <;> exact .bind fun filled => ih

instance matching_fillTypeArgs {params args : List TypeId} :
    Matching b (fillTypeArgs calls params args) := matching_fillFrom

omit matching in
theorem length_fillFrom (params args rest : List TypeId) (p : Program) (c : Checker) :
    ((fillFrom calls params args rest).outcome p c).1.length = args.length + rest.length := by
  induction rest generalizing args c with
  | nil => rfl
  | cons param rest ih =>
      unfold fillFrom
      simp only [outcome_bind]
      split
      all_goals
        rw [outcome_bind, ih, List.length_append, List.length_singleton, List.length_cons]
        omega

omit matching in
/-- However many arguments are given, there is one for each parameter in the end. -/
theorem length_fillTypeArgs (calls : Calls) (params args : List TypeId) (p : Program) (c : Checker) :
    ((fillTypeArgs calls params args).outcome p c).1.length = params.length := by
  rw [fillTypeArgs, length_fillFrom, List.length_drop, List.length_take]
  omega

/-- The arguments of a symbol of the program, filled up to as many as its type parameters. -/
theorem upholds_fillTypeArgs {s : SymbolId} {params args : List TypeId}
    (declared : (b.symbol? s).isSome = true) (length : params.length = b.arity s) :
    Upholds b (fillTypeArgs calls params args) (b.Takes s) :=
  .always fun p c => ⟨declared, (length_fillTypeArgs calls params args p c).trans length⟩

/-! ### Declared types -/

/-- The name of an alias stands with the type parameters of the alias. -/
theorem matching_declaredAlias {s : SymbolId} (declared : (b.symbol? s).isSome = true) :
    Matching b (declaredAlias calls s) := by
  refine .bind fun decls => ?_
  split
  · exact matching_pure
  · refine matching_declareAlias fun reserved => ?_
    refine (upholds_typeParamsOf s).bind fun params length => .skip fun scope => ?_
    refine .skip fun body => (upholds_data body).bind fun data matched => .skip fun isBoolean => ?_
    split
    · refine .pure ⟨matched, fun ref same => ?_⟩
      rw [← Option.some.inj same]
      exact ⟨declared, length declared⟩
    · exact .pure ⟨matched, fun ref same => by cases same⟩

/-- An interface or class stands for its instance with its own type parameters. -/
theorem matching_declaredPlain {s : SymbolId} {kind : Option SymbolKind}
    (old : ∀ k ∈ kind, k ≠ .external → k ≠ .moduleNamespace → (b.symbol? s).isSome = true) :
    Matching b (declaredPlain calls s kind) := by
  have own : (b.symbol? s).isSome = true → Matching b (do reference s (← typeParamsOf calls s)) :=
    fun declared => .andThen (upholds_typeParamsOf s) fun params length =>
      matching_reference ⟨declared, length declared⟩
  unfold declaredPlain
  split
  · exact own (old _ rfl (by decide) (by decide))
  · exact own (old _ rfl (by decide) (by decide))
  · refine .bind fun target => ?_
    split <;> infer_instance
  · exact matching_add trivial

instance matching_declaredType {s : SymbolId} : Matching b (declaredType calls s) := by
  refine .andThen (upholds_kind? s) fun kind old => ?_
  split
  · exact matching_declaredAlias (old _ rfl (by decide) (by decide))
  · have : Matching b (declaredPlain calls s kind) := matching_declaredPlain old
    infer_instance

/-! ### References -/

theorem matching_deferredAliasInstance {s : SymbolId} {args : List TypeId} (takes : b.Takes s args) :
    Matching b (deferredAliasInstance s args) := by
  refine matching_addInfo ⟨trivial, fun ref same => ?_⟩
  rw [← Option.some.inj same]
  exact takes

theorem upholds_deferredAlias? (t : TypeId) :
    Upholds b (deferredAlias? t) fun found => ∀ ref ∈ found, b.Takes ref.symbol ref.args := by
  refine .skip fun data => (upholds_alias? t).bind fun ref takes => ?_
  split
  · refine .state fun c _ => .pure ?_
    split
    · nofun
    · exact takes
  · exact .pure nofun

/-- An instance of an alias is named with the arguments that were filled up. -/
theorem matching_aliasInstance {s : SymbolId} {args : List TypeId}
    (declared : (b.symbol? s).isSome = true) : Matching b (aliasInstance calls s args) := by
  refine .bind fun declaredType => .andThen (upholds_typeParams s) fun params known => ?_
  split
  · exact matching_pure
  · rename_i some
    have length := (known declared).resolve_left fun empty => some (List.isEmpty_iff.mpr empty)
    refine .andThen (upholds_fillTypeArgs declared length) fun args takes => .bind fun c => ?_
    split
    · exact matching_deferredAliasInstance takes
    · refine .bind fun instance_ => .bind fun named => ?_
      split
      · exact matching_pure
      · refine .andThen (upholds_data instance_) fun data matched => ?_
        refine matching_addInfo ⟨matched, fun ref same => ?_⟩
        rw [← Option.some.inj same]
        exact takes

instance matching_typeTarget? {s : SymbolId} : Matching b (typeTarget? s) := by
  unfold typeTarget?
  infer_instance

/-- A reference to an interface or class is its instance with the arguments that were filled up. -/
instance matching_typeReference {s : SymbolId} {args : List TypeId} :
    Matching b (typeReference calls s args) := by
  have made : ∀ target, (b.symbol? target).isSome = true → Matching b (do
      let params ← calls.ask (.typeParams target)
      if params.isEmpty then calls.ask (.declaredType target)
      else Check.reference target (← fillTypeArgs calls params args)) := by
    intro target declared
    refine .andThen (upholds_typeParams target) fun params known => ?_
    split
    · infer_instance
    · rename_i some
      have length := (known declared).resolve_left fun empty => some (List.isEmpty_iff.mpr empty)
      exact .andThen (upholds_fillTypeArgs declared length) fun args takes => matching_reference takes
  have nominal : ∀ target, Matching b (add (.nominal target args)) := fun target => matching_add trivial
  refine .bind fun target => ?_
  split
  · infer_instance
  · refine .andThen (upholds_kind? _) fun kind old => ?_
    split
    · exact matching_aliasInstance (old _ rfl (by decide) (by decide))
    · exact made _ (old _ rfl (by decide) (by decide))
    · exact made _ (old _ rfl (by decide) (by decide))
    all_goals infer_instance

section

variable [standard : b.Standard]

theorem matching_globalGeneric {name : String} (listed : name ∈ ["Array", "Promise"]) {arg : TypeId} :
    Matching b (globalGeneric name arg) := by
  refine .andThen upholds_global? fun found same => ?_
  split
  · exact matching_reference (standard.takes name listed _ same.symm arg)
  · infer_instance

instance matching_arrayOf {item : TypeId} : Matching b (arrayOf item) :=
  matching_globalGeneric (by decide)

instance matching_promiseOf {value : TypeId} : Matching b (promiseOf value) :=
  matching_globalGeneric (by decide)

end

instance matching_globalType {name : String} : Matching b (globalType calls name) := by
  refine .bind fun found => ?_
  split <;> infer_instance

instance matching_elementType? : Matching b (elementType? calls) := by
  have found : Matching b (do
      let symbol ← match ← Check.global? .type "JSX" with
        | some jsx => Check.member jsx .type "Element"
        | none => pure none
      symbol.mapM fun s => calls.ask (.declaredType s)) := by
    refine .bind fun jsx => ?_
    split <;> exact .bind fun symbol => inferInstance
  exact matching_elementOnce

end Checker

end ApiDocs
