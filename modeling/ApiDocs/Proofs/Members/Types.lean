import ApiDocs.Proofs.Members.Rules

set_option autoImplicit false

/-!
The parts of the checker keep states distinct, as long as the questions that they ask do: whatever
puts members together gives each a name of its own.
-/

namespace ApiDocs

open Syntax

/-- What is asked for members gives such as have names of their own. -/
def Query.Distinct : {α : Type} → Query α → α → Prop
  | _, .structure_ _, found => found.Distinct
  | _, .shape _, found => found.Distinct
  | _, _, _ => True

/-- Questions that keep states distinct. -/
class NeatCalls (calls : Calls) : Prop where
  ask : ∀ {α : Type} (q : Query α), (calls.ask q).Ensures q.Distinct

namespace Checker

open Check

variable {calls : Calls} [neat : NeatCalls calls]

instance neat_ask {α : Type} {q : Query α} : Neat (calls.ask q) := (neat.ask q).neat

theorem ensures_shape (t : TypeId) : Ensures (calls.ask (.shape t)) Shape.Distinct :=
  neat.ask (.shape t)

/-! ### Substitution -/

section

variable {f : TypeId → Check TypeId} [on : ∀ t, Neat (f t)]

instance neat_mapSignature {s : Signature} : Neat (mapSignature f s) := by
  unfold mapSignature
  infer_instance

instance neat_mapIndex {index : Option IndexInfo} : Neat (mapIndex f index) := by
  unfold mapIndex
  infer_instance

/-- Types are replaced, and names stay. -/
theorem ensures_mapShape {s : Shape} (distinct : s.Distinct) :
    Ensures (mapShape f s) Shape.Distinct := by
  have names : Ensures (s.members.mapM fun m => return { m with type := ← f m.type })
      fun members => members.map (·.name) = s.members.map (·.name) :=
    .mapM_map fun m => .skip fun t => .pure rfl
  refine names.bind fun members same => .skip fun call => .skip fun construct =>
    .skip fun stringIndex => .skip fun numberIndex => .pure ?_
  show (members.map (·.name)).Nodup
  rw [same]
  exact distinct

end

theorem ensures_mapParts {f : Substitution → TypeId → Check TypeId} [on : ∀ map t, Neat (f map t)]
    {map : Substitution} {data : TypeData} (distinct : data.Distinct) :
    Ensures (mapParts f map data) TypeData.Distinct := by
  cases data with
  | object shape => exact (ensures_mapShape distinct).bind fun _ here => .pure here
  | indexedAccess object index => exact .skip fun _ => .skip fun _ => .pure trivial
  | mapped m => exact .skip fun _ => .skip fun _ => .pure trivial
  | intrinsic | booleanLiteral | numberLiteral | stringLiteral | typeParameter => exact .pure trivial
  | union | intersection | tuple | reference | keyOf | nominal | unresolved =>
      exact .skip fun _ => .pure trivial

/-- What is put together again is an object only if it was one. -/
theorem neat_rebuild {data : TypeData} {writtenAs : Option AliasRef} (distinct : data.Distinct) :
    Neat (rebuild calls data writtenAs) := by
  have filled : ∀ normal : TypeData, normal.Distinct → Neat (do
      let result ← addInfo ⟨normal, writtenAs⟩
      let value ← calls.ask (.evaluate result)
      return if writtenAs.isNone then value else result) := by
    intro normal here
    have : Neat (addInfo ⟨normal, writtenAs⟩) := neat_addInfo here
    infer_instance
  unfold rebuild
  split
  · infer_instance
  · infer_instance
  · infer_instance
  · cases data with
    | union members => exact .bind fun t => .andThen (ensures_data t) filled
    | intersection members => exact .bind fun t => .andThen (ensures_data t) filled
    | _ => exact .andThen (.pure distinct) filled

instance neat_substituteAt {n : Nat} {map : Substitution} {t : TypeId} :
    Neat (substituteAt calls n map t) := by
  induction n generalizing map t with
  | zero => exact neat_pure
  | succ n ih =>
      unfold substituteAt
      split
      · exact neat_pure
      · refine .andThen (ensures_info t) fun info distinct => .bind fun writtenAs => ?_
        refine .andThen (ensures_mapParts distinct) fun data here => ?_
        have : Neat (rebuild calls data writtenAs) := neat_rebuild here
        infer_instance

instance neat_substitute {map : Substitution} {t : TypeId} : Neat (substitute calls map t) := by
  unfold substitute
  infer_instance

theorem ensures_substituteShape {map : Substitution} {s : Shape} (distinct : s.Distinct) :
    Ensures (substituteShape calls map s) Shape.Distinct := ensures_mapShape distinct

instance neat_substituteSignature {map : Substitution} {s : Signature} :
    Neat (substituteSignature calls map s) := neat_mapSignature

/-! ### Evaluation -/

instance neat_isWaiting {t : TypeId} : Neat (isWaiting t) := by
  refine .bind fun data => ?_
  split <;> infer_instance

instance neat_numberIndexType {t : TypeId} : Neat (numberIndexType calls t) := neat_bind

instance neat_stringIndexType {t : TypeId} : Neat (stringIndexType calls t) := neat_bind

instance neat_memberType {t : TypeId} {name : String} : Neat (memberType calls t name) := by
  refine .bind fun shape => ?_
  split <;> infer_instance

instance neat_itemType {t : TypeId} : Neat (itemType calls t) := by
  refine .bind fun data => ?_
  split <;> infer_instance

instance neat_evaluateKeyOf {whole inner : TypeId} : Neat (evaluateKeyOf calls whole inner) := by
  unfold evaluateKeyOf
  infer_instance

instance neat_indexedAccess {whole object index : TypeId} :
    Neat (indexedAccess calls whole object index) := by
  have selected : ∀ (object : TypeId) (data : TypeData) (text : String), Neat (match data with
      | .tuple items => pure (((place? text).bind (items[·]?)).getD Arena.anyId)
      | _ => numberIndexType calls object) := by
    intro object data text
    split <;> infer_instance
  unfold indexedAccess
  refine .bind fun object => .bind fun index => .bind fun first => .bind fun second => ?_
  split
  · exact neat_pure
  · refine .bind fun data => ?_
    split
    · infer_instance
    · exact .bind fun data => selected object data _
    · infer_instance
    · infer_instance
    · infer_instance
    · infer_instance

instance neat_templateAt {m : MappedType} {key : TypeId} : Neat (templateAt calls m key) := neat_bind

theorem ensures_mapMembers {m : MappedType} {source : Shape} :
    Ensures (mapMembers calls m source) Shape.Distinct := by
  refine Ensures.bind (.foldlM (fun shape p distinct => ?_) Shape.distinct_empty) ?_
  · exact .skip fun key => .skip fun type => .pure (distinct.addMember _)
  · exact fun shape distinct => .skip fun index => .pure distinct

theorem ensures_mapKeys {m : MappedType} {keyName : String} {shape : Shape} {keys : List TypeId}
    (distinct : shape.Distinct) :
    Ensures (mapKeys calls m keyName shape keys) fun found => ∀ s ∈ found, s.Distinct := by
  induction keys generalizing shape with
  | nil => exact .pure fun s same => Option.some.inj same ▸ distinct
  | cons key rest ih =>
      have named : ∀ name, Ensures (do
          let type ← templateAt calls m key
          mapKeys calls m keyName (shape.addMember ⟨name, type, applyModifier m.optional false,
            applyModifier m.readonly false, ""⟩) rest) fun found => ∀ s ∈ found, s.Distinct :=
        fun name => .skip fun type => ih (distinct.addMember _)
      refine .skip fun data => ?_
      split
      · exact named _
      · exact named _
      · exact .skip fun type => ih distinct
      · exact .skip fun type => ih distinct
      · exact .pure fun s none => by cases none
      · exact ih distinct

instance neat_keyName {m : MappedType} : Neat (keyName m) := by
  refine .bind fun data => ?_
  split <;> infer_instance

instance neat_evaluateMapped {whole : TypeId} {m : MappedType} :
    Neat (evaluateMapped calls whole m) := by
  have mapped : ∀ members : List TypeId, Neat (do
      match ← mapKeys calls m (← keyName m) {} members with
      | some shape => Check.object shape
      | none => return whole) := by
    intro members
    refine .bind fun name => .andThen (ensures_mapKeys Shape.distinct_empty) fun found distinct => ?_
    cases found with
    | some shape => exact neat_object (distinct shape rfl)
    | none => exact neat_pure
  unfold evaluateMapped
  refine .bind fun data => ?_
  split
  · refine .bind fun source => ?_
    split
    · exact neat_pure
    · refine .bind fun waiting => ?_
      split
      · exact neat_pure
      · exact .bind fun shape => .andThen ensures_mapMembers fun shape distinct => neat_object distinct
  · refine .bind fun keys => .bind fun data => ?_
    split <;> exact .bind mapped

instance neat_evaluate {t : TypeId} : Neat (evaluate calls t) := by
  have worked : Neat (evaluateData calls t) := by
    refine .bind fun data => ?_
    split <;> infer_instance
  exact neat_evaluateOnce

/-! ### Type parameters and declared types -/

instance neat_describeParam {scope : TypeScope} {x : TypeParam} :
    Neat (describeParam calls scope x) := by
  unfold describeParam
  infer_instance

instance neat_declareTypeParams {scope : TypeScope} {params : List TypeParam}
    {remember : List TypeId → Check Unit} [∀ ids, Neat (remember ids)] :
    Neat (declareTypeParams calls scope params remember) := neat_declareParams

instance neat_lowerTypeParams {scope : TypeScope} {params : List TypeParam} :
    Neat (lowerTypeParams calls scope params) := by
  unfold lowerTypeParams
  infer_instance

instance neat_typeParamsOf {s : SymbolId} : Neat (typeParamsOf calls s) := by
  refine .bind fun c => ?_
  split
  · exact neat_pure
  · refine .bind fun decls => ?_
    split <;> infer_instance

instance neat_defaultOf? {param : TypeId} : Neat (defaultOf? param) := by
  refine .bind fun data => ?_
  split <;> infer_instance

instance neat_fillFrom {params args rest : List TypeId} : Neat (fillFrom calls params args rest) := by
  induction rest generalizing args with
  | nil => exact neat_pure
  | cons param rest ih =>
      refine .bind fun default => ?_
      split <;> exact .bind fun filled => ih

instance neat_fillTypeArgs {params args : List TypeId} : Neat (fillTypeArgs calls params args) :=
  neat_fillFrom

instance neat_declaredAlias {s : SymbolId} : Neat (declaredAlias calls s) := by
  refine .bind fun decls => ?_
  split
  · exact neat_pure
  · refine neat_declareAlias fun reserved => .skip fun params => .skip fun scope => ?_
    refine .skip fun body => (ensures_data body).bind fun data distinct => .skip fun isBoolean => ?_
    split <;> exact .pure distinct

instance neat_declaredPlain {s : SymbolId} {kind : Option SymbolKind} :
    Neat (declaredPlain calls s kind) := by
  unfold declaredPlain
  split
  · infer_instance
  · infer_instance
  · refine .bind fun target => ?_
    split <;> infer_instance
  · exact neat_add trivial

instance neat_declaredType {s : SymbolId} : Neat (declaredType calls s) := by
  refine .bind fun kind => ?_
  split <;> infer_instance

instance neat_deferredAliasInstance {s : SymbolId} {args : List TypeId} :
    Neat (deferredAliasInstance s args) := neat_addInfo trivial

instance neat_deferredAlias? {t : TypeId} : Neat (deferredAlias? t) := by
  refine .bind fun data => .bind fun ref => ?_
  split <;> infer_instance

/-- An instance of an alias has the members of the body. -/
instance neat_aliasInstance {s : SymbolId} {args : List TypeId} : Neat (aliasInstance calls s args) := by
  have named : ∀ (instance_ : TypeId) (args : List TypeId),
      Neat (do addInfo ⟨← Check.data instance_, some ⟨s, args⟩⟩) := fun instance_ args =>
    .andThen (ensures_data instance_) fun data distinct => neat_addInfo distinct
  unfold aliasInstance
  infer_instance

instance neat_typeTarget? {s : SymbolId} : Neat (typeTarget? s) := by
  unfold typeTarget?
  infer_instance

instance neat_typeReference {s : SymbolId} {args : List TypeId} : Neat (typeReference calls s args) := by
  have nominal : ∀ target, Neat (add (.nominal target args)) := fun target => neat_add trivial
  refine .bind fun target => ?_
  split
  · infer_instance
  · refine .bind fun kind => ?_
    split <;> infer_instance

instance neat_globalGeneric {name : String} {arg : TypeId} : Neat (globalGeneric name arg) := by
  refine .bind fun found => ?_
  split <;> infer_instance

instance neat_arrayOf {item : TypeId} : Neat (arrayOf item) := neat_globalGeneric

instance neat_promiseOf {value : TypeId} : Neat (promiseOf value) := neat_globalGeneric

instance neat_globalType {name : String} : Neat (globalType calls name) := by
  refine .bind fun found => ?_
  split <;> infer_instance

instance neat_elementType? : Neat (elementType? calls) := by
  have found : Neat (do
      let symbol ← match ← Check.global? .type "JSX" with
        | some jsx => Check.member jsx .type "Element"
        | none => pure none
      symbol.mapM fun s => calls.ask (.declaredType s)) := by
    refine .bind fun jsx => ?_
    split <;> exact .bind fun symbol => inferInstance
  exact neat_elementOnce

end Checker

end ApiDocs
