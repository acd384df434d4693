import ApiDocs.Proofs.Alias.Properties
import ApiDocs.Proofs.Mapped.Members

set_option autoImplicit false

/-!
How a generic alias for an object type of properties is read: its type parameters are made first, and
then the properties are read for them. What was read stays as it is.
-/

namespace ApiDocs

open Syntax

/-- A type that is neither a union nor a keyword can be replaced by another one. -/
theorem Arena.Alike.of_set {a : Arena} {place : TypeId} {info : TypeInfo}
    (before : (∀ ids, a.data place ≠ .union ids) ∧ a.intrinsic? place = none)
    (after : (∀ ids, info.data ≠ .union ids) ∧ ∀ i, info.data ≠ .intrinsic i)
    (inside : place.index < a.size) : a.Alike (a.set place info) := by
  have data : (a.set place info).data place = info.data :=
    congrArg TypeInfo.data (Check.info_set_self info inside)
  have others {u : TypeId} (other : u ≠ place) : (a.set place info).data u = a.data u :=
    Arena.data_eq (Arena.info_set_other a place u info other)
  refine ⟨Nat.le_of_eq (Arena.size_set a place info).symm, fun u _ => ?_, fun u _ => ?_⟩
  · rcases Decidable.em (u = place) with rfl | other
    · rw [Arena.flattenUnion_plain (data.symm ▸ after.1), Arena.flattenUnion_plain before.1]
    · exact Arena.flattenUnion_congr fun v listed => List.mem_singleton.mp listed ▸ others other
  · rcases Decidable.em (u = place) with rfl | other
    · rw [before.2, Arena.intrinsic?, data]
      split
      · rename_i i same
        exact absurd same (after.2 i)
      · rfl
    · exact Arena.intrinsic?_congr (others other)

/-! ### Type parameters -/

namespace Check

variable {p : Program}

/-- Type parameters are made one after the other. -/
theorem reserveParams_eq (a : Arena) (names : List String) :
    (reserveParams a names).1 = (List.range names.length).map fun i => ⟨a.size + i⟩ := by
  induction names generalizing a with
  | nil => rfl
  | cons name rest ih =>
      let next := (a.add (.typeParameter { name })).2
      have size : next.size = a.size + 1 := Arena.size_addInfo _ _
      have first : (reserveParams a (name :: rest)).1 = ⟨a.size⟩ :: (reserveParams next rest).1 := rfl
      rw [first, ih next, size, List.length_cons, List.range_succ_eq_map, List.map_cons, List.map_map]
      congr 1
      exact List.map_congr_left fun i _ => congrArg TypeId.mk (by omega)

theorem nodup_reserveParams (a : Arena) (names : List String) : (reserveParams a names).1.Nodup := by
  rw [reserveParams_eq]
  refine List.nodup_range.map_on fun i _ j _ same => ?_
  have index := congrArg TypeId.index same
  dsimp only at index
  omega

theorem info_reserveParams (a : Arena) (names : List String) :
    ∀ id ∈ (reserveParams a names).1, ∃ x, (reserveParams a names).2.info id = ⟨.typeParameter x, none⟩ := by
  induction names generalizing a with
  | nil => exact nofun
  | cons name rest ih =>
      let next := (a.add (.typeParameter { name })).2
      intro id listed
      rcases List.mem_cons.mp listed with rfl | later
      · have below : a.size < next.size := by
          rw [show next.size = a.size + 1 from Arena.size_addInfo _ _]
          exact Nat.lt_succ_self _
        have kept := (extends_reserveParams next rest).info ⟨a.size⟩ below
        exact ⟨{ name }, kept.trans (Arena.info_addInfo_self _ _)⟩
      · exact ih next id later

/-- Type parameters are still ones when they have been described. -/
theorem info_fillParams {α : Type} (describe : α → Check TypeParameter) (places : List (α × TypeId))
    (c : Checker) {id : TypeId} (isParam : ∃ x, c.arena.info id = ⟨.typeParameter x, none⟩) :
    ∃ x, (fillParams describe p places c).arena.info id = ⟨.typeParameter x, none⟩ := by
  induction places generalizing c with
  | nil => exact isParam
  | cons place rest ih =>
      obtain ⟨y, t⟩ := place
      obtain ⟨x, info⟩ := isParam
      have inside := Checker.inside_of_info info nofun
      have kept := (describe y).kept p c
      have still := (kept.info id inside).trans info
      refine ih _ ?_
      rcases Decidable.em (id = t) with rfl | differs
      · refine ⟨((describe y).outcome p c).1, ?_⟩
        refine (info_setData_self _ (Nat.lt_of_lt_of_le inside kept.size)).trans ?_
        rw [still]
      · exact ⟨x, (Arena.info_setData_other _ _ _ _ differs).trans still⟩

end Check

namespace Checker

open Check

variable {n : Nat} {p : Program} {c c' : Checker} {s : SymbolId}

/-- The type parameters of a symbol, as they are noted. -/
structure HasParams (c : Checker) (s : SymbolId) (ids : List TypeId) (count : Nat) : Prop where
  noted : c.typeParams[s]? = some ids
  length : ids.length = count
  distinct : ids.Nodup
  isParam : ∀ id ∈ ids, ∃ x, c.arena.info id = ⟨.typeParameter x, none⟩

theorem HasParams.later {ids : List TypeId} {count : Nat} (has : HasParams c s ids count)
    (since : Since n c c') : HasParams c' s ids count where
  noted := since.params s ids has.noted
  length := has.length
  distinct := has.distinct
  isParam id listed := (has.isParam id listed).imp fun _ info => since.info_eq info nofun

/-- The type parameters of a symbol when they are made. -/
theorem hasParams_typeParamsOf (calls : Calls) {d : SymbolDecl} (unread : c.typeParams[s]? = none)
    (first : (c.bindings.decls s).find? (fun d => !(writtenTypeParams d.node).isEmpty) = some d) :
    let r := (typeParamsOf calls s).outcome p c
    HasParams r.2 s r.1 (writtenTypeParams d.node).length := by
  have noted := typeParamsOf_known calls s p c
  let names := (writtenTypeParams d.node).map (·.name)
  let reserved := reserveParams c.arena names
  let start : Checker := { c with arena := reserved.2, typeParams := c.typeParams.insert s reserved.1 }
  have opened : ∃ describe, (typeParamsOf calls s).outcome p c =
      (reserved.1, fillParams describe p ((writtenTypeParams d.node).zip reserved.1) start) := by
    have remembered : (rememberParams s reserved.1).outcome p { c with arena := reserved.2 } = ((), start) := by
      simp only [rememberParams, unread]
      rfl
    let scope : TypeScope := { file := d.file, inside := c.bindings.parent? s }
    refine ⟨describeParam calls (scope.withParams names reserved.1), ?_⟩
    unfold typeParamsOf
    rw [outcome_bind, outcome_state]
    dsimp only
    rw [unread]
    dsimp only
    rw [outcome_bind, outcome_decls]
    dsimp only
    rw [first]
    dsimp only
    rw [outcome_bind, outcome_scopeIn]
    exact congrArg (fun r : Unit × Checker => (reserved.1,
      fillParams _ p ((writtenTypeParams d.node).zip reserved.1) r.2)) remembered
  obtain ⟨describe, made⟩ := opened
  intro r
  have same : r = _ := made
  refine ⟨noted, ?_, ?_, fun id listed => ?_⟩
  · rw [same]
    exact (length_reserveParams _ _).trans (List.length_map _)
  · rw [same]
    exact nodup_reserveParams _ _
  · rw [same] at listed ⊢
    exact info_fillParams describe _ start (info_reserveParams _ _ id listed)

/-! ### Aliases -/

/-- What names are bound to; of two with the same name the last one counts. -/
def boundTo (names : List String) (ids : List TypeId) (name : String) : Option TypeId :=
  (names.zip ids).reverse.lookup name

theorem param?_withParams (file : FileId) (inside : Option SymbolId) (names : List String)
    (ids : List TypeId) :
    (({ file, inside } : TypeScope).withParams names ids).param? = boundTo names ids := by
  funext name
  simp [TypeScope.param?, TypeScope.withParams, boundTo]

/-- The scope in which the body of an alias is read for the given types. -/
def bodyScope (b : Bindings) (s : SymbolId) (file : FileId) (decl : AliasDecl) (ids : List TypeId) :
    TypeScope :=
  ({ file, inside := b.parent? s } : TypeScope).withParams (decl.typeParams.map (·.name)) ids

theorem param?_bodyScope (b : Bindings) (s : SymbolId) (file : FileId) (decl : AliasDecl)
    (ids : List TypeId) :
    (bodyScope b s file decl ids).param? = boundTo (decl.typeParams.map (·.name)) ids :=
  param?_withParams _ _ _ _

theorem mem_of_boundTo {names : List String} {ids : List TypeId} {name : String} {t : TypeId}
    (is : boundTo names ids name = some t) : t ∈ ids := by
  obtain ⟨before, after, split, -⟩ := List.lookup_eq_some_iff.mp is
  have listed : (name, t) ∈ (names.zip ids).reverse := by
    rw [split]
    exact List.mem_append_right _ List.mem_cons_self
  exact (List.of_mem_zip (List.mem_reverse.mp listed)).2

theorem exists_boundTo {names : List String} {ids : List TypeId} (length : ids.length = names.length)
    {name : String} (listed : name ∈ names) : ∃ t, boundTo names ids name = some t := by
  obtain ⟨i, inside, rfl⟩ := List.mem_iff_getElem.mp listed
  have small : i < ids.length := length ▸ inside
  refine Option.isSome_iff_exists.mp (List.lookup_isSome_iff.mpr ⟨(names[i], ids[i]), ?_, ?_⟩)
  · refine List.mem_reverse.mpr (List.mem_iff_getElem.mpr ⟨i, ?_, List.getElem_zip⟩)
    rw [List.length_zip]
    omega
  · exact beq_self_eq_true _

/-- The symbol `s` is an alias with type parameters, written in `file`, for an object type of properties
of which operators are written right before type parameters. -/
structure DirectAlias (b : Bindings) (s : SymbolId) (file : FileId) (decl : AliasDecl)
    (properties : List PropertyExpr) (d : Nat) : Prop where
  kind : b.kind? s = some .typeAlias
  declares : (b.decls s).findSome? aliasDecl? = some (file, decl)
  first : ∃ x, (b.decls s).find? (fun x => !(writtenTypeParams x.node).isEmpty) = some x ∧
    writtenTypeParams x.node = decl.typeParams
  body : decl.type = .members (properties.map (·.member))
  annotations : ∀ q ∈ properties,
    DirectExpr (decl.typeParams.map (·.name)) (b.global.get? .type "Array") d q.annotation
  shallow : d ≤ 30

variable {file : FileId} {decl : AliasDecl} {properties : List PropertyExpr} {d : Nat}

namespace DirectAlias

variable {b b' : Bindings}

theorem symbol (direct : DirectAlias b s file decl properties d) : ∃ x, b.symbol? s = some x := by
  obtain ⟨x, found, -⟩ := Option.map_eq_some_iff.mp direct.kind
  exact ⟨x, found⟩

theorem later (direct : DirectAlias b s file decl properties d) (grown : b.Extends b') :
    DirectAlias b' s file decl properties d := by
  obtain ⟨x, found⟩ := direct.symbol
  have same : b'.symbol? s = b.symbol? s := (grown.symbol s x found).trans found.symm
  have decls : b'.decls s = b.decls s := congrArg (fun x => (Option.map Symbol.decls x).getD []) same
  have kind : b'.kind? s = b.kind? s := congrArg (Option.map Symbol.kind) same
  exact ⟨kind.trans direct.kind, decls ▸ direct.declares, decls ▸ direct.first, direct.body,
    grown.global ▸ direct.annotations, direct.shallow⟩

theorem known (direct : DirectAlias c.bindings s file decl properties d) : Known c s := by
  obtain ⟨x, found⟩ := direct.symbol
  exact known_symbol_iff.mpr (by simp [found])

end DirectAlias

/-! ### Reading the body -/

/-- The body of the alias is an object with what its properties come to. -/
theorem ends_lower_body {op : Operation} {scope : TypeScope} (ready : Ready n p c)
    (direct : DirectAlias c.bindings s file decl properties d)
    (binds : Binds n p op c (decl.typeParams.map (·.name)) scope.param?) (k : Nat) :
    Ends n p c (lower (callsTo (k + 5 + d)) scope decl.type) fun t c' => ∃ all,
      (c'.arena.data t = .object { members := all } ∧ c'.shapes.find? t = none ∧ t ∉ c'.shapes.running) ∧
        List.Forall₂ (Written op c' scope.param?) (properties.foldl PropertyExpr.keepFirst []) all := by
  have opened (calls : Calls) : lower calls scope decl.type =
      lowerMembers calls scope (properties.map (·.member)) >>= Check.object := by
    rw [direct.body]
    rfl
  rw [opened]
  refine .bind (ends_lowerMembers binds ready direct.annotations rfl k)
    fun shape c₁ since₁ ready₁ ⟨all, same, written⟩ => ?_
  subst same
  have : Known c₁ ({ members := all } : Shape) := by
    have members : Known c₁ all := known_list_iff.mpr fun m listed => by
      obtain ⟨q, -, one⟩ := (beside written).2 m listed
      exact known_member_iff.mpr (known_type_iff.mpr (one.type.inside ready₁ (binds.later since₁).inside
        fun _ _ => binds.there c₁ _ _ ready₁))
    exact known_shape_iff.mpr ⟨members, inferInstance, inferInstance, inferInstance, inferInstance, inferInstance⟩
  exact (ends_object this).weaken fun t c₂ since₂ made =>
    ⟨all, made, written_later written binds.lasts since₂⟩

/-! ### The alias when it is read -/

theorem Ready.withDeclaring (ready : Ready n p c) (declaring : List SymbolId) :
    Ready n p { c with declaring } :=
  ⟨(tabled_declaring ready.sound declaring).sound, ⟨ready.regular.unnamed, ready.regular.plain⟩,
    ready.start, ready.base, ready.evaluating, ready.listing⟩

theorem Ready.reserving (ready : Ready n p c) [known : Known c s] : Ready n p (reserving s c) := by
  obtain ⟨tabled, inside⟩ := tabled_reserving ready.sound known
  have grown := Arena.extends_addInfo c.arena (.placeholder s)
  have work : Work c.arena.size c { c with arena := (c.arena.addInfo (.placeholder s)).2 } := .types grown
  have regular := work.regular (Nat.le_refl _) ready.regular
  have size := grown.size
  refine ⟨tabled.sound, ⟨regular.unnamed, regular.plain⟩, fun t small => ?_, ?_, fun t running => ?_,
    fun t running => ?_⟩
  · exact (grown.info t (Nat.lt_of_lt_of_le small ready.sound.base)).trans (ready.start t small)
  · exact Nat.le_trans ready.base size
  · exact (ready.evaluating t running).imp_right fun below => Nat.lt_of_lt_of_le below size
  · exact (ready.listing t running).imp_right fun below => Nat.lt_of_lt_of_le below size

/-- What the body of the alias was read as: an object with what its properties come to for the type
parameters `ids`. -/
structure BodyAs (c : Checker) (s : SymbolId) (decl : AliasDecl) (properties : List PropertyExpr)
    (ids : List TypeId) (info : TypeInfo) : Prop where
  params : HasParams c s ids decl.typeParams.length
  members : ∃ all, info = ⟨.object { members := all }, some ⟨s, ids⟩⟩ ∧
    List.Forall₂ (Written Waits c (boundTo (decl.typeParams.map (·.name)) ids))
      (properties.foldl PropertyExpr.keepFirst []) all

/-- Only type parameters, operators, unions and what is kept for keys matter to what the body was read
as. -/
theorem BodyAs.mono {ids : List TypeId} {info : TypeInfo} (as : BodyAs c s decl properties ids info)
    (global : c'.bindings.global = c.bindings.global)
    (params : c.typeParams[s]? = some ids → c'.typeParams[s]? = some ids)
    (interned : ∀ (k : InternKey) (t : TypeId),
      c.arena.interned[k]? = some t → c'.arena.interned[k]? = some t)
    (alike : c.arena.Alike c'.arena)
    (infos : ∀ t : TypeId, (c.arena.data t).isOperator = true ∨ (c.arena.data t).isParameter = true →
      c'.arena.info t = c.arena.info t) : BodyAs c' s decl properties ids info where
  params := {
    noted := params as.params.noted
    length := as.params.length
    distinct := as.params.distinct
    isParam := fun id listed => by
      obtain ⟨x, isParam⟩ := as.params.isParam id listed
      exact ⟨x, (infos id (.inr (by rw [Arena.data, isParam]; rfl))).trans isParam⟩ }
  members := by
    obtain ⟨all, same, written⟩ := as.members
    refine ⟨all, same, written.imp fun _ _ one => one.mono fun _ stands => ?_⟩
    refine stands.mono global interned (fun _ _ joined => joined.mono alike interned)
      fun data t waits => ⟨waits.operator, ?_⟩
    exact (infos t (.inl (by rw [Arena.data, waits.info]; exact waits.operator))).trans waits.info

theorem BodyAs.later {ids : List TypeId} {info : TypeInfo} (as : BodyAs c s decl properties ids info)
    (since : Since n c c') : BodyAs c' s decl properties ids info := by
  refine as.mono since.bindings.global (since.params s ids) since.interned since.alike fun t which => ?_
  refine since.info t (Arena.lt_size_of_data (a := c.arena) rfl fun any => ?_)
  rw [any] at which
  rcases which with operator | parameter
  · cases operator
  · cases parameter

/-- In the state `c`, the alias was read as the type `t`. -/
structure ReadAs (c : Checker) (s : SymbolId) (decl : AliasDecl) (properties : List PropertyExpr)
    (t : TypeId) (ids : List TypeId) : Prop where
  declared : c.declared[s]? = some t
  body : BodyAs c s decl properties ids (c.arena.info t)

/-- What the body of an alias is read as, given the place that is reserved for it. -/
def aliasBody (calls : Calls) (s : SymbolId) (file : FileId) (decl : AliasDecl) (reserved : TypeId) :
    Check (TypeInfo × TypeId) := do
  let params ← typeParamsOf calls s
  let scope := (← Check.scopeIn file s).withParams (decl.typeParams.map (·.name)) params
  let body ← Check.readingBody s (calls.ask (.lower scope decl.type))
  let data ← Check.data body
  if carriesAlias (← Check.isBoolean body) data then return (⟨data, some ⟨s, params⟩⟩, reserved)
  else return (⟨data, none⟩, body)

theorem declaredType_alias (calls : Calls) (direct : DirectAlias c.bindings s file decl properties d) :
    (declaredType calls s).outcome p c = (declareAlias s (aliasBody calls s file decl)).outcome p c := by
  unfold declaredType
  rw [outcome_bind, outcome_kind?, direct.kind]
  dsimp only
  unfold declaredAlias
  rw [outcome_bind, outcome_decls, direct.declares]
  rfl

/-- The names of the type parameters are bound to type parameters. -/
theorem HasParams.binds {ids : List TypeId} (has : HasParams c s ids decl.typeParams.length) :
    Binds n p Waits c (decl.typeParams.map (·.name)) (boundTo (decl.typeParams.map (·.name)) ids) := by
  have length : ids.length = (decl.typeParams.map (·.name)).length := by
    rw [has.length, List.length_map]
  exact binds_params (fun _ => exists_boundTo length) fun _ t is => has.isParam t (mem_of_boundTo is)

/-- A body that is read to an object shows the alias. -/
theorem aliasBody_object {calls : Calls} {ids : List TypeId} {c₁ c₂ : Checker} {body : TypeId}
    {shape : Shape} (reserved : TypeId) (params : (typeParamsOf calls s).outcome p c = (ids, c₁))
    (lowered : (calls.ask (.lower (bodyScope c₁.bindings s file decl ids) decl.type)).outcome p
      { c₁ with declaring := s :: c₁.declaring } = (body, c₂)) (data : c₂.arena.data body = .object shape) :
    (aliasBody calls s file decl reserved).outcome p c =
      ((⟨.object shape, some ⟨s, ids⟩⟩, reserved), { c₂ with declaring := c₂.declaring.erase s }) := by
  unfold aliasBody
  rw [bind_of_outcome params, outcome_bind, outcome_scopeIn]
  show (readingBody s (calls.ask (.lower (bodyScope c₁.bindings s file decl ids) decl.type)) >>= _).outcome p
    c₁ = _
  have read : (readingBody s _).outcome p c₁ = (body, { c₂ with declaring := c₂.declaring.erase s }) :=
    congrArg (fun r : TypeId × Checker => (r.1, { r.2 with declaring := r.2.declaring.erase s })) lowered
  rw [bind_of_outcome read, outcome_bind, outcome_data, outcome_bind, outcome_isBoolean]
  dsimp only
  rw [data]
  rfl

/-- The body is read to an object with what its properties come to, and shows the alias. -/
theorem aliasBody_as (ready : Ready n p c) (direct : DirectAlias c.bindings s file decl properties d)
    (unread : c.typeParams[s]? = none) (k : Nat) (reserved : TypeId) :
    let r := (aliasBody (callsTo (k + 5 + d + 1)) s file decl reserved).outcome p c
    r.1.2 = reserved ∧ ∃ ids, BodyAs r.2 s decl properties ids r.1.1 := by
  have known := direct.known
  have := ready.started
  obtain ⟨x, first, written⟩ := direct.first
  have made := hasParams_typeParamsOf (p := p) (callsTo (k + 5 + d + 1)) unread first
  have since₁ : Since n c ((typeParamsOf (callsTo (k + 5 + d + 1)) s).outcome p c).2 := .outcome n _ p c
  have ready₁ : Ready n p ((typeParamsOf (callsTo (k + 5 + d + 1)) s).outcome p c).2 :=
    ready.outcome inferInstance
  rw [written] at made
  rcases params : (typeParamsOf (callsTo (k + 5 + d + 1)) s).outcome p c with ⟨ids, c₁⟩
  rw [params] at made since₁ ready₁
  have has : HasParams c₁ s ids decl.typeParams.length := made
  let scope := bodyScope c₁.bindings s file decl ids
  let entered : Checker := { c₁ with declaring := s :: c₁.declaring }
  have start : Ready n p entered := ready₁.withDeclaring _
  have bound : HasParams entered s ids decl.typeParams.length := { has with }
  have env : scope.param? = _ := param?_bodyScope c₁.bindings s file decl ids
  obtain ⟨-, all, ⟨data, -⟩, written⟩ := ends_lower_body start (direct.later since₁.bindings)
    (env ▸ bound.binds) k _ (.refl n _) start
  rw [← ask_lower, env] at written
  rw [← ask_lower] at data
  have since₂ := Since.outcome n ((callsTo (k + 5 + d + 1)).ask (.lower scope decl.type)) p entered
  rcases lowered : ((callsTo (k + 5 + d + 1)).ask (.lower scope decl.type)).outcome p entered with ⟨body, c₂⟩
  rw [lowered] at data written since₂
  rw [aliasBody_object reserved params lowered data]
  have read : BodyAs c₂ s decl properties ids ⟨.object { members := all }, some ⟨s, ids⟩⟩ :=
    ⟨bound.later since₂, all, rfl, written⟩
  have alike : c₂.arena.Alike c₂.arena := .of_data (Nat.le_refl _) fun _ _ => rfl
  exact ⟨rfl, ids, read.mono rfl id (fun _ _ => id) alike fun _ _ => rfl⟩

/-- The place that is reserved for the alias is filled with what the body was read as. -/
theorem readAs_declareAlias {body : TypeId → Check (TypeInfo × TypeId)} (sound : c.Sound p)
    (known : Known c s) (undeclared : c.declared[s]? = none)
    (isRead : let r := (body ⟨c.arena.size⟩).outcome p (reserving s c)
      r.1.2 = ⟨c.arena.size⟩ ∧ ∃ ids, BodyAs r.2 s decl properties ids r.1.1) :
    let r := (declareAlias s body).outcome p c
    ∃ ids, ReadAs r.2 s decl properties r.1 ids := by
  have there : c.arena.size < (reserving s c).arena.size := (tabled_reserving sound known).2
  have kept := (body ⟨c.arena.size⟩).kept p (reserving s c)
  have empty := (kept.info ⟨c.arena.size⟩ there).trans (Arena.info_addInfo_self _ _)
  have inside := Nat.lt_of_lt_of_le there kept.size
  rcases answer : (body ⟨c.arena.size⟩).outcome p (reserving s c) with ⟨⟨info, t⟩, after⟩
  rw [answer] at isRead empty inside
  obtain ⟨same, ids, read⟩ := isRead
  dsimp only at same read empty inside
  subst same
  let filled : Checker := { after with
    arena := after.arena.set ⟨c.arena.size⟩ info, declared := after.declared.insert s ⟨c.arena.size⟩ }
  have whole : (declareAlias s body).outcome p c = (⟨c.arena.size⟩, filled) := by
    simp only [declareAlias, undeclared, answer]
    rfl
  -- the place was still empty, so no type parameter and no operator is lost when it is filled
  have others : ∀ t : TypeId, (after.arena.data t).isOperator = true ∨
      (after.arena.data t).isParameter = true → filled.arena.info t = after.arena.info t := by
    intro t which
    refine Arena.info_set_other _ _ _ _ ?_
    rintro rfl
    rw [Arena.data, empty] at which
    rcases which with operator | parameter
    · cases operator
    · cases parameter
  have self : filled.arena.info ⟨c.arena.size⟩ = info := info_set_self _ inside
  have alike : after.arena.Alike filled.arena := by
    obtain ⟨all, object, -⟩ := read.members
    have plain : after.arena.data ⟨c.arena.size⟩ = .nominal s [] := congrArg TypeInfo.data empty
    refine .of_set ⟨fun _ same => ?_, ?_⟩ ⟨fun _ same => ?_, fun _ same => ?_⟩ inside
    · rw [plain] at same
      cases same
    · rw [Arena.intrinsic?, plain]
    · rw [object] at same
      cases same
    · rw [object] at same
      cases same
  have last : BodyAs filled s decl properties ids info := read.mono rfl id (fun _ _ => id) alike others
  rw [whole]
  exact ⟨ids, Std.HashMap.getElem?_insert_self, self.symm ▸ last⟩

/-- An alias that was not read before is read as it is written. -/
theorem readAs_declaredType (ready : Ready n p c) (direct : DirectAlias c.bindings s file decl properties d)
    (undeclared : c.declared[s]? = none) (unread : c.typeParams[s]? = none) (k : Nat) :
    let r := ((callsTo (k + 5 + d + 1 + 1)).ask (.declaredType s)).outcome p c
    ∃ ids, ReadAs r.2 s decl properties r.1 ids := by
  have known := direct.known
  have start : Ready n p (reserving s c) := ready.reserving
  have asked : ((callsTo (k + 5 + d + 1 + 1)).ask (.declaredType s)).outcome p c =
      (declareAlias s (aliasBody (callsTo (k + 5 + d + 1)) s file decl)).outcome p c := by
    rw [ask_callsTo, ← declaredType_alias _ direct]
    rfl
  rw [asked]
  exact readAs_declareAlias ready.sound known undeclared (aliasBody_as start direct unread k _)

end Checker

end ApiDocs
