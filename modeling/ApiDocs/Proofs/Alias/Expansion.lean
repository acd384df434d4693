import ApiDocs.Proofs.Alias.Reading
import ApiDocs.Proofs.Mapped.Homomorphic

set_option autoImplicit false

/-!
Generic aliases with concrete arguments. The body of an alias is read once for its type parameters, and
an instance is made by substitution in what was read. The members that it has are those that the body
has when it is read for the arguments right away.
-/

namespace ApiDocs

open Syntax

/-! ### Arguments -/

theorem List.lookup_map_snd {α β γ : Type} [BEq α] (f : β → γ) (list : List (α × β)) (a : α) :
    (list.map (Prod.map id f)).lookup a = (list.lookup a).map f := by
  induction list with
  | nil => rfl
  | cons entry rest ih =>
      obtain ⟨key, b⟩ := entry
      show List.lookup a ((key, f b) :: rest.map (Prod.map id f)) = _
      rw [List.lookup_cons, List.lookup_cons, ih]
      cases a == key <;> rfl

namespace Checker

open Check

variable {n : Nat} {p : Program} {c c' : Checker} {s : SymbolId} {ids args : List TypeId}

/-- Each key is found with its value, if no key is listed twice. -/
theorem map_lookup_zip (distinct : ids.Nodup) (length : args.length = ids.length) :
    (ids.map fun key => (ids.zip args).lookup key) = args.map some := by
  induction ids generalizing args with
  | nil =>
      rw [List.eq_nil_of_length_eq_zero length]
      rfl
  | cons id rest ih =>
      cases args with
      | nil => cases length
      | cons arg others =>
          obtain ⟨apart, distinct⟩ := List.nodup_cons.mp distinct
          rw [List.zip_cons_cons, List.map_cons, List.map_cons, List.lookup_cons_self,
            ← ih distinct (Nat.succ.inj length)]
          congr 1
          refine List.map_congr_left fun key listed => ?_
          have differs : key ≠ id := fun same => apart (same ▸ listed)
          rw [List.lookup_cons, beq_eq_false_iff_ne.mpr differs]

/-- A name that stands for a type parameter stands for the argument, when this is bound instead. -/
theorem lookup_boundTo {names : List String} (distinct : ids.Nodup) (length : args.length = ids.length)
    {name : String} {key : TypeId} (is : boundTo names ids name = some key) :
    ∃ t, (ids.zip args).lookup key = some t ∧ boundTo names args name = some t := by
  have mapped {β : Type} (f : TypeId → β) (list : List TypeId) :
      (names.zip (list.map f)).reverse.lookup name = (boundTo names list name).map f := by
    rw [List.zip_map_right, ← List.map_reverse]
    exact List.lookup_map_snd f _ _
  have both := mapped (fun key => (ids.zip args).lookup key) ids
  rw [map_lookup_zip distinct length, mapped, is] at both
  obtain ⟨t, bound, found⟩ := Option.map_eq_some_iff.mp both
  exact ⟨t, found.symm, bound⟩

/-- The arguments take the places of the type parameters that they are given for. -/
theorem HasParams.puts {count : Nat} (has : HasParams c s ids count) (length : args.length = count)
    (names : List String) : Puts c (ids.zip args) (boundTo names ids) (boundTo names args) where
  params key t found := by
    obtain ⟨before, after, split, -⟩ := List.lookup_eq_some_iff.mp found
    have listed : (key, t) ∈ ids.zip args := by
      rw [split]
      exact List.mem_append_right _ List.mem_cons_self
    exact has.isParam key (List.of_mem_zip listed).1
  names _ _ is := lookup_boundTo has.distinct (length.trans has.length.symm) is

/-- Substitution in the type parameters themselves. -/
theorem mapM_substituteAt_keys (calls : Calls) (j : Nat) (map : Substitution)
    (found : (ids.map fun key => map.lookup key) = args.map some) :
    (ids.mapM (substituteAt calls j map)).outcome p c = (args, c) := by
  induction ids generalizing args with
  | nil =>
      rw [List.map_eq_nil_iff.mp found.symm]
      rfl
  | cons id rest ih =>
      cases args with
      | nil => cases found
      | cons arg others =>
          obtain ⟨first, later⟩ := List.cons.inj found
          rw [List.mapM_cons, bind_of_outcome (substituteAt_key calls j first), bind_of_outcome (ih later)]
          rfl

/-! ### Instances -/

variable {file : FileId} {decl : AliasDecl} {properties : List PropertyExpr} {d : Nat} {t : TypeId}

/-- What an alias was read as does not change. -/
theorem ReadAs.later (read : ReadAs c s decl properties t ids) (since : Since n c c') (later : c.Later c') :
    ReadAs c' s decl properties t ids where
  declared := later.declared s t read.declared
  body := by
    obtain ⟨all, info, -⟩ := read.body.members
    rw [since.info_eq info nofun, ← info]
    exact read.body.later since

/-- Concrete arguments for the type parameters of an alias, which are there before `n`. -/
structure ArgsFor (n : Nat) (c : Checker) (decl : AliasDecl) (args : List TypeId) : Prop where
  length : args.length = decl.typeParams.length
  concrete : ∀ t ∈ args, t.index < n ∧ c.Concrete t

namespace ArgsFor

theorem later (given : ArgsFor n c decl args) (since : Since n c c') : ArgsFor n c' decl args :=
  ⟨given.length, fun t listed => (given.concrete t listed).imp_right (·.later since)⟩

theorem before (given : ArgsFor n c decl args) (names : List String) :
    ConcreteBefore n c (boundTo names args) :=
  fun _ t is => given.concrete t (mem_of_boundTo is)

theorem binds (given : ArgsFor n c decl args) :
    Binds n p (Comes n p) c (decl.typeParams.map (·.name)) (boundTo (decl.typeParams.map (·.name)) args) := by
  have length : args.length = (decl.typeParams.map (·.name)).length := by
    rw [given.length, List.length_map]
  exact binds_concrete (fun _ => exists_boundTo length) (given.before _)

/-- Arguments are no type parameters. -/
theorem ne_params (given : ArgsFor n c decl args) (has : HasParams c s ids decl.typeParams.length)
    (generic : ids ≠ []) : args ≠ ids := by
  rintro rfl
  obtain ⟨t, listed⟩ := List.exists_mem_of_ne_nil _ generic
  obtain ⟨x, isParam⟩ := has.isParam t listed
  exact image_ne (given.concrete t listed).2 isParam rfl

end ArgsFor

theorem DirectAlias.generic {b : Bindings} (direct : DirectAlias b s file decl properties d) :
    decl.typeParams ≠ [] := by
  obtain ⟨x, first, written⟩ := direct.first
  have some := List.find?_some first
  rintro none
  rw [written, none] at some
  cases some

theorem readAlias_read (direct : DirectAlias c.bindings s file decl properties d)
    (read : ReadAs c s decl properties t ids) (k : Nat) :
    (readAlias (callsTo (k + 1)) s).outcome p c = ((t, ids), c) := by
  have declared : ((callsTo (k + 1)).ask (.declaredType s)).outcome p c = (t, c) := by
    have opened := declaredType_alias (p := p) (callsTo k) direct
    rw [ask_callsTo]
    refine opened.trans ?_
    simp only [declareAlias, read.declared]
  unfold readAlias
  rw [bind_of_outcome declared, bind_of_outcome (typeParams_of_known k read.body.params.noted)]
  rfl

/-- Substitution in an object with a name. -/
theorem substituteAt_object (calls : Calls) (j : Nat) {map : Substitution} {shape : Shape}
    (apart : map.lookup t = none) (info : c.arena.info t = ⟨.object shape, some ⟨s, ids⟩⟩)
    (found : (ids.map fun key => map.lookup key) = args.map some) (changed : args ≠ ids) :
    let put := (mapShape (substituteAt calls j map) shape).outcome p c
    (substituteAt calls (j + 1) map t).outcome p c =
      (rebuild calls (.object put.1) (some ⟨s, args⟩)).outcome p put.2 := by
  intro put
  let own := (ids.mapM (substituteAt calls j map)).outcome p c
  let parts := (mapShape (substituteAt calls j map) shape).outcome p own.2
  have whole : (substituteAt calls (j + 1) map t).outcome p c =
      (if TypeData.object parts.1 = .object shape ∧ some (AliasRef.mk s own.1) = some ⟨s, ids⟩ then pure t
        else rebuild calls (.object parts.1) (some ⟨s, own.1⟩)).outcome p parts.2 := by
    unfold substituteAt
    rw [apart]
    dsimp only
    rw [outcome_bind, outcome_info, info]
    rfl
  have own_eq : own = (args, c) := mapM_substituteAt_keys calls j map found
  have parts_eq : parts = put := congrArg (fun r : List TypeId × Checker =>
    (mapShape (substituteAt calls j map) shape).outcome p r.2) own_eq
  rw [whole, own_eq, parts_eq, if_neg]
  rintro ⟨-, same⟩
  exact changed (congrArg AliasRef.args (Option.some.inj same))

/-- An instance of an alias for an object is a new object, with the arguments put into its members. -/
theorem aliasInstance_object {calls : Calls} {shape : Shape}
    (reads : (readAlias calls s).outcome p c = ((t, ids), c))
    (info : c.arena.info t = ⟨.object shape, some ⟨s, ids⟩⟩) (free : s ∉ c.declaring) (generic : ids ≠ [])
    (length : args.length = ids.length) (apart : (ids.zip args).lookup t = none)
    (found : (ids.map fun key => (ids.zip args).lookup key) = args.map some) (changed : args ≠ ids) :
    let put := (mapShape (substituteAt calls 32 (ids.zip args)) shape).outcome p c
    let made := (aliasInstance calls s args).outcome p c
    (∀ below, Since below put.2 made.2) ∧ made.2.arena.data made.1 = .object put.1 ∧
      made = (Check.addInfo ⟨.object put.1, some ⟨s, args⟩⟩).outcome p
        ((substituteAt calls maxDepth (ids.zip args) t).outcome p c).2 := by
  intro put made
  let built := (rebuild calls (.object put.1) (some ⟨s, args⟩)).outcome p put.2
  have substituted : (substituteAt calls maxDepth (ids.zip args) t).outcome p c = built :=
    substituteAt_object calls 32 apart info found changed
  have data : built.2.arena.data built.1 = .object put.1 :=
    congrArg TypeInfo.data (info_rebuild_named calls (by exact nofun) (by exact nofun) _ p _)
  have opened : made = (Check.addInfo ⟨.object put.1, some ⟨s, args⟩⟩).outcome p built.2 := by
    have named := aliasInstance_named (p := p) (c := c) calls (by rw [reads]) generic length
      (by rw [reads]; exact info) free
    dsimp only at named
    rw [reads, substituted, data] at named
    exact named
  rw [substituted]
  refine ⟨fun below => ?_, ?_, opened⟩
  · rw [opened]
    exact (Since.outcome below _ p put.2).trans (.outcome below _ p built.2)
  · rw [opened]
    exact congrArg TypeInfo.data (Arena.info_addInfo_self _ _)

/-- What an instance is: an object that nothing is known about yet, with what the properties come to for
the arguments. -/
structure InstanceFor (n : Nat) (p : Program) (c : Checker) (decl : AliasDecl)
    (properties : List PropertyExpr) (args : List TypeId) (t : TypeId) : Prop where
  ready : Ready n p c
  fresh : c.Fresh t
  members : ∃ all, c.arena.data t = .object { members := all } ∧
    List.Forall₂ (Written (Comes n p) c (boundTo (decl.typeParams.map (·.name)) args))
      (properties.foldl PropertyExpr.keepFirst []) all

/-- An instance of the alias at concrete arguments. -/
theorem instanceFor_aliasInstance (ready : Ready n p c)
    (direct : DirectAlias c.bindings s file decl properties d) (read : ReadAs c s decl properties t ids)
    (free : s ∉ c.declaring) (given : ArgsFor n c decl args) (k : Nat) :
    let made := (aliasInstance (callsTo (k + 1 + 1 + 1)) s args).outcome p c
    InstanceFor n p made.2 decl properties args made.1 := by
  have has := read.body.params
  obtain ⟨all, info, written⟩ := read.body.members
  have length : args.length = ids.length := given.length.trans has.length.symm
  have generic : ids ≠ [] := by
    rintro rfl
    exact direct.generic (List.eq_nil_of_length_eq_zero has.length.symm)
  -- first the alias is read off, then the arguments are put into the properties
  have reads : (readAlias (callsTo (k + 1 + 1 + 1)) s).outcome p c = ((t, ids), c) :=
    readAlias_read direct read (k + 1 + 1)
  have puts := has.puts given.length (decl.typeParams.map (·.name))
  have apart : (ids.zip args).lookup t = none := puts.apart (by rw [Arena.data, info]; rfl)
  have found := map_lookup_zip has.distinct length
  have changed := given.ne_params has generic
  have annotations : ∀ q ∈ properties.foldl PropertyExpr.keepFirst [],
      DirectExpr (decl.typeParams.map (·.name)) (c.bindings.global.get? .type "Array") d q.annotation :=
    fun q listed =>
      direct.annotations q (by simpa using PropertyExpr.foldl_keepFirst_subset [] properties listed)
  obtain ⟨j, deep⟩ : ∃ j, j + 2 + d = 32 := ⟨30 - d, by have := direct.shallow; omega⟩
  obtain ⟨-, put, same, members⟩ := ends_mapShape_written ready puts given.binds (given.before _)
    annotations written k j c (.refl n c) ready
  rw [deep] at same members
  obtain ⟨since, data, made⟩ := aliasInstance_object reads info free generic length apart found changed
  have := ready.started
  have : Known c s := direct.known
  have inside : ∀ u ∈ args, Known c u := fun u listed =>
    known_type_iff.mpr (given.concrete u listed).2.inside
  have : Known c args := known_list_iff.mpr inside
  have : Known c t := known_type_iff.mpr (inside_of_info info (by simp))
  have : Known c (ids.zip args) := known_list_iff.mpr fun entry listed => by
    obtain ⟨first, second⟩ := List.of_mem_zip (a := entry.1) (b := entry.2) listed
    obtain ⟨x, isParam⟩ := has.isParam _ first
    exact known_prod_iff.mpr ⟨known_type_iff.mpr (inside_of_info isParam (by simp)), inside _ second⟩
  have safe : Safe p c (substituteAt (callsTo (k + 1 + 1 + 1)) maxDepth (ids.zip args) t) := inferInstance
  have substituted := ready.outcome safe
  refine ⟨ready.outcome inferInstance, ?_, put, by rw [data, same], ?_⟩
  · rw [made]
    exact substituted.fresh _
  · exact written_later members (lasts_comes n p) (since n)

/-! ### The body read for the arguments -/

/-- An instance has the members that the body has for its arguments. -/
theorem members_instanceFor (inst : InstanceFor n p c decl properties args t)
    (direct : DirectAlias c.bindings s file decl properties d) (given : ArgsFor n c decl args) (b : Bindings)
    (k : Nat) :
    let calls := callsTo (k + 5 + d + 1)
    let shown := (calls.ask (.shape t)).outcome p c
    let body := (calls.ask (.lower (bodyScope b s file decl args) decl.type)).outcome p shown.2
    shown.1.members = ((calls.ask (.shape body.1)).outcome p body.2).1.members := by
  intro calls shown body
  obtain ⟨all, data, written⟩ := inst.members
  have := inst.ready.started
  have : Known c t := known_type_iff.mpr (Arena.lt_size_of_data data nofun)
  have own : shown.1 = { members := all } :=
    ask_shape_object (k + 5 + d) data ⟨inst.fresh.shapes, inst.fresh.listing⟩
  have since₁ : Since n c shown.2 := .outcome n _ p c
  have ready₁ : Ready n p shown.2 := inst.ready.outcome inferInstance
  have env := param?_bodyScope b s file decl args
  have lowered := ends_lower_body ready₁ (direct.later since₁.bindings) (env ▸ (given.later since₁).binds) k
    shown.2 (.refl n _) ready₁
  rw [← ask_lower, env] at lowered
  obtain ⟨ready₂, others, ⟨object, unlisted⟩, meant⟩ := lowered
  have since : Since n c body.2 := since₁.trans (.outcome n _ p shown.2)
  have first := written_later written (lasts_comes n p) since
  have same : all = others := written_unique ready₂ first meant
  rw [own, ask_shape_object (k + 5 + d) object unlisted, same]

/-! ### States at rest -/

theorem Leads.trans {c'' : Checker} (first : Leads p c c') (second : Leads p c' c'') : Leads p c c'' := by
  induction second with
  | refl => exact first
  | ask _ q about ih => exact .ask (ih first) q about

theorem Leads.since (leads : Leads p c c') : Since n c c' ∧ c.Later c' := by
  induction leads with
  | refl => exact ⟨.refl n _, .refl _⟩
  | ask _ q _ ih => exact ⟨ih.1.trans (.outcome n q.ask p _), ih.2.trans (q.ask.kept p _)⟩

theorem outcome_members (t : TypeId) (p : Program) (c : Checker) :
    (Check.members t).outcome p c = (((calls.ask (.shape t)).outcome p c).1.members,
      ((calls.ask (.shape t)).outcome p c).2) := rfl

/-- There is room for the questions that reading an alias asks. -/
theorem calls_deep_enough (shallow : d ≤ 30) : ∃ k, calls = callsTo (k + 5 + d + 1 + 1) := by
  refine ⟨maxNesting - (d + 7), congrArg callsTo ?_⟩
  simp only [maxNesting]
  omega

/-- Whenever an instance of an alias for an object type of properties is made after the alias was read,
its members are those that the body has when it is read for the arguments. -/
theorem members_expanded (p : Program) {c₀ c : Checker} (rest : c₀.AtRest p)
    (direct : DirectAlias c₀.bindings s file decl properties d) (undeclared : c₀.declared[s]? = none)
    (unread : c₀.typeParams[s]? = none) (leads : Leads p ((Check.declaredType s).outcome p c₀).2 c)
    (length : args.length = decl.typeParams.length) (concrete : ∀ t ∈ args, c.Concrete t) :
    let made := (aliasInstance calls s args).outcome p c
    let shown := (Check.members made.1).outcome p made.2
    let body := (calls.ask (.lower (bodyScope c.bindings s file decl args) decl.type)).outcome p shown.2
    shown.1 = ((Check.members body.1).outcome p body.2).1 := by
  obtain ⟨k, deep⟩ := calls_deep_enough direct.shallow
  obtain ⟨ids, first⟩ := readAs_declaredType rest.ready direct undeclared unread k
  rw [← deep] at first
  have known : Request.About c₀ (.declaredType s) := direct.known
  have last : c.AtRest p := (Leads.ask rest (.declaredType s) known).trans leads
  obtain ⟨since, later⟩ : Since c₀.arena.size ((Check.declaredType s).outcome p c₀).2 c ∧ _ := leads.since
  have read := ReadAs.later first since later
  have whole : DirectAlias c.bindings s file decl properties d :=
    direct.later ((Since.outcome c₀.arena.size (Check.declaredType s) p c₀).trans since).bindings
  obtain ⟨-, undeclared⟩ := last.idle
  have free : s ∉ c.declaring := by simp [undeclared]
  have given : ArgsFor c.arena.size c decl args :=
    ⟨length, fun t listed => ⟨(concrete t listed).inside, concrete t listed⟩⟩
  have inst := instanceFor_aliasInstance last.ready whole read free given (k + 4 + d)
  have after : Since c.arena.size c ((aliasInstance calls s args).outcome p c).2 := .outcome _ _ p c
  rw [show k + 4 + d + 1 + 1 + 1 = k + 5 + d + 1 + 1 by omega, ← deep] at inst
  have same := members_instanceFor inst (whole.later after.bindings) (given.later after) c.bindings (k + 1)
  rw [show k + 1 + 5 + d + 1 = k + 5 + d + 1 + 1 by omega, ← deep] at same
  dsimp only at same ⊢
  simp only [outcome_members]
  exact same

/-- The properties of a cell of `T` under `K`, which may be empty. -/
def cellProperties : List PropertyExpr :=
  [⟨"value", some (.union [.indexed (nameExpr "T") (nameExpr "K"), .stringLiteral "empty"]), true, false,
      { description := some "held" }⟩,
    ⟨"keys", some (.keyOf (nameExpr "T")), false, false, {}⟩, ⟨"of", some (nameExpr "T"), false, true, {}⟩]

/-- The alias for such cells. -/
def cellAlias : AliasDecl :=
  ⟨"Cell", [⟨"T", none, none⟩, ⟨"K", none, none⟩], .members (cellProperties.map (·.member))⟩

/-- The alias, one for an object type with members `a` and `b`, and one for the name `b`. -/
def cells : Program :=
  let item (decl : AliasDecl) : Item := ⟨0, 0, none, {}, .exportDecl (.typeAlias decl)⟩
  let shelf : List TypeMember := [.property "a" (some (.intrinsic .number)) false false {},
    .property "b" (some (.intrinsic .string)) false false {}]
  { files := #[⟨⟨"/a.ts", #[], [item cellAlias, item ⟨"Shelf", [], .members shelf⟩,
      item ⟨"Key", [], .stringLiteral "b"⟩]⟩, "/a.ts", true⟩] }

/-- The state after all of them were read. -/
def celled : Checker :=
  let first := ((Request.declaredType ⟨0⟩).ask.outcome cells (ofProgram cells)).2
  let second := ((Request.declaredType ⟨1⟩).ask.outcome cells first).2
  ((Request.declaredType ⟨2⟩).ask.outcome cells second).2

set_option maxRecDepth 20000 in
/-- How the alias is declared, that the others are there when they are asked for, and that the object
type and the name stand for one type each. -/
theorem cells_read :
    let first := ((Request.declaredType ⟨0⟩).ask.outcome cells (ofProgram cells)).2
    let second := ((Request.declaredType ⟨1⟩).ask.outcome cells first).2
    ((ofProgram cells).bindings.kind? ⟨0⟩ = some .typeAlias ∧
      ((ofProgram cells).bindings.decls ⟨0⟩).findSome? aliasDecl? = some (⟨0⟩, cellAlias) ∧
      ((ofProgram cells).bindings.decls ⟨0⟩).find?
        (fun x => !(writtenTypeParams x.node).isEmpty) = some ⟨⟨0⟩, {}, .typeAlias cellAlias⟩) ∧
    ((ofProgram cells).declared[(⟨0⟩ : SymbolId)]? = none ∧
      (ofProgram cells).typeParams[(⟨0⟩ : SymbolId)]? = none) ∧
    ((first.bindings.symbol? ⟨1⟩).isSome ∧ (second.bindings.symbol? ⟨2⟩).isSome) ∧
    (22 < celled.arena.size ∧ (celled.arena.data ⟨22⟩).isSingle = true) ∧
    25 < celled.arena.size ∧ (celled.arena.data ⟨25⟩).isSingle = true := by
  cbv

set_option maxRecDepth 20000 in
/-- The cell of the object under `b` has the members that its body has for the object and `b`. -/
theorem celled_members :
    let made := (aliasInstance calls ⟨0⟩ [⟨22⟩, ⟨25⟩]).outcome cells celled
    let shown := (Check.members made.1).outcome cells made.2
    let body := (calls.ask (.lower (bodyScope celled.bindings ⟨0⟩ ⟨0⟩ cellAlias [⟨22⟩, ⟨25⟩])
      cellAlias.type)).outcome cells shown.2
    shown.1 = ((Check.members body.1).outcome cells body.2).1 := by
  let array? : Option SymbolId := (ofProgram cells).bindings.global.get? .type "Array"
  have held : DirectExpr ["T", "K"] array? 0 (.indexed (nameExpr "T") (nameExpr "K")) :=
    .indexed (by decide) (.param (by decide))
  have value : DirectExpr ["T", "K"] array? 1
      (.union [.indexed (nameExpr "T") (nameExpr "K"), .stringLiteral "empty"]) :=
    @DirectExpr.union _ _ 0 [] [.stringLiteral "empty"] _ held rfl
      (List.forall_mem_singleton.mpr rfl) (List.cons_ne_nil _ _)
  have keys : DirectExpr ["T", "K"] array? 1 (.keyOf (nameExpr "T")) := .key (.keyOf (by decide))
  have of : DirectExpr ["T", "K"] array? 1 (nameExpr "T") := .key (.param (by decide))
  obtain ⟨⟨kind, declares, declaration⟩, ⟨undeclared, unread⟩, symbols, object, name⟩ := cells_read
  have direct : DirectAlias (ofProgram cells).bindings ⟨0⟩ ⟨0⟩ cellAlias cellProperties 1 := by
    refine ⟨kind, declares, ⟨_, declaration, rfl⟩, rfl, ?_, by decide⟩
    simp only [cellProperties, List.forall_mem_cons, PropertyExpr.annotation, Option.getD_some]
    exact ⟨value, keys, of, List.forall_mem_nil _⟩
  have first : Request.About (ofProgram cells) (.declaredType ⟨0⟩) := direct.known
  have rest : (ofProgram cells).AtRest cells := .refl _
  have second : Request.About ((Request.declaredType ⟨0⟩).ask.outcome cells (ofProgram cells)).2
      (.declaredType ⟨1⟩) := known_symbol_iff.mpr symbols.1
  have third : Request.About ((Request.declaredType ⟨1⟩).ask.outcome cells
      ((Request.declaredType ⟨0⟩).ask.outcome cells (ofProgram cells)).2).2
      (.declaredType ⟨2⟩) := known_symbol_iff.mpr symbols.2
  have leads : Leads cells ((Check.declaredType ⟨0⟩).outcome cells (ofProgram cells)).2 celled :=
    .ask (.ask (.refl _) (.declaredType ⟨1⟩) second) (.declaredType ⟨2⟩) third
  have concrete : ∀ t ∈ [(⟨22⟩ : TypeId), ⟨25⟩], celled.Concrete t := by
    simp only [List.forall_mem_cons]
    exact ⟨.of_single object.1 object.2, .of_single name.1 name.2, List.forall_mem_nil _⟩
  exact members_expanded cells rest direct undeclared unread leads rfl concrete

/-- An alias for what is held under `b` in what is held under `a`: the outer access is not written right
before the type parameter. -/
def nestedAlias : AliasDecl :=
  ⟨"Nested", [⟨"T", none, none⟩], .members [.property "v" (some (.indexed
    (.indexed (nameExpr "T") (.stringLiteral "a")) (.stringLiteral "b"))) false false {}]⟩

/-- The alias, and one for an object that holds an object with a string. -/
def nests : Program :=
  let item (decl : AliasDecl) : Item := ⟨0, 0, none, {}, .exportDecl (.typeAlias decl)⟩
  let inner : TypeExpr := .members [.property "b" (some (.intrinsic .string)) false false {}]
  { files := #[⟨⟨"/a.ts", #[], [item nestedAlias,
      item ⟨"Outer", [], .members [.property "a" (some inner) false false {}]⟩]⟩, "/a.ts", true⟩] }

/-- The state after the object type was read. -/
def nested : Checker := ((Request.declaredType ⟨1⟩).ask.outcome nests (ofProgram nests)).2

set_option maxRecDepth 20000 in
/-- An access to an access is worked out before the argument is known, and is of any type then. Read for
the object right away, it is the string. -/
theorem nested_members_differ :
    let made := (aliasInstance calls ⟨0⟩ [⟨14⟩]).outcome nests nested
    let shown := (Check.members made.1).outcome nests made.2
    let body := (calls.ask (.lower (bodyScope nested.bindings ⟨0⟩ ⟨0⟩ nestedAlias [⟨14⟩])
      nestedAlias.type)).outcome nests shown.2
    nested.arena.data ⟨14⟩ = .object { members := [⟨"a", ⟨15⟩, false, false, ""⟩] } ∧
      nested.arena.data ⟨15⟩ = .object { members := [⟨"b", Arena.intrinsicId .string, false, false, ""⟩] } ∧
      shown.1 = [⟨"v", Arena.anyId, false, false, ""⟩] ∧
      ((Check.members body.1).outcome nests body.2).1 =
        [⟨"v", Arena.intrinsicId .string, false, false, ""⟩] := by
  cbv

end Checker

end ApiDocs
