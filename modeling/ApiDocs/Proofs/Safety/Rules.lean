import ApiDocs.Proofs.Safety.Sound

set_option autoImplicit false

/-!
Work that keeps a checker sound. Every way to change the state keeps it sound, as long as what is
put in is known; what is put together from these does so as well.
-/

namespace ApiDocs

open Syntax

/-! ### Safe work -/

/-- From a state on, work keeps a checker sound, and its answer is known. -/
class Check.Safe {α : Type} [Mentions α] (p : Program) (c : Checker) (m : Check α) : Prop where
  outcome : ∀ c', c.Before c' → c'.Sound p →
    (m.outcome p c').2.Sound p ∧ Known (m.outcome p c').2 (m.outcome p c').1

namespace Check

theorem before {α : Type} (m : Check α) (p : Program) (c : Checker) : c.Before (m.outcome p c).2 :=
  (m.kept p c).before

section

variable {α β : Type} [Mentions α] [Mentions β] {p : Program} {c : Checker}

instance (priority := low) safe_later {c' : Checker} {m : Check α} [before : c.Before c']
    [safe : Safe p c m] : Safe p c' m :=
  ⟨fun c'' after => safe.outcome c'' (before.trans after)⟩

instance safe_pure {a : α} [known : Known c a] : Safe p c (pure a) :=
  ⟨fun _ before sound => ⟨sound, known.later before⟩⟩

theorem Safe.bind {m : Check α} {f : α → Check β} [safe : Safe p c m]
    (next : ∀ (a : α) (c' : Checker) [c.Before c'] [Known c' a], Safe p c' (f a)) :
    Safe p c (m >>= f) := by
  refine ⟨fun c' before sound => ?_⟩
  obtain ⟨after, known⟩ := safe.outcome c' before sound
  have grown : c.Before (m.outcome p c').2 := before.trans (m.before p c')
  rw [outcome_bind]
  exact (next (m.outcome p c').1 (m.outcome p c').2).outcome _ (.refl _) after

/-- The rule for a first part that instance search does not find. -/
theorem Safe.andThen {m : Check α} {f : α → Check β} (safe : Safe p c m)
    (next : ∀ (a : α) (c' : Checker) [c.Before c'] [Known c' a], Safe p c' (f a)) :
    Safe p c (m >>= f) := .bind next

/-- Work that looks at the state. -/
theorem Safe.state {f : Checker → Check β}
    (next : ∀ (c' : Checker) [c.Before c'], c'.Sound p → Safe p c' (f c')) :
    Safe p c (Check.state >>= f) :=
  ⟨fun c' _ sound => (next c' sound).outcome c' (.refl c') sound⟩

theorem Safe.map {m : Check α} {f : α → β} [safe : Safe p c m]
    (next : ∀ (a : α) (c' : Checker) [c.Before c'] [Known c' a], Known c' (f a)) :
    Safe p c (f <$> m) := by
  rw [← bind_pure_comp]
  refine .bind fun a c' _ _ => ?_
  have known := next a c'
  infer_instance

instance safe_map_some {m : Check α} [Safe p c m] : Safe p c (some <$> m) :=
  .map fun _ _ _ _ => inferInstance

instance safe_read : Safe p c (read : Check Program) := ⟨fun _ _ sound => ⟨sound, inferInstance⟩⟩

instance safe_ite {condition : Prop} [Decidable condition] {first second : Check α}
    [yes : Safe p c first] [no : Safe p c second] :
    Safe p c (if condition then first else second) := by
  split
  · exact yes
  · exact no

theorem Safe.mapM {f : α → Check β} {list : List α} [known : Known c list]
    (each : ∀ (x : α) (c' : Checker) [c.Before c'] [Known c' x], Safe p c' (f x)) :
    Safe p c (list.mapM f) := by
  induction list generalizing c with
  | nil =>
      rw [List.mapM_nil]
      infer_instance
  | cons x rest ih =>
      have first : Known c x := known.mem List.mem_cons_self
      have others : Known c rest := known.sublist fun _ => List.mem_cons_of_mem _
      have step : Safe p c (f x) := by
        have start : c.Before c := .refl c
        exact each x c
      rw [List.mapM_cons]
      refine .bind fun b c₁ before _ => ?_
      have all : Safe p c₁ (rest.mapM f) := ih fun y c₂ second _ => by
        have both : c.Before c₂ := before.trans second
        exact each y c₂
      exact .bind fun bs c₂ _ _ => inferInstance

theorem Safe.foldlM {f : β → α → Check β} {list : List α} {b : β} [all : Known c list]
    [start : Known c b]
    (each : ∀ (b : β) (x : α) (c' : Checker) [c.Before c'] [Known c' b] [Known c' x],
      Safe p c' (f b x)) : Safe p c (list.foldlM f b) := by
  induction list generalizing c b with
  | nil =>
      rw [List.foldlM_nil]
      infer_instance
  | cons x rest ih =>
      have first : Known c x := all.mem List.mem_cons_self
      have others : Known c rest := all.sublist fun _ => List.mem_cons_of_mem _
      have step : Safe p c (f b x) := by
        have start : c.Before c := .refl c
        exact each b x c
      rw [List.foldlM_cons]
      refine .bind fun b' c₁ before _ => ?_
      refine ih fun b'' y c₂ second _ _ => ?_
      have both : c.Before c₂ := before.trans second
      exact each b'' y c₂

theorem Safe.filterMapM {f : α → Check (Option β)} {list : List α} [all : Known c list]
    (each : ∀ (x : α) (c' : Checker) [c.Before c'] [Known c' x], Safe p c' (f x)) :
    Safe p c (list.filterMapM f) := by
  induction list generalizing c with
  | nil =>
      rw [List.filterMapM_nil]
      infer_instance
  | cons x rest ih =>
      have first : Known c x := all.mem List.mem_cons_self
      have others : Known c rest := all.sublist fun _ => List.mem_cons_of_mem _
      have step : Safe p c (f x) := by
        have start : c.Before c := .refl c
        exact each x c
      rw [List.filterMapM_cons]
      refine .bind fun b c₁ before known => ?_
      have all : Safe p c₁ (rest.filterMapM f) := ih fun y c₂ second _ => by
        have both : c.Before c₂ := before.trans second
        exact each y c₂
      cases b with
      | none => exact all
      | some b =>
          have here : Known c₁ b := known.of_some
          exact .bind fun bs c₂ _ _ => inferInstance

theorem Safe.mapM_option {f : α → Check β} {o : Option α} [known : Known c o]
    (each : ∀ x : α, [Known c x] → Safe p c (f x)) : Safe p c (o.mapM f) := by
  cases o with
  | none => exact safe_pure
  | some x =>
      have here : Known c x := known.of_some
      have step := each x
      exact Safe.map (f := some) fun b c' _ _ => inferInstance

end

/-! ### Types -/

section

variable {p : Program} {c : Checker}

theorem safe_withArena {f : Arena → TypeId × Arena} {grows : ∀ a : Arena, a.Extends (f a).2}
    (makes : ∀ c', c.Before c' → c'.Sound p → Arena.Makes c' c'.arena (f c'.arena)) :
    Safe p c (withArena f grows) := by
  refine ⟨fun c' before sound => ?_⟩
  have made := makes c' before sound
  exact ⟨sound.withArena made.grows made.houses, known_type_iff.mpr made.inside⟩

instance safe_addInfo {info : TypeInfo} [known : Known c info] : Safe p c (addInfo info) :=
  safe_withArena fun _ before sound => Arena.makes_addInfo sound.houses (known.later before)

instance safe_add {data : TypeData} [known : Known c data] : Safe p c (add data) :=
  safe_withArena fun _ before sound => Arena.makes_add sound.houses (known.later before)

instance safe_tuple {items : List TypeId} [known : Known c items] : Safe p c (tuple items) :=
  safe_withArena fun _ before sound =>
    Arena.makes_add sound.houses (known_tuple_iff.mpr (known.later before))

instance safe_object {shape : Shape} [known : Known c shape] : Safe p c (object shape) :=
  safe_withArena fun _ before sound =>
    Arena.makes_add sound.houses (known_object_iff.mpr (known.later before))

instance safe_reference {s : SymbolId} {args : List TypeId} [first : Known c s]
    [second : Known c args] : Safe p c (reference s args) :=
  safe_withArena fun _ before sound => Arena.makes_intern sound.houses _
    (known_reference_iff.mpr ⟨first.later before, second.later before⟩)

instance safe_stringLiteral {value : String} : Safe p c (stringLiteral value) :=
  safe_withArena fun _ _ sound => Arena.makes_intern sound.houses _ inferInstance

instance safe_numberLiteral {text : String} : Safe p c (numberLiteral text) :=
  safe_withArena fun _ _ sound => Arena.makes_intern sound.houses _ inferInstance

instance safe_booleanLiteral {value : Bool} : Safe p c (booleanLiteral value) :=
  safe_withArena fun _ _ sound => Arena.makes_intern sound.houses _ inferInstance

theorem inside_of_known {types : List TypeId} (known : Known c types) :
    ∀ t ∈ types, t.index < c.arena.size := fun _ listed => known_type_iff.mp (known.mem listed)

instance safe_union {members : List TypeId} [known : Known c members] : Safe p c (union members) :=
  safe_withArena fun _ before sound =>
    Arena.makes_union sound.houses (inside_of_known (known.later before))

instance safe_intersection {members : List TypeId} [known : Known c members] :
    Safe p c (intersection members) :=
  safe_withArena fun _ before sound =>
    Arena.makes_intersection sound.houses (inside_of_known (known.later before))

instance safe_widen {t : TypeId} [known : Known c t] : Safe p c (widen t) :=
  safe_withArena fun _ before sound =>
    Arena.makes_widen sound.houses (known_type_iff.mp (known.later before))

instance safe_unresolved {name : String} {args : List TypeId} [Known c args] :
    Safe p c (unresolved name args) := by
  unfold unresolved
  infer_instance

instance safe_callable {signature : Signature} [Known c signature] :
    Safe p c (callable signature) := by
  unfold callable
  infer_instance

section

variable {t : TypeId} [known : Known c t]

instance safe_info : Safe p c (info t) := by
  refine ⟨fun c' before sound => ⟨sound, ?_⟩⟩
  exact sound.infos t (known_type_iff.mp (known.later before))

instance safe_data : Safe p c (data t) := by
  refine ⟨fun c' before sound => ⟨sound, ?_⟩⟩
  exact (known_info_iff.mp (sound.infos t (known_type_iff.mp (known.later before)))).1

instance safe_alias? : Safe p c (alias? t) := by
  refine ⟨fun c' before sound => ⟨sound, ?_⟩⟩
  exact (known_info_iff.mp (sound.infos t (known_type_iff.mp (known.later before)))).2

end

instance safe_isBoolean {t : TypeId} : Safe p c (isBoolean t) :=
  ⟨fun _ _ sound => ⟨sound, inferInstance⟩⟩

/-! ### Symbols -/

instance safe_kind? {s : SymbolId} : Safe p c (kind? s) :=
  ⟨fun _ _ sound => ⟨sound, inferInstance⟩⟩

instance safe_nameOf {s : SymbolId} : Safe p c (nameOf s) :=
  ⟨fun _ _ sound => ⟨sound, inferInstance⟩⟩

instance safe_decls {s : SymbolId} : Safe p c (decls s) :=
  ⟨fun _ _ sound => ⟨sound, inferInstance⟩⟩

/-- The namespace of a symbol is there, for it came before the symbol. -/
theorem known_parent? {c : Checker} (sound : c.Sound p) (s : SymbolId) :
    Known c (c.bindings.parent? s) := by
  refine known_option_iff.mpr fun holder within => known_symbol_iff.mpr ?_
  obtain ⟨x, found, parent⟩ := Option.bind_eq_some_iff.mp within
  have earlier := sound.bindings.parent s x holder found parent
  have inside := Bindings.index_lt_of_symbol? found
  exact Option.isSome_iff_exists.mpr
    ⟨_, Array.getElem?_eq_getElem (Nat.lt_trans earlier inside)⟩

/-- Whatever a table names is there. -/
theorem known_table {c : Checker} (sound : c.Sound p) (t : Bindings.Table) (space : Space)
    (name : String) : Known c ((c.bindings.table t).get? space name) := by
  refine known_option_iff.mpr fun s named => known_symbol_iff.mpr ?_
  obtain ⟨x, found, _⟩ := sound.bindings.tables t space name s named
  exact Option.isSome_iff_exists.mpr ⟨x, found⟩

instance safe_parent? {s : SymbolId} : Safe p c (parent? s) :=
  ⟨fun _ _ sound => ⟨sound, known_parent? sound s⟩⟩

instance safe_global? {space : Space} {name : String} : Safe p c (global? space name) :=
  ⟨fun _ _ sound => ⟨sound, known_table sound .global space name⟩⟩

instance safe_scopeIn {file : FileId} {s : SymbolId} : Safe p c (scopeIn file s) := by
  unfold scopeIn
  exact .bind fun _ _ _ _ => inferInstance

instance safe_lookup {scope : TypeScope} {space : Space} {name : String} :
    Safe p c (lookup scope space name) := by
  refine ⟨fun c' _ sound => ⟨sound, known_option_iff.mpr fun s found => ?_⟩⟩
  simp only [lookup, outcome_bind, outcome_state, outcome_pure, Bindings.lookup, Option.mem_def,
    Option.orElse_eq_orElse, Option.orElse_eq_or, Option.or_eq_some_iff] at found
  rcases found with inside | ⟨_, local_ | ⟨_, global⟩⟩
  · obtain ⟨holder, _, here⟩ := List.exists_of_findSome?_eq_some inside
    obtain ⟨x, there, named⟩ := Option.bind_eq_some_iff.mp here
    refine known_option_iff.mp (known_table sound (.members holder) space name) s ?_
    simp only [Bindings.table, there, Option.map_some, Option.getD_some]
    exact named
  · obtain ⟨_, named⟩ := Option.ite_none_right_eq_some.mp local_
    exact known_option_iff.mp (known_table sound (.file scope.file) space name) s named
  · exact known_option_iff.mp (known_table sound .global space name) s global

instance safe_symbol? {s : SymbolId} : Safe p c (symbol? s) := by
  refine ⟨fun c' _ sound => ⟨sound, known_option_iff.mpr fun x found => ?_⟩⟩
  have parent : Known c' x.parent := by
    have whole := known_parent? sound s
    have found : c'.bindings.symbol? s = some x := found
    simp only [Bindings.parent?, found, Option.bind_some] at whole
    exact whole
  have entries : ∀ (m : OrdMap String SymbolId) (space : Space),
      (∀ name, m.get? name = (c'.bindings.table (.members s)).get? space name) →
      Known c' m.values := by
    intro m space same
    refine known_list_iff.mpr fun r listed => ?_
    obtain ⟨name, entry⟩ := (OrdMap.mem_values_iff m r).mp listed
    have named := known_table sound (.members s) space name
    rw [← same name, (OrdMap.get?_eq_some_iff m name r).mpr entry] at named
    exact named.of_some
  have table : c'.bindings.table (.members s) = x.members := by
    have found : c'.bindings.symbol? s = some x := found
    simp only [Bindings.table, found, Option.map_some, Option.getD_some]
  have types := entries x.members.types .type fun _ => by rw [table]; rfl
  have values := entries x.members.values .value fun _ => by rw [table]; rfl
  exact ((inferInstance : Known c' (x.parent, x.members.types.values, x.members.values.values))).part
    (fun _ h => h) fun _ h => h

theorem safe_withBindings {f : Program → Bindings → Option SymbolId × Bindings}
    {grows : ∀ p (b : Bindings), b.Extends (f p b).2}
    (follows : ∀ b : Bindings, Bindings.Follows p b (f p b).2)
    (there : ∀ b : Bindings, b.Proper p → ∀ s, (f p b).1 = some s → ((f p b).2.symbol? s).isSome) :
    Safe p c (withBindings f grows) := by
  refine ⟨fun c' _ sound => ⟨sound.withBindings (follows c'.bindings), ?_⟩⟩
  refine known_option_iff.mpr fun s found => known_symbol_iff.mpr ?_
  exact there c'.bindings sound.bindings s found

theorem answer_there {b : Bindings} (proper : b.Proper p) {l : Bindings.Lookup} {s : SymbolId}
    (answered : (l.answer p b).1 = some s) : ((l.answer p b).2.symbol? s).isSome := by
  obtain ⟨x, found, _⟩ := proper.answer_plain answered
  exact Option.isSome_iff_exists.mpr ⟨x, found⟩

instance safe_resolveAlias {s : SymbolId} {space : Space} : Safe p c (resolveAlias s space) :=
  safe_withBindings (fun b => b.follows_resolveAlias p s space)
    fun _ proper _ found => answer_there proper (l := .aliased s space) found

instance safe_exportOf {file : FileId} {space : Space} {name : String} :
    Safe p c (exportOf file space name) :=
  safe_withBindings (fun b => b.follows_exportOf p file space name)
    fun _ proper _ found => answer_there proper (l := .exported file space name) found

theorem member_there {b : Bindings} (proper : b.Proper p) {container s : SymbolId} {space : Space}
    {name : String} (found : (b.member p container space name).1 = some s) :
    ((b.member p container space name).2.symbol? s).isSome := by
  have first := (b.follows_resolveAlias p container space).proper proper
  revert found
  unfold Bindings.member
  split
  · exact nofun
  · rename_i holder b' answered
    rw [answered] at first
    split
    · exact nofun
    · rename_i x there
      split
      · intro found
        have named : (b'.table (.members holder)).get? space name = some s := by
          simp only [Bindings.table, there, Option.map_some, Option.getD_some]
          exact found
        obtain ⟨y, known, _⟩ := first.tables (.members holder) space name s named
        exact Option.isSome_iff_exists.mpr ⟨y, known⟩
      · intro found
        exact answer_there first (l := .exported _ space name) found
      · rename_i module _ _
        intro found
        cases found
        have made := Referent.isSymbol_symbolFor first (.external module name)
        exact Option.isSome_iff_exists.mpr ⟨_, made.2⟩
      · exact nofun

instance safe_member {container : SymbolId} {space : Space} {name : String} :
    Safe p c (member container space name) :=
  safe_withBindings (fun b => b.follows_member p container space name)
    fun _ proper _ found => member_there proper found

instance safe_resolveEntity {scope : TypeScope} {name : Entity} {space : Space} :
    Safe p c (resolveEntity scope name space) := by
  induction name generalizing c space with
  | ident name =>
      unfold resolveEntity
      infer_instance
  | qualified left name ih =>
      unfold resolveEntity
      have asValue : Safe p c (resolveEntity scope left .value) := ih
      have inside : ∀ (container : Option SymbolId) (c' : Checker), Safe p c' (match container with
          | some s => member s space name
          | none => pure none) := by
        intro container c'
        cases container with
        | some s => exact safe_member
        | none => exact safe_pure
      refine .bind fun found c₁ _ known => ?_
      cases found with
      | some s => exact .bind fun container c₂ _ _ => inside container c₂
      | none =>
          have asType : Safe p c₁ (resolveEntity scope left .type) := ih
          exact .bind fun container c₂ _ _ => inside container c₂

/-! ### Answers that are kept -/

theorem known_anyId {c : Checker} (sound : c.Sound p) : Known c Arena.anyId :=
  known_type_iff.mpr (Nat.lt_of_lt_of_le (by decide) sound.base)

end

/-- What is known after a question was answered. -/
theorem find?_leave_cases {κ α : Type} [BEq κ] [Hashable κ] [LawfulBEq κ] [LawfulHashable κ]
    {m : Memo κ α} {k other : κ} {a x : α} (found : (m.leave k a).find? other = some x) :
    (other = k ∧ x = a) ∨ m.find? other = some x := by
  by_cases same : other = k
  · rw [same, Memo.find?_leave_self] at found
    exact Or.inl ⟨same, (Option.some.inj found).symm⟩
  · rw [Memo.find?_leave_other _ _ _ _ same] at found
    exact Or.inr found

section

variable {p : Program} {c : Checker}

/-- Only tables change. -/
structure Tabled (p : Program) (c c' : Checker) : Prop where
  before : c.Before c'
  sound : c'.Sound p

theorem tabled {c c' : Checker} (sound : c.Sound p) (holds : Checker.Holds c c')
    (arena : c'.arena = c.arena) (bindings : c'.bindings = c.bindings)
    (offers : ∀ (s : SymbolId) (t : TypeId), c'.values.find? s = some t → c'.Offers s t) :
    Tabled p c c' where
  before := Checker.Sound.before_of_eq arena bindings
  sound := sound.withTables arena bindings holds offers

/-- Other tables than those of values and of members. -/
theorem tabled_beside {c c' : Checker} (sound : c.Sound p) (holds : Checker.Holds c c')
    (arena : c'.arena = c.arena) (bindings : c'.bindings = c.bindings)
    (values : ∀ s : SymbolId, c'.values.find? s = c.values.find? s)
    (shapes : ∀ t : TypeId, c'.shapes.find? t = c.shapes.find? t) : Tabled p c c' := by
  refine tabled sound holds arena bindings fun s t found => ?_
  rw [values] at found
  refine (sound.offers s t found).mono (fun k kind => Or.inl (bindings ▸ kind)) fun shape here => ?_
  refine ⟨by rw [arena]; exact here.data, fun other known => here.kept other ?_⟩
  rwa [shapes] at known

/-- What is put down when an answer is found is known, given what was known when it was asked for. -/
theorem safe_once {κ α : Type} [BEq κ] [Hashable κ] [Mentions α] {memo : Checker → Memo κ α}
    {withMemo : Checker → Memo κ α → Checker} {k : κ} {meanwhile : α} {m : Check α}
    {bracket : ∀ p c, (memo c).find? k = none → (memo c).isRunning k = false →
      let r := m.outcome p (withMemo c ((memo c).enter k))
      Work c.arena.size c (withMemo r.2 ((memo r.2).leave k r.1))} [safe : Safe p c m]
    (kept : ∀ c' a, c'.Sound p → (memo c').find? k = some a → Known c' a)
    (waiting : ∀ c', c.Before c' → c'.Sound p → Known c' meanwhile)
    (entered : ∀ c', c'.Sound p → Tabled p c' (withMemo c' ((memo c').enter k)))
    (left : ∀ start, c.Before start → start.Sound p →
      let r := m.outcome p start
      r.2.Sound p → Known r.2 r.1 → Tabled p r.2 (withMemo r.2 ((memo r.2).leave k r.1))) :
    Safe p c (once memo withMemo k meanwhile m bracket) := by
  refine ⟨fun c' before sound => ?_⟩
  dsimp only [once]
  split
  · rename_i answer known
    exact ⟨sound, kept c' answer sound known⟩
  · split
    · exact ⟨sound, waiting c' before sound⟩
    · have inside := entered c' sound
      have start := before.trans inside.before
      obtain ⟨after, answer⟩ := safe.outcome _ start inside.sound
      have outside := left _ start inside.sound after answer
      exact ⟨outside.sound, answer.later outside.before⟩

/-- A value is kept that offers what its symbol promises. -/
theorem safe_valueOnce {s : SymbolId} {m : Check TypeId} [Safe p c m]
    (offers : ∀ start, c.Before start → start.Sound p →
      (m.outcome p start).2.Offers s (m.outcome p start).1) : Safe p c (valueOnce s m) := by
  refine safe_once (fun c' t sound known => sound.holds.values s t known)
    (fun c' _ sound => known_anyId sound)
    (fun c' sound => tabled_beside sound { sound.holds with } rfl rfl (fun _ => rfl) fun _ => rfl)
    fun start before sound after known => ?_
  refine tabled after { after.holds with values := fun other t found => ?_ } rfl rfl
    fun other t found => ?_
  · rcases find?_leave_cases found with ⟨_, rfl⟩ | earlier
    · exact known
    · exact after.holds.values other t earlier
  · have here : (m.outcome p start).2.Offers other t := by
      rcases find?_leave_cases found with ⟨rfl, rfl⟩ | earlier
      · exact offers start before sound
      · exact after.offers other t earlier
    exact here.mono (fun _ kind => Or.inl kind) fun _ object => ⟨object.data, object.kept⟩

instance safe_structureOnce {s : SymbolId} {m : Check Shape} [Safe p c m] :
    Safe p c (structureOnce s m) := by
  refine safe_once (fun c' shape sound known => sound.holds.structures s shape known)
    (fun c' _ _ => inferInstance)
    (fun c' sound => tabled_beside sound { sound.holds with } rfl rfl (fun _ => rfl) fun _ => rfl)
    fun start _ _ after known => ?_
  refine tabled_beside after { after.holds with structures := fun other shape found => ?_ } rfl rfl
    (fun _ => rfl) fun _ => rfl
  rcases find?_leave_cases found with ⟨_, rfl⟩ | earlier
  · exact known
  · exact after.holds.structures other shape earlier

instance safe_shapeOnce {t : TypeId} {m : Check Shape}
    {denotes : ∀ p c, Denotes c.arena (m.outcome p c).2 t (m.outcome p c).1} [asked : Known c t]
    [Safe p c m] : Safe p c (shapeOnce t m denotes) := by
  refine safe_once (fun c' shape sound known => (sound.holds.shapes t shape known).2)
    (fun c' _ _ => inferInstance)
    (fun c' sound => tabled_beside sound { sound.holds with } rfl rfl (fun _ => rfl) fun _ => rfl)
    fun start before sound after known => ?_
  have there : Known start t := asked.later before
  refine tabled after { after.holds with shapes := fun other shape found => ?_ } rfl rfl
    fun s u found => ?_
  · rcases find?_leave_cases found with ⟨rfl, rfl⟩ | earlier
    · exact ⟨there.later (m.before p start), known⟩
    · exact after.holds.shapes other shape earlier
  · refine (after.offers s u found).mono (fun _ kind => Or.inl kind) fun shape object => ?_
    refine ⟨object.data, fun members found => ?_⟩
    rcases find?_leave_cases found with ⟨rfl, rfl⟩ | earlier
    · -- The type was there when its members were asked for, and was that object already.
      have info := (m.kept p start).info u (known_type_iff.mp there)
      exact (denotes p start).object shape ((Arena.data_eq info).symm.trans object.data)
    · exact object.kept members earlier

instance safe_evaluateOnce {t : TypeId} {m : Check TypeId}
    {plain : ∀ p c, (c.arena.data t).isOperator = false → (m.outcome p c).1 = t}
    [asked : Known c t] [Safe p c m] : Safe p c (evaluateOnce t m plain) := by
  refine safe_once (fun c' r sound known => (sound.holds.evaluated t r known).2)
    (fun c' before _ => asked.later before)
    (fun c' sound => tabled_beside sound { sound.holds with } rfl rfl (fun _ => rfl) fun _ => rfl)
    fun start before _ after known => ?_
  refine tabled_beside after { after.holds with evaluated := fun other r found => ?_ } rfl rfl
    (fun _ => rfl) fun _ => rfl
  rcases find?_leave_cases found with ⟨rfl, rfl⟩ | earlier
  · exact ⟨(asked.later before).later (m.before p start), known⟩
  · exact after.holds.evaluated other r earlier

instance safe_elementOnce {m : Check (Option TypeId)} [safe : Safe p c m] :
    Safe p c (elementOnce m) := by
  refine ⟨fun c' before sound => ?_⟩
  dsimp only [elementOnce]
  split
  · rename_i found known
    exact ⟨sound, sound.holds.elementType found known⟩
  · obtain ⟨after, answer⟩ := safe.outcome c' before sound
    have outside : Tabled p (m.outcome p c').2
        { (m.outcome p c').2 with elementType := some (m.outcome p c').1 } := by
      refine tabled_beside after { after.holds with elementType := fun found known => ?_ } rfl rfl
        (fun _ => rfl) fun _ => rfl
      cases known
      exact answer
    exact ⟨outside.sound, answer.later outside.before⟩

/-! ### Declared types -/

/-- An entry for a symbol beside the others. -/
theorem tabled_declare {c : Checker} (sound : c.Sound p) (s : SymbolId) {t : TypeId}
    (known : Known c t) : Tabled p c { c with declared := c.declared.insert s t } := by
  refine tabled_beside sound { sound.holds with declared := fun other r found => ?_ } rfl rfl
    (fun _ => rfl) fun _ => rfl
  rw [Std.HashMap.getElem?_insert] at found
  split at found
  · cases found
    exact known
  · exact sound.holds.declared other r found

instance safe_declareAs {s : SymbolId} {m : Check TypeId} [safe : Safe p c m] :
    Safe p c (declareAs s m) := by
  refine ⟨fun c' before sound => ?_⟩
  dsimp only [declareAs]
  split
  · rename_i t known
    exact ⟨sound, sound.holds.declared s t known⟩
  · obtain ⟨after, answer⟩ := safe.outcome c' before sound
    have outside := tabled_declare after s answer
    exact ⟨outside.sound, answer.later outside.before⟩

/-- A place that is filled anew. -/
theorem tabled_fill {c : Checker} (sound : c.Sound p) {a : Arena} {t : TypeId}
    (size : a.size = c.arena.size) (interned : a.interned = c.arena.interned)
    (others : ∀ other, other ≠ t → a.info other = c.arena.info other)
    (reserved : ∀ shape, c.arena.data t ≠ .object shape)
    (filled : t.index < c.arena.size → Known c (a.info t)) : Tabled p c { c with arena := a } := by
  have before : c.Before { c with arena := a } := ⟨Nat.le_of_eq size.symm, fun _ _ h => h⟩
  refine ⟨before, sound.bindings, size ▸ sound.base, fun other inside => ?_, fun k r found => ?_,
    (sound.holds.later before).same, fun s u found => ?_⟩
  · dsimp only at inside
    rw [size] at inside
    by_cases same : other = t
    · rw [same] at inside ⊢
      exact (filled inside).later before
    · dsimp only
      rw [others other same]
      exact (sound.infos other inside).later before
  · dsimp only at found
    rw [interned] at found
    exact (sound.interned k r found).later before
  · refine (sound.offers s u found).mono (fun _ kind => Or.inl kind) fun shape object => ?_
    have differs : u ≠ t := fun same => reserved shape (same ▸ object.data)
    exact ⟨(Arena.data_eq (others u differs)).trans object.data, object.kept⟩

theorem info_set_self {a : Arena} {t : TypeId} (info : TypeInfo) (inside : t.index < a.size) :
    (a.set t info).info t = info := by
  have bound : t.index < a.types.size := inside
  simp [Arena.set, Arena.info, bound]

theorem info_setData_self {a : Arena} {t : TypeId} (data : TypeData) (inside : t.index < a.size) :
    (a.setData t data).info t = { a.info t with data } := by
  have bound : t.index < a.types.size := inside
  simp only [Arena.setData, Arena.info, Array.getElem?_modify, if_pos,
    Array.getElem?_eq_getElem bound, Option.map_some, Option.getD_some]

/-- A place is reserved for the type of an alias. -/
theorem tabled_reserving {c : Checker} (sound : c.Sound p) {s : SymbolId} (known : Known c s) :
    Tabled p c (reserving s c) ∧ c.arena.size < (reserving s c).arena.size := by
  have here : Known c (TypeInfo.placeholder s) := by
    unfold TypeInfo.placeholder
    infer_instance
  have placed := Arena.makes_addInfo sound.houses here
  have reserved := sound.withArena placed.grows placed.houses
  have grown : c.Before { c with arena := (c.arena.addInfo (.placeholder s)).2 } :=
    ⟨placed.grows.size, fun _ _ h => h⟩
  have noted := tabled_declare reserved s (known_type_iff.mpr placed.inside)
  exact ⟨{ noted with before := grown.trans noted.before }, placed.inside⟩

theorem safe_declareAlias {s : SymbolId} {body : TypeId → Check (TypeInfo × TypeId)}
    [known : Known c s]
    (read : ∀ (reserved : TypeId) (c' : Checker) [c.Before c'] [Known c' reserved],
      Safe p c' (body reserved)) : Safe p c (declareAlias s body) := by
  refine ⟨fun c' before sound => ?_⟩
  dsimp only [declareAlias]
  split
  · rename_i t found
    exact ⟨sound, sound.holds.declared s t found⟩
  · -- The body is read in a state that has the place reserved for the alias.
    obtain ⟨noted, inside⟩ := tabled_reserving sound (known.later before)
    have start : c.Before (reserving s c') := before.trans noted.before
    have place : Known (reserving s c') (⟨c'.arena.size⟩ : TypeId) := known_type_iff.mpr inside
    obtain ⟨after, answer⟩ := (read ⟨c'.arena.size⟩ (reserving s c')).outcome _ (.refl _) noted.sound
    obtain ⟨info, t⟩ := known_prod_iff.mp answer
    have empty : ∀ shape, ((body ⟨c'.arena.size⟩).outcome p (reserving s c')).2.arena.data
        ⟨c'.arena.size⟩ ≠ .object shape := by
      have still := ((body ⟨c'.arena.size⟩).kept p (reserving s c')).info ⟨c'.arena.size⟩ inside
      have made := Arena.info_addInfo_self c'.arena (.placeholder s)
      intro shape object
      cases (congrArg TypeInfo.data (still.trans made)).symm.trans object
    have filled := tabled_fill after (t := ⟨c'.arena.size⟩) (Arena.size_set _ _ _) rfl
      (fun other differs => Arena.info_set_other _ _ _ _ differs) empty fun inside => by
        rw [info_set_self _ inside]
        exact info
    have declared := tabled_declare filled.sound s (t.later filled.before)
    exact ⟨declared.sound, (t.later filled.before).later declared.before⟩

/-- What is being read is no matter. -/
theorem tabled_declaring {c : Checker} (sound : c.Sound p) (declaring : List SymbolId) :
    Tabled p c { c with declaring } :=
  tabled_beside sound { sound.holds with } rfl rfl (fun _ => rfl) fun _ => rfl

/-- That a question was given up is no matter. -/
theorem tabled_giveUp {c : Checker} (sound : c.Sound p) : Tabled p c { c with gaveUp := true } :=
  tabled_beside sound { sound.holds with } rfl rfl (fun _ => rfl) fun _ => rfl

instance safe_readingBody {α : Type} [Mentions α] {s : SymbolId} {m : Check α}
    [safe : Safe p c m] : Safe p c (readingBody s m) := by
  refine ⟨fun c' before sound => ?_⟩
  have inside := tabled_declaring sound (s :: c'.declaring)
  obtain ⟨after, answer⟩ := safe.outcome _ (before.trans inside.before) inside.sound
  have outside := tabled_declaring after
  exact ⟨(outside _).sound, answer.later (outside _).before⟩

/-! ### Type parameters -/

instance safe_rememberParams {s : SymbolId} {ids : List TypeId} [known : Known c ids] :
    Safe p c (rememberParams s ids) := by
  refine ⟨fun c' before sound => ⟨?_, inferInstance⟩⟩
  dsimp only [rememberParams]
  split
  · exact sound
  · have noted : Tabled p c' { c' with typeParams := c'.typeParams.insert s ids } := by
      refine tabled_beside sound { sound.holds with typeParams := fun other r found => ?_ } rfl rfl
        (fun _ => rfl) fun _ => rfl
      rw [Std.HashMap.getElem?_insert] at found
      split at found
      · cases found
        exact known.later before
      · exact sound.holds.typeParams other r found
    exact noted.sound

/-- New places for type parameters, which refer to nothing yet. -/
theorem makes_reserveParams {c : Checker} {a : Arena} (houses : c.Houses a) (names : List String) :
    c.Houses (reserveParams a names).2 ∧
      ∀ t ∈ (reserveParams a names).1, t.index < (reserveParams a names).2.size := by
  induction names generalizing a with
  | nil => exact ⟨houses, nofun⟩
  | cons name rest ih =>
      have first : Arena.Makes c a (a.add (.typeParameter { name })) :=
        Arena.makes_add houses inferInstance
      obtain ⟨housed, inside⟩ := ih first.houses
      refine ⟨housed, fun t listed => ?_⟩
      rcases List.mem_cons.mp listed with same | later
      · rw [same]
        exact Nat.lt_of_lt_of_le first.inside (extends_reserveParams _ rest).size
      · exact inside t later

theorem sound_fillParams {α : Type} {describe : α → Check TypeParameter}
    (each : ∀ (x : α) (c' : Checker) [c.Before c'], Safe p c' (describe x))
    (places : List (α × TypeId)) (c' : Checker) (before : c.Before c') (sound : c'.Sound p)
    (reserved : Reserved 0 c' (places.map Prod.snd)) :
    (fillParams describe p places c').Sound p ∧ c'.Before (fillParams describe p places c') := by
  induction places generalizing c' with
  | nil => exact ⟨sound, .refl c'⟩
  | cons place rest ih =>
      obtain ⟨x, t⟩ := place
      obtain ⟨after, described⟩ := (each x c').outcome c' (.refl c') sound
      have grown := (describe x).before p c'
      have still := reserved.mono ((describe x).kept p c')
      have empty : ∀ shape, ((describe x).outcome p c').2.arena.data t ≠ .object shape := by
        obtain ⟨_, _, param, data⟩ := still t List.mem_cons_self
        rw [data]
        exact nofun
      have filled := tabled_fill after (t := t) (Arena.size_setData _ _ _) rfl
        (fun other differs => Arena.info_setData_other _ _ _ _ differs) empty fun inside => by
          rw [info_setData_self _ inside]
          have written := (known_info_iff.mp (after.infos t inside)).2
          exact known_info_iff.mpr ⟨known_parameterData_iff.mpr described, written⟩
      have others := still.setData t ((describe x).outcome p c').1
      obtain ⟨rest, later⟩ := ih _ ((before.trans grown).trans filled.before) filled.sound
        fun other inside => others other (List.mem_cons_of_mem _ inside)
      exact ⟨rest, (grown.trans filled.before).trans later⟩

theorem safe_declareParams {params : List TypeParam} {remember : List TypeId → Check Unit}
    {describe : List TypeId → TypeParam → Check TypeParameter}
    (noted : ∀ (ids : List TypeId) (c' : Checker) [c.Before c'] [Known c' ids],
      Safe p c' (remember ids))
    (each : ∀ (ids : List TypeId) (x : TypeParam) (c' : Checker) [c.Before c'] [Known c' ids],
      Safe p c' (describe ids x)) : Safe p c (declareParams params remember describe) := by
  refine ⟨fun c' before sound => ?_⟩
  let ids := (reserveParams c'.arena (params.map (·.name))).1
  let start : Checker := { c' with arena := (reserveParams c'.arena (params.map (·.name))).2 }
  have grows := extends_reserveParams c'.arena (params.map (·.name))
  obtain ⟨houses, inside⟩ := makes_reserveParams sound.houses (params.map (·.name))
  have grown : c'.Before start := ⟨grows.size, fun _ _ h => h⟩
  have known : Known start ids := known_list_iff.mpr fun t listed => known_type_iff.mpr (inside t listed)
  have reserved : start.Sound p := sound.withArena grows houses
  have here : c.Before start := before.trans grown
  obtain ⟨remembered, _⟩ := (noted ids start).outcome start (.refl start) reserved
  have later := (remember ids).before p start
  have there := known.later later
  have described : ∀ (x : TypeParam) (c'' : Checker)
      [((remember ids).outcome p start).2.Before c''], Safe p c'' (describe ids x) := by
    intro x c'' after
    have from_ : c.Before c'' := (here.trans later).trans after
    exact each ids x c''
  have places := (reserved_reserveParams c' (params.map (·.name))).mono
    ((remember ids).kept p start)
  obtain ⟨filled, last⟩ := sound_fillParams described (params.zip ids) _ (.refl _) remembered
    fun t listed => by
      obtain ⟨⟨param, same⟩, zipped, rfl⟩ := List.mem_map.mp listed
      obtain ⟨_, below, data⟩ := places same (List.of_mem_zip zipped).2
      exact ⟨Nat.zero_le _, below, data⟩
  exact ⟨filled, there.later last⟩

end

end Check

end ApiDocs
