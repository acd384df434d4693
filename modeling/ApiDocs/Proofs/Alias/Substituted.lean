import ApiDocs.Proofs.Alias.Unions

set_option autoImplicit false

/-!
Concrete types put in for type parameters. What an annotation came to for the parameters becomes what
it comes to for the concrete types: operators that waited are made anew and worked out, and unions of
what was put in are made anew.
-/

namespace ApiDocs

/-! ### Types that nothing is put into -/

namespace Arena

variable {a : Arena} {map : Substitution} {t u : TypeId} {types : List TypeId}

/-- Nothing is put into a type that is not looked up, if nothing is put into its parts. -/
theorem spares_of_parts (apart : map.lookup t = none)
    (parts : ∀ u ∈ (a.info t).parts, a.Spares map u) : a.Spares map t := by
  intro key image found occurs
  rcases Relation.ReflTransGen.cases_head occurs with rfl | ⟨u, part, rest⟩
  · rw [apart] at found
    cases found
  · refine parts u ?_ key image found rest
    rcases List.mem_append.mp part with arg | part
    · exact List.mem_append_left _ arg
    · exact List.mem_append_right _ (TypeData.openParts_subset key _ part)

theorem Spares.member (spares : a.Spares map t) (data : a.data t = .union types) (listed : u ∈ types) :
    a.Spares map u := by
  intro key image found occurs
  refine spares key image found (Relation.ReflTransGen.head ?_ occurs)
  refine List.mem_append_right _ ?_
  rw [show (a.info t).data = .union types from data]
  exact listed

theorem spares_flattenUnion (each : ∀ v ∈ types, a.Spares map v) :
    ∀ u ∈ a.flattenUnion types, a.Spares map u := by
  intro u listed
  obtain ⟨v, here, part⟩ := mem_flattenUnion.mp listed
  rw [← alternatives_eq, alternatives] at part
  split at part
  · rename_i ids data
    exact (each v here).member data part
  · exact List.mem_singleton.mp part ▸ each v here

end Arena

namespace Checker

open Check

variable {n : Nat} {p : Program} {c c' : Checker} {map : Substitution} {env image : String → Option TypeId}

/-- The substitution puts types in for type parameters, such that the names which stood for these now
stand for what is put in. -/
structure Puts (c : Checker) (map : Substitution) (env image : String → Option TypeId) : Prop where
  params : ∀ key t, map.lookup key = some t → ∃ x, c.arena.info key = ⟨.typeParameter x, none⟩
  names : ∀ name key, env name = some key → ∃ t, map.lookup key = some t ∧ image name = some t

namespace Puts

theorem later (puts : Puts c map env image) (since : Since n c c') : Puts c' map env image where
  params key t found := (puts.params key t found).imp fun _ info => since.info_eq info nofun
  names := puts.names

/-- Only type parameters are looked up. -/
theorem apart (puts : Puts c map env image) {t : TypeId} (other : (c.arena.data t).isParameter = false) :
    map.lookup t = none := by
  refine Option.eq_none_iff_forall_ne_some.mpr fun u found => ?_
  obtain ⟨x, info⟩ := puts.params t u found
  rw [Arena.data, info] at other
  cases other

/-- The types that all tables start with hold no type parameters. -/
theorem spares_base (puts : Puts c map env image) (ready : Ready n p c) {t : TypeId}
    (small : t.index < 14) : c.arena.Spares map t := by
  have initial : ∀ i : Fin 14, ((Arena.initial.info ⟨i⟩).parts.all (·.index < 14) &&
      !(Arena.initial.data ⟨i⟩).isParameter) = true := by
    intro i
    fin_cases i <;> cbv
  have both : ∀ u : TypeId, u.index < 14 → (∀ v ∈ (c.arena.info u).parts, v.index < 14) ∧
      (c.arena.data u).isParameter = false := by
    intro u small
    have here := initial ⟨u.index, small⟩
    rw [Bool.and_eq_true, List.all_eq_true] at here
    rw [Arena.data, ready.start u small]
    exact ⟨fun v part => by simpa using here.1 v part, by simpa [Arena.data] using here.2⟩
  intro key u found occurs
  have base := occurs.reaches.closed (·.index < 14) small fun u small v part => (both u small).1 v part
  rw [puts.apart (both key base).2] at found
  cases found

/-- Literals hold no type parameters. -/
theorem spares_literal (puts : Puts c map env image) (ready : Ready n p c) {e : Syntax.TypeExpr}
    {k : InternKey} {t : TypeId} (is : literalKey? e = some k) (found : c.arena.interned[k]? = some t) :
    c.arena.Spares map t := by
  have info := ready.regular.unnamed k t found
  have single := (concrete_literal ready is found).bound
  intro key u entry occurs
  have differs : key ≠ t := by
    rintro rfl
    rw [puts.apart single] at entry
    cases entry
  refine absurd occurs (Arena.not_occurs_of_no_parts ?_ differs)
  rw [info]
  cases e with
  | booleanLiteral | numberLiteral | stringLiteral =>
      cases is
      rfl
  | _ => cases is

/-- Keywords and literals hold no type parameters. -/
theorem spares_closed (puts : Puts c map env image) (ready : Ready n p c) {op : Operation}
    {e : Syntax.TypeExpr} {t : TypeId} (closed : isClosed e = true) (stands : Stands op c env e t) :
    c.arena.Spares map t := by
  cases stands with
  | base is => exact puts.spares_base ready (baseType?_lt is)
  | literal is found => exact puts.spares_literal ready is found
  | name | keyOf | indexed | array | union => cases closed

theorem spares_all (puts : Puts c map env image) (ready : Ready n p c) {op : Operation}
    {es : List Syntax.TypeExpr} {ids : List TypeId} (closed : ∀ e ∈ es, isClosed e = true)
    (parts : List.Forall₂ (Stands op c env) es ids) : ∀ u ∈ ids, c.arena.Spares map u := by
  intro u listed
  obtain ⟨e, here, stands⟩ := (beside parts).2 u listed
  exact puts.spares_closed ready (closed e here) stands

/-- Unions of types that nothing is put into. -/
theorem spares_joined (puts : Puts c map env image) (ready : Ready n p c) {ids : List TypeId}
    {t : TypeId} (joined : c.arena.Joined ids t) (each : ∀ u ∈ ids, c.arena.Spares map u) :
    c.arena.Spares map t := by
  have flat := Arena.spares_flattenUnion each
  rcases joined.cases with (listed | rfl) | ⟨members, subset, found⟩
  · exact flat t listed
  · exact puts.spares_base ready (by decide)
  · have info := ready.regular.unnamed _ t found
    refine Arena.spares_of_parts (puts.apart (by rw [Arena.data, info]; rfl)) fun u part => ?_
    rw [info] at part
    exact flat u (subset part)

end Puts

variable {names : List String} {e : Syntax.TypeExpr} {t : TypeId} {d : Nat}

theorem ends_substituteAt_spared {calls : Calls} (j : Nat)
    (spared : ∀ c', Since n c c' → Ready n p c' → c'.arena.Spares map t) :
    Ends n p c (substituteAt calls j map t) fun r _ => r = t := by
  intro c' since ready
  rw [substituteAt_same calls j map t (spared c' since ready)]
  exact ⟨ready, rfl⟩

theorem ends_substituteAt_found {calls : Calls} (j : Nat) {u : TypeId} (found : map.lookup t = some u) :
    Ends n p c (substituteAt calls j map t) fun r _ => r = u := by
  intro c' since ready
  rw [substituteAt_key calls j found]
  exact ⟨ready, rfl⟩

/-- What is put in is no type parameter. -/
theorem image_ne (concrete : c.Concrete t) {u : TypeId} {x : TypeParameter}
    (info : c.arena.info u = ⟨.typeParameter x, none⟩) : t ≠ u := by
  rintro rfl
  have bound := concrete.bound
  rw [Arena.data, info] at bound
  cases bound

/-- What holds of the types that are put in: they are there before `n`, and concrete. -/
def ConcreteBefore (n : Nat) (c : Checker) (image : String → Option TypeId) : Prop :=
  ∀ name t, image name = some t → t.index < n ∧ c.Concrete t

theorem ConcreteBefore.later (args : ConcreteBefore n c image) (since : Since n c c') :
    ConcreteBefore n c' image :=
  fun name t is => ⟨(args name t is).1, (args name t is).2.later since⟩

/-- A keyword or a literal comes to the same type whatever names stand for. -/
theorem Stands.of_closed {op op' : Operation} (stands : Stands op c env e t)
    (closed : isClosed e = true) (since : Since n c c') : Stands op' c' image e t := by
  cases stands with
  | base is => exact .base is
  | literal is found => exact .literal is (since.interned _ _ found)
  | name | keyOf | indexed | array | union => cases closed

theorem stands_of_closed {op op' : Operation} {es : List Syntax.TypeExpr} {ids : List TypeId}
    (since : Since n c c') (parts : List.Forall₂ (Stands op c env) es ids)
    (closed : ∀ e ∈ es, isClosed e = true) : List.Forall₂ (Stands op' c' image) es ids := by
  obtain ⟨length, each⟩ := List.forall₂_iff_zip.mp parts
  exact List.forall₂_iff_zip.mpr
    ⟨length, fun listed => (each listed).of_closed (closed _ (List.of_mem_zip listed).1) since⟩

/-- Nothing is put into a union of keywords and literals. -/
theorem ends_substituteAt_closed {calls : Calls} (j : Nat) (puts : Puts c map env image)
    {es : List Syntax.TypeExpr} {ids : List TypeId} (parts : List.Forall₂ (Stands Waits c env) es ids)
    (closed : ∀ e ∈ es, isClosed e = true) (joined : c.arena.Joined ids t) :
    Ends n p c (substituteAt calls j map t) fun r c' => Stands (Comes n p) c' image (.union es) r := by
  refine (ends_substituteAt_spared j fun c' since ready => ?_).weaken fun r c' since same => ?_
  · have later : List.Forall₂ (Stands Waits c' env) es ids := stands_of_closed since parts closed
    exact (puts.later since).spares_joined ready (joined.mono since.alike since.interned)
      ((puts.later since).spares_all ready closed later)
  · subst same
    exact .union_of_parts (stands_of_closed since parts closed) (joined.mono since.alike since.interned)

theorem ends_substituteAt_key (ready : Ready n p c) (puts : Puts c map env image)
    (binds : Binds n p (Comes n p) c names image) (args : ConcreteBefore n c image)
    (key : KeyExpr names e) (stands : Stands Waits c env e t) (k j : Nat) :
    Ends n p c (substituteAt (callsTo (k + 1 + 1 + 1)) (j + 1) map t) fun r c' =>
      Stands (Comes n p) c' image e r := by
  cases stands with
  | base is =>
      refine (ends_substituteAt_spared (j + 1) fun c' since ready' =>
        (puts.later since).spares_base ready' (baseType?_lt is)).weaken fun r _ _ same => ?_
      exact same ▸ .base is
  | literal is found =>
      refine (ends_substituteAt_spared (j + 1) fun c' since ready' => (puts.later since).spares_literal
        ready' is (since.interned _ _ found)).weaken fun r c' since same => ?_
      exact same ▸ .literal is (since.interned _ _ found)
  | name is =>
      obtain ⟨u, found, here⟩ := puts.names _ _ is
      exact (ends_substituteAt_found (j + 1) found).weaken fun r _ _ same => same ▸ .name here
  | @keyOf name u _ is made =>
      obtain ⟨v, found, here⟩ := puts.names _ _ is
      obtain ⟨x, param⟩ := puts.params u v found
      have changed : TypeData.keyOf v ≠ .keyOf u := by
        intro same
        cases same
        exact image_ne (args name _ here).2 param rfl
      have apart : map.lookup t = none := puts.apart (by rw [Arena.data, made.info]; rfl)
      refine ends_substituteAt made.info rfl apart changed rfl (fun c' _ _ => ?_) ?_
      · exact bind_of_outcome (substituteAt_key _ j found) _
      · exact (binds.keyOf name v here c (.refl n c) ready k).weaken fun _ _ _ made => .keyOf here made
  | union length parts joined =>
      cases key with
      | base is | literal is => cases is
      | union closed =>
          have all := List.forall₂_iff_zip.mpr ⟨length, @parts⟩
          exact ends_substituteAt_closed (j + 1) puts all closed joined
  | indexed | array =>
      cases key with
      | base is | literal is => cases is

/-- An indexed access that waited is made anew of what its parts become. -/
theorem ends_substituteAt_indexed (puts : Puts c map env image)
    (binds : Binds n p (Comes n p) c names image) (args : ConcreteBefore n c image) {name : String}
    {index : Syntax.TypeExpr} (key : KeyExpr names index) {u v : TypeId} (is : env name = some u)
    (inner : Stands Waits c env index v) (made : Waits c (.indexedAccess u v) t) (k j : Nat) :
    Ends n p c (substituteAt (callsTo (k + 1 + 1 + 1)) (j + 1 + 1) map t) fun r c' =>
      Stands (Comes n p) c' image (.indexed (nameExpr name) index) r := by
  obtain ⟨w, found, here⟩ := puts.names _ _ is
  obtain ⟨x, param⟩ := puts.params u w found
  have other := image_ne (args name w here).2 param
  have apart : map.lookup t = none := puts.apart (by rw [Arena.data, made.info]; rfl)
  have parts : Ends n p c (mapParts (substituteAt (callsTo (k + 1 + 1 + 1)) (j + 1)) map
      (.indexedAccess u v)) fun put c' => ∃ r, put = .indexedAccess w r ∧
        Stands (Comes n p) c' image index r := by
    refine .bind (ends_substituteAt_found _ found) fun _ c₁ since₁ ready₁ same => ?_
    subst same
    refine .bind (ends_substituteAt_key ready₁ (puts.later since₁) (binds.later since₁)
      (args.later since₁) key (inner.later (lasts_waits n) since₁) k j) fun r c₂ _ _ stands => ?_
    exact .pure fun c₃ since₃ => ⟨r, rfl, stands.later binds.lasts since₃⟩
  refine ends_substituteAt_parts made.info (by simp) apart parts ?_ ?_
  · rintro c' since _ ⟨r, same, -⟩
    cases same
    exact absurd rfl other
  · rintro put c' since ready' ⟨r, rfl, stands⟩ _
    rw [rebuild_operator _ rfl]
    have access := binds.access name w here c' since ready' index r key stands k
    exact access.weaken fun t c'' since'' made =>
      .indexed here (stands.later binds.lasts since'') made

/-- An array of what the item type becomes is made. -/
theorem ends_substituteAt_array {m : Nat} (ready : Ready n p c) (puts : Puts c map env image)
    (binds : Binds n p (Comes n p) c names image) {item : Syntax.TypeExpr} {s : SymbolId} {u : TypeId}
    (global : c.bindings.global.get? .type "Array" = some s)
    (found : c.arena.interned[InternKey.reference s [u]]? = some t) {j : Nat}
    (put : Ends n p c (substituteAt (callsTo m) j map u) fun r c' =>
      Stands (Comes n p) c' image item r) :
    Ends n p c (substituteAt (callsTo m) (j + 1) map t) fun r c' =>
      Stands (Comes n p) c' image (.array item) r := by
  have info := ready.regular.unnamed _ t found
  have apart : map.lookup t = none := puts.apart (by rw [Arena.data, info]; rfl)
  have parts : Ends n p c (mapParts (substituteAt (callsTo m) j) map (.reference s [u]))
      fun put c' => ∃ r, put = .reference s [r] ∧ Stands (Comes n p) c' image item r := by
    simp only [mapParts, List.mapM_cons, List.mapM_nil, pure_bind, bind_assoc]
    exact .bind put fun r c₁ _ _ stands => .pure fun c₂ since₂ =>
      ⟨r, rfl, stands.later binds.lasts since₂⟩
  refine ends_substituteAt_parts info (by simp [InternKey.data]) apart parts ?_ ?_
  · rintro c' since _ ⟨r, same, stands⟩
    cases same
    exact .array (since.bindings.global ▸ global) stands (since.interned _ _ found)
  · rintro put c' since ready' ⟨r, rfl, stands⟩ _
    have there := stands.inside ready' (binds.later since).inside fun _ _ comes => comes.inside
    have whole := ready.sound.infos t (inside_of_info info (by simp [InternKey.data]))
    rw [info] at whole
    have symbol : Known c s := (known_reference_iff.mp (known_info_iff.mp whole).1).1
    have : Known c' s := symbol.later since.before
    have : Known c' r := known_type_iff.mpr there
    have made : Ends n p c' (Check.reference s [r]) fun t c'' =>
        c''.arena.interned[InternKey.reference s [r]]? = some t := ends_interned _ fun _ _ => rfl
    refine made.weaken fun t c'' since'' found => ?_
    exact .array (since''.bindings.global ▸ since.bindings.global ▸ global)
      (stands.later binds.lasts since'') found

/-! ### Unions of one type and of keywords and literals -/

section

variable {m j : Nat} {part : Syntax.TypeExpr} {u : TypeId} {flat list : List TypeId}

/-- Something is put into one of the members of a union only. -/
theorem ends_mapM_beside (binds : Binds n p (Comes n p) c names image)
    (members : ∀ v, v ∈ list ↔ v = u ∨ v ∈ flat) (differ : ∀ w ∈ flat, w ≠ u)
    (spared : ∀ w ∈ flat, ∀ c', Since n c c' → Ready n p c' → c'.arena.Spares map w)
    (put : Ends n p c (substituteAt (callsTo m) j map u) fun r c' =>
      Stands (Comes n p) c' image part r) :
    Ends n p c (list.mapM (substituteAt (callsTo m) j map)) fun all c' =>
      ∃ r, Stands (Comes n p) c' image part r ∧ ∀ y, y ∈ all ↔ y = r ∨ y ∈ flat := by
  -- what becomes of one member
  let Put (v r : TypeId) (c' : Checker) : Prop :=
    (v = u → Stands (Comes n p) c' image part r) ∧ (v ≠ u → r = v)
  have stays : ∀ v r c₁ c₂, Since n c₁ c₂ → Put v r c₁ → Put v r c₂ := fun v r c₁ c₂ since holds =>
    ⟨fun same => (holds.1 same).later binds.lasts since, holds.2⟩
  have each : ∀ v ∈ list, ∀ c', Since n c c' → Ready n p c' →
      Ends n p c' (substituteAt (callsTo m) j map v) (Put v) := by
    intro v listed c' since _
    rcases Decidable.em (v = u) with rfl | other
    · exact (put.later since).weaken fun r c'' _ stands =>
        ⟨fun _ => stands, fun other => absurd rfl other⟩
    · have beside : v ∈ flat := ((members v).mp listed).resolve_left other
      have same : Ends n p c (substituteAt (callsTo m) j map v) fun r _ => r = v :=
        ends_substituteAt_spared j (spared v beside)
      exact (same.later since).weaken fun r c'' _ same => ⟨fun is => absurd is other, fun _ => same⟩
  intro c' since ready
  obtain ⟨after, held⟩ := Ends.mapM each stays c' since ready
  refine ⟨after, ?_⟩
  obtain ⟨forth, back⟩ := beside held
  obtain ⟨r, -, own, -⟩ := forth u ((members u).mpr (.inl rfl))
  have stands := own rfl
  refine ⟨r, stands, fun y => ⟨fun listed => ?_, ?_⟩⟩
  · obtain ⟨v, here, is, other⟩ := back y listed
    rcases (members v).mp here with same | beside
    · exact .inl ((is same).unique after stands)
    · exact .inr (other (differ v beside) ▸ beside)
  · rintro (rfl | here)
    · obtain ⟨z, listed, is, -⟩ := forth u ((members u).mpr (.inl rfl))
      exact stands.unique after (is rfl) ▸ listed
    · obtain ⟨z, listed, -, same⟩ := forth y ((members y).mpr (.inr here))
      exact same (differ y here) ▸ listed

variable {before after : List Syntax.TypeExpr} {xs ys : List TypeId}

namespace KeptFor

/-- Nothing is put into the others. -/
theorem spares (kept : KeptFor c env before after part xs ys list u t) (puts : Puts c map env image)
    (closed : ∀ e ∈ before ++ after, isClosed e = true) :
    ∀ v ∈ c.arena.flattenUnion (xs ++ ys), ∀ c', Since n c c' → Ready n p c' →
      c'.arena.Spares map v := by
  intro v listed c' since ready
  rw [← since.alike.flattenUnion kept.inside] at listed
  have beside : List.Forall₂ (Stands Waits c' env) (before ++ after) (xs ++ ys) :=
    stands_of_closed since (List.rel_append kept.first kept.last) closed
  exact Arena.spares_flattenUnion ((puts.later since).spares_all ready closed beside) v listed

/-- A union of what the part became and of the others, in any order. -/
theorem stands (kept : KeptFor c env before after part xs ys list u t)
    (binds : Binds n p (Comes n p) c names image) (firm : ∀ e ∈ before ++ after, isFirm e = true)
    (since : Since n c c') (ready : Ready n p c') {all : List TypeId} {r s : TypeId}
    (own : Stands (Comes n p) c' image part r)
    (members : ∀ y, y ∈ all ↔ y = r ∨ y ∈ c.arena.flattenUnion (xs ++ ys))
    (joined : c'.arena.Joined all s) :
    Stands (Comes n p) c' image (.union (before ++ part :: after)) s := by
  have closed : ∀ e ∈ before ++ after, isClosed e = true :=
    fun e listed => isClosed_of_isFirm (firm e listed)
  have first : List.Forall₂ (Stands (Comes n p) c' image) before xs :=
    stands_of_closed since kept.first fun e listed => closed e (List.mem_append_left _ listed)
  have last : List.Forall₂ (Stands (Comes n p) c' image) after ys :=
    stands_of_closed since kept.last fun e listed => closed e (List.mem_append_right _ listed)
  rw [← since.alike.flattenUnion kept.inside] at members
  exact .union_beside ready (binds.later since) firm first own last members joined

end KeptFor

/-- A union is made anew of what its only open member becomes and of the others. -/
theorem ends_substituteAt_union (ready : Ready n p c) (puts : Puts c map env image)
    (binds : Binds n p (Comes n p) c names image) (open_ : isOpen part = true)
    (firm : ∀ e ∈ before ++ after, isFirm e = true) (others : before ++ after ≠ [])
    (stands : Stands Waits c env (.union (before ++ part :: after)) t)
    (put : ∀ u, Stands Waits c env part u → Ends n p c (substituteAt (callsTo m) j map u) fun r c' =>
      Stands (Comes n p) c' image part r) :
    Ends n p c (substituteAt (callsTo m) (j + 1) map t) fun r c' =>
      Stands (Comes n p) c' image (.union (before ++ part :: after)) r := by
  have params : ∀ name t, env name = some t → ∃ x, c.arena.info t = ⟨.typeParameter x, none⟩ := by
    intro name t is
    obtain ⟨v, found, -⟩ := puts.names name t is
    exact puts.params t v found
  obtain ⟨xs, ys, list, u, kept⟩ := stands.keptFor ready params open_ firm others
  have spared := kept.spares (n := n) (p := p) puts fun e listed => isClosed_of_isFirm (firm e listed)
  have parts : Ends n p c (mapParts (substituteAt (callsTo m) j) map (.union list)) fun made c' =>
      ∃ all r, made = .union all ∧ Stands (Comes n p) c' image part r ∧
        ∀ y, y ∈ all ↔ y = r ∨ y ∈ c.arena.flattenUnion (xs ++ ys) := by
    refine .bind (ends_mapM_beside binds kept.members kept.differ spared (put u kept.own))
      fun all c₁ since₁ _ ⟨r, own, members⟩ => .pure fun c₂ since₂ => ?_
    exact ⟨all, r, rfl, own.later binds.lasts since₂, members⟩
  refine ends_substituteAt_parts kept.info nofun
    (puts.apart (by rw [Arena.data, kept.info]; rfl)) parts ?_ ?_
  · rintro c₁ since₁ ready₁ ⟨all, r, same, own, members⟩
    cases same
    exact kept.stands binds firm since₁ ready₁ own members (kept.again.mono since₁.alike since₁.interned)
  · rintro made c₁ since₁ ready₁ ⟨all, r, rfl, own, members⟩ _ c₂ since₂ ready₂
    have inside : ∀ v ∈ all, v.index < c₁.arena.size := by
      intro v listed
      rcases (members v).mp listed with rfl | listed
      · exact own.inside ready₁ (binds.later since₁).inside fun _ _ comes => comes.inside
      · exact since₁.inside (Arena.flattenUnion_inside ready.sound.houses kept.inside v listed)
    obtain ⟨ready₃, joined⟩ := ends_union inside c₂ since₂ ready₂
    have since₃ : Since n c₁ _ := since₂.trans (.outcome n (Check.union all) p c₂)
    exact ⟨ready₃, kept.stands binds firm (since₁.trans since₃) ready₃ (own.later binds.lasts since₃)
      members joined⟩

end

/-- What an annotation came to for type parameters becomes what it comes to for the types that are put
in for them. -/
theorem ends_substituteAt_direct (ready : Ready n p c) (puts : Puts c map env image)
    (binds : Binds n p (Comes n p) c names image) (args : ConcreteBefore n c image)
    {array? : Option SymbolId} (direct : DirectExpr names array? d e) (stands : Stands Waits c env e t)
    (k j : Nat) :
    Ends n p c (substituteAt (callsTo (k + 1 + 1 + 1)) (j + 2 + d) map t) fun r c' =>
      Stands (Comes n p) c' image e r := by
  induction direct generalizing c t with
  | @key d e key =>
      rw [show j + 2 + d = j + d + 1 + 1 by omega]
      exact ends_substituteAt_key ready puts binds args key stands k (j + d + 1)
  | @indexed d name index listed key =>
      rw [show j + 2 + d = j + d + 1 + 1 by omega]
      cases stands with
      | base is | literal is => cases is
      | indexed is inner made =>
          exact ends_substituteAt_indexed puts binds args key is inner made k (j + d)
  | @array d item s there direct ih =>
      cases stands with
      | base is | literal is => cases is
      | array global inner found =>
          exact ends_substituteAt_array ready puts binds global found (ih ready puts binds args inner)
  | @union d before after part direct open_ firm others ih =>
      exact ends_substituteAt_union ready puts binds open_ firm others stands fun u here =>
        ih ready puts binds args here

end Checker

end ApiDocs
