import ApiDocs.Proofs.Safety.Known

set_option autoImplicit false

/-!
Sound checkers. A sound checker knows all that its tables hold and all that its types are made of,
and what it keeps for classes and functions can be constructed or called. New types in its arena
keep it sound, as long as what they are made of is known.
-/

namespace ApiDocs

open Syntax

namespace Checker

/-- All that the tables of `c` hold is known to `ground`. -/
structure Holds (ground c : Checker) : Prop where
  declared : ∀ (s : SymbolId) (t : TypeId), c.declared[s]? = some t → Known ground t
  values : ∀ (s : SymbolId) (t : TypeId), c.values.find? s = some t → Known ground t
  typeParams : ∀ (s : SymbolId) (ids : List TypeId), c.typeParams[s]? = some ids → Known ground ids
  structures : ∀ (s : SymbolId) (shape : Shape), c.structures.find? s = some shape →
    Known ground shape
  shapes : ∀ (t : TypeId) (shape : Shape), c.shapes.find? t = some shape →
    Known ground t ∧ Known ground shape
  evaluated : ∀ t r : TypeId, c.evaluated.find? t = some r → Known ground t ∧ Known ground r
  elementType : ∀ found : Option TypeId, c.elementType = some found → Known ground found

/-- A type is an object, and no other members are kept for it than those that it has. -/
structure IsObject (c : Checker) (t : TypeId) (shape : Shape) : Prop where
  data : c.arena.data t = .object shape
  kept : ∀ found, c.shapes.find? t = some found → found = shape

/-- The value of a class can be constructed, and that of a function can be called. -/
structure Offers (c : Checker) (s : SymbolId) (t : TypeId) : Prop where
  construct : c.bindings.kind? s = some .classDecl →
    ∃ shape, c.IsObject t shape ∧ shape.construct ≠ []
  call : c.bindings.kind? s = some .function → ∃ shape, c.IsObject t shape ∧ shape.call ≠ []

/-- A checker that knows all that its tables hold. -/
structure Sound (p : Program) (c : Checker) : Prop where
  bindings : c.bindings.Proper p
  base : 14 ≤ c.arena.size
  infos : ∀ t : TypeId, t.index < c.arena.size → Known c (c.arena.info t)
  interned : ∀ (k : InternKey) (t : TypeId), c.arena.interned[k]? = some t → Known c t
  holds : Holds c c
  offers : ∀ (s : SymbolId) (t : TypeId), c.values.find? s = some t → c.Offers s t

/-- The types of an arena mention types of the arena only. -/
structure Houses (c : Checker) (a : Arena) : Prop where
  base : 14 ≤ a.size
  infos : ∀ t : TypeId, t.index < a.size → Known { c with arena := a } (a.info t)
  interned : ∀ (k : InternKey) (t : TypeId), a.interned[k]? = some t → t.index < a.size

end Checker

/-! ### Arenas -/

namespace Arena

variable {c : Checker} {a : Arena}

/-- What making a type comes to: an arena that houses its types, and one of them. -/
structure Makes (c : Checker) (a : Arena) (r : TypeId × Arena) : Prop where
  grows : a.Extends r.2
  houses : c.Houses r.2
  inside : r.1.index < r.2.size

theorem known_grown {α : Type} [Mentions α] {a' : Arena} {x : α}
    (known : Known { c with arena := a } x) (grown : a.Extends a') :
    Known { c with arena := a' } x := known.later ⟨grown.size, fun _ _ h => h⟩

theorem makes_self (houses : c.Houses a) {t : TypeId} (inside : t.index < a.size) :
    Makes c a (t, a) := ⟨.refl a, houses, inside⟩

theorem makes_addInfo (houses : c.Houses a) {info : TypeInfo}
    (known : Known { c with arena := a } info) : Makes c a (a.addInfo info) where
  grows := extends_addInfo a info
  houses := by
    have grown := extends_addInfo a info
    have size := size_addInfo a info
    refine ⟨Nat.le_trans houses.base grown.size, fun t inside => ?_, fun k t found => ?_⟩
    · rcases Nat.lt_or_ge t.index a.size with old | new
      · rw [grown.info t old]
        exact known_grown (houses.infos t old) grown
      · have last : t = ⟨a.size⟩ := congrArg TypeId.mk (by omega)
        rw [last, info_addInfo_self]
        exact known_grown known grown
    · exact Nat.lt_of_lt_of_le (houses.interned k t found) grown.size
  inside := by
    rw [size_addInfo]
    exact Nat.lt_succ_self _

theorem makes_add (houses : c.Houses a) {data : TypeData}
    (known : Known { c with arena := a } data) : Makes c a (a.add data) :=
  makes_addInfo houses inferInstance

/-- The types that were made for keys are there. -/
def Interns (a : Arena) : Prop :=
  ∀ (k : InternKey) (t : TypeId), a.interned[k]? = some t → t.index < a.size

theorem interns_intern (interns : a.Interns) (k : InternKey) (data : TypeData) :
    (a.intern k data).2.Interns := by
  have grown := extends_addInfo a ⟨data, none⟩
  unfold intern
  split
  · exact interns
  · intro other t found
    dsimp only at found
    rw [Std.HashMap.getElem?_insert] at found
    split at found
    · cases found
      exact Nat.lt_of_lt_of_eq (Nat.lt_succ_self _) (size_addInfo a _).symm
    · exact Nat.lt_of_lt_of_le (interns other t found) grown.size

theorem makes_intern (houses : c.Houses a) (k : InternKey) {data : TypeData}
    (known : Known { c with arena := a } data) (own : data = k.data := by rfl) :
    Makes c a (a.intern k data) := by
  have made := makes_add houses known
  have grown := extends_intern a k data own
  have interns := interns_intern houses.interned k data
  unfold intern at interns grown ⊢
  split
  · rename_i t found
    exact makes_self houses (houses.interned k t found)
  · rename_i missing
    rw [missing] at interns grown
    refine ⟨grown, ⟨made.houses.base, fun t inside => ?_, interns⟩,
      made.inside⟩
    exact (made.houses.infos t inside).later ⟨Nat.le_refl _, fun _ _ h => h⟩

theorem index_intrinsicId_lt (houses : c.Houses a) (i : Intrinsic) :
    (intrinsicId i).index < a.size := by
  have bound : (intrinsicId i).index < 14 := by cases i <;> decide
  exact Nat.lt_of_lt_of_le bound houses.base

/-- The types that the data of a type mentions are there. -/
theorem data_inside (houses : c.Houses a) {t other : TypeId} (inside : t.index < a.size)
    (mentioned : other ∈ Mentions.types (a.data t)) : other.index < a.size :=
  (houses.infos t inside).types other (List.mem_append_left _ mentioned)

theorem mem_types {types : List TypeId} {t : TypeId} (inside : t ∈ types) :
    t ∈ Mentions.types types := List.mem_flatMap.mpr ⟨t, inside, List.mem_cons_self⟩

theorem flattenUnion_inside (houses : c.Houses a) {members : List TypeId}
    (inside : ∀ t ∈ members, t.index < a.size) : ∀ t ∈ a.flattenUnion members, t.index < a.size := by
  intro t listed
  obtain ⟨m, here, part⟩ := List.mem_flatMap.mp listed
  split at part
  · rename_i inner data
    refine data_inside houses (inside m here) ?_
    rw [data]
    exact mem_types part
  · rw [List.mem_singleton.mp part]
    exact inside m here

theorem mem_eraseReps {list : List TypeId} {t : TypeId} : t ∈ list.eraseReps ↔ t ∈ list := by
  have loop : ∀ (rest sofar : List TypeId) (last : TypeId),
      t ∈ List.eraseRepsBy.loop (· == ·) last rest sofar ↔ t = last ∨ t ∈ rest ∨ t ∈ sofar := by
    intro rest
    induction rest with
    | nil =>
        intro sofar last
        simp only [List.eraseRepsBy.loop, List.mem_reverse, List.mem_cons, List.not_mem_nil, false_or]
    | cons x rest ih =>
        intro sofar last
        unfold List.eraseRepsBy.loop
        split
        · rename_i same
          rw [ih, List.mem_cons, ← beq_iff_eq.mp same]
          grind
        · rw [ih, List.mem_cons, List.mem_cons]
          grind
  cases list with
  | nil => rfl
  | cons x rest =>
      simp only [List.eraseReps, List.eraseRepsBy, loop, List.mem_cons, List.not_mem_nil, or_false]

theorem normalMembers_subset {flat : List TypeId} {t : TypeId} (listed : t ∈ a.normalMembers flat) :
    t ∈ flat := by
  unfold normalMembers at listed
  dsimp only at listed
  have sorted := List.mem_mergeSort.mp (mem_eraseReps.mp listed)
  split at sorted
  · exact (List.mem_filter.mp (List.mem_filter.mp sorted).1).1
  · exact (List.mem_filter.mp sorted).1

theorem makes_union (houses : c.Houses a) {members : List TypeId}
    (inside : ∀ t ∈ members, t.index < a.size) : Makes c a (a.union members) := by
  have flat := flattenUnion_inside houses inside
  have normal : ∀ t ∈ a.normalMembers (a.flattenUnion members), t.index < a.size :=
    fun t listed => flat t (normalMembers_subset listed)
  unfold union
  dsimp only
  split
  · rename_i absorbing found
    exact makes_self houses (flat absorbing (List.mem_of_find?_eq_some found))
  · split
    · exact makes_self houses (index_intrinsicId_lt houses .never)
    · rename_i t same
      rw [same] at normal
      exact makes_self houses (normal t List.mem_cons_self)
    · refine makes_intern houses _ (known_union_iff.mpr (known_list_iff.mpr fun t listed => ?_))
      exact known_type_iff.mpr (normal t listed)

theorem flattenIntersection_inside (houses : c.Houses a) {members : List TypeId}
    (inside : ∀ t ∈ members, t.index < a.size) :
    ∀ t ∈ a.flattenIntersection members, t.index < a.size := by
  have distinct : ∀ (list sofar : List TypeId), (∀ t ∈ list, t.index < a.size) →
      (∀ t ∈ sofar, t.index < a.size) →
      ∀ t ∈ list.foldl addDistinct sofar, t.index < a.size := by
    intro list
    induction list with
    | nil => exact fun _ _ before => before
    | cons x rest ih =>
        intro sofar all before
        refine ih _ (fun t listed => all t (List.mem_cons_of_mem _ listed)) fun t listed => ?_
        unfold addDistinct at listed
        split at listed
        · exact before t listed
        · rcases List.mem_append.mp listed with old | new
          · exact before t old
          · rw [List.mem_singleton.mp new]
            exact all x List.mem_cons_self
  refine distinct _ [] (fun t listed => ?_) nofun
  obtain ⟨m, here, part⟩ := List.mem_flatMap.mp listed
  split at part
  · rename_i inner data
    refine data_inside houses (inside m here) ?_
    rw [data]
    exact mem_types part
  · rw [List.mem_singleton.mp part]
    exact inside m here

theorem makes_intersection (houses : c.Houses a) {members : List TypeId}
    (inside : ∀ t ∈ members, t.index < a.size) : Makes c a (a.intersection members) := by
  have flat := flattenIntersection_inside houses inside
  unfold intersection
  dsimp only
  split
  · exact makes_self houses (index_intrinsicId_lt houses .any)
  · split
    · exact makes_self houses (index_intrinsicId_lt houses .never)
    · split
      · exact makes_self houses (index_intrinsicId_lt houses .unknown)
      · rename_i t same
        rw [same] at flat
        exact makes_self houses (flat t List.mem_cons_self)
      · refine makes_add houses (known_intersection_iff.mpr (known_list_iff.mpr fun t listed => ?_))
        exact known_type_iff.mpr (flat t listed)

/-- Types that are made from a list one after the other. -/
theorem makes_mapIds {f : Arena → TypeId → TypeId × Arena}
    (each : ∀ a t, c.Houses a → t.index < a.size → Makes c a (f a t)) (houses : c.Houses a)
    {list : List TypeId} (inside : ∀ t ∈ list, t.index < a.size) :
    a.Extends (mapIds f a list).2 ∧ c.Houses (mapIds f a list).2 ∧
      ∀ t ∈ (mapIds f a list).1, t.index < (mapIds f a list).2.size := by
  induction list generalizing a with
  | nil => exact ⟨.refl a, houses, nofun⟩
  | cons x rest ih =>
      have first := each a x houses (inside x List.mem_cons_self)
      have later : ∀ t ∈ rest, t.index < (f a x).2.size := fun t listed =>
        Nat.lt_of_lt_of_le (inside t (List.mem_cons_of_mem _ listed)) first.grows.size
      obtain ⟨grown, housed, all⟩ := ih first.houses later
      refine ⟨first.grows.trans grown, housed, fun t listed => ?_⟩
      rcases List.mem_cons.mp listed with same | other
      · rw [same]
        exact Nat.lt_of_lt_of_le first.inside grown.size
      · exact all t other

theorem makes_widenTo (n : Nat) (a : Arena) (t : TypeId) (houses : c.Houses a)
    (inside : t.index < a.size) : Makes c a (widenTo n a t) := by
  induction n generalizing a t with
  | zero => exact makes_self houses inside
  | succ n ih =>
      unfold widenTo
      split
      · exact makes_self houses (Nat.lt_of_lt_of_le (by decide) houses.base)
      · exact makes_self houses (index_intrinsicId_lt houses .number)
      · exact makes_self houses (index_intrinsicId_lt houses .string)
      · rename_i members data
        split
        · exact makes_self houses inside
        · have parts : ∀ m ∈ members, m.index < a.size := fun m listed =>
            data_inside houses inside (by rw [data]; exact mem_types listed)
          obtain ⟨grown, housed, all⟩ := makes_mapIds ih houses parts
          have made := makes_union housed all
          exact ⟨grown.trans made.grows, made.houses, made.inside⟩
      · exact makes_self houses inside

theorem makes_widen (houses : c.Houses a) {t : TypeId} (inside : t.index < a.size) :
    Makes c a (a.widen t) := makes_widenTo _ a t houses inside

end Arena

/-! ### Sound states -/

namespace Checker

theorem Holds.later {ground ground' c : Checker} (holds : Holds ground c)
    (before : ground.Before ground') : Holds ground' c where
  declared s t found := (holds.declared s t found).later before
  values s t found := (holds.values s t found).later before
  typeParams s ids found := (holds.typeParams s ids found).later before
  structures s x found := (holds.structures s x found).later before
  shapes t x found :=
    ⟨(holds.shapes t x found).1.later before, (holds.shapes t x found).2.later before⟩
  evaluated t r found :=
    ⟨(holds.evaluated t r found).1.later before, (holds.evaluated t r found).2.later before⟩
  elementType found known := (holds.elementType found known).later before

/-- The types and symbols of a checker are no tables. -/
theorem Holds.same {ground c : Checker} (holds : Holds ground c) {arena : Arena}
    {bindings : Bindings} : Holds ground { c with arena, bindings } := { holds with }

/-- What a value offers stays, if its type stays an object and gets no other members. -/
theorem Offers.mono {c c' : Checker} {s : SymbolId} {t : TypeId} (offers : c.Offers s t)
    (kind : ∀ k, c'.bindings.kind? s = some k → c.bindings.kind? s = some k ∨
      (k ≠ .classDecl ∧ k ≠ .function))
    (object : ∀ shape, c.IsObject t shape → c'.IsObject t shape) : c'.Offers s t where
  construct isClass := by
    rcases kind _ isClass with before | ⟨other, _⟩
    · obtain ⟨shape, here, some⟩ := offers.construct before
      exact ⟨shape, object shape here, some⟩
    · exact absurd rfl other
  call isFunction := by
    rcases kind _ isFunction with before | ⟨_, other⟩
    · obtain ⟨shape, here, some⟩ := offers.call before
      exact ⟨shape, object shape here, some⟩
    · exact absurd rfl other

end Checker

namespace Checker.Sound

variable {p : Program} {c : Checker}

theorem houses (sound : c.Sound p) : c.Houses c.arena :=
  ⟨sound.base, sound.infos, fun k t found => known_type_iff.mp (sound.interned k t found)⟩

/-- New types beside those that are there. -/
theorem withArena (sound : c.Sound p) {a : Arena} (grown : c.arena.Extends a)
    (houses : c.Houses a) : Sound p { c with arena := a } := by
  have before : c.Before { c with arena := a } := ⟨grown.size, fun _ _ h => h⟩
  exact {
    bindings := sound.bindings
    base := houses.base
    infos := houses.infos
    interned := fun k t found => known_type_iff.mpr (houses.interned k t found)
    holds := (sound.holds.later before).same
    offers := fun s t found => by
      have inside := known_type_iff.mp (sound.holds.values s t found)
      refine (sound.offers s t found).mono (fun _ kind => Or.inl kind) fun shape here => ?_
      exact ⟨(Arena.data_eq (grown.info t inside)).trans here.data, here.kept⟩ }

/-- New symbols beside those that are there. -/
theorem withBindings (sound : c.Sound p) {b : Bindings}
    (follows : Bindings.Follows p c.bindings b) : Sound p { c with bindings := b } := by
  have before : c.Before { c with bindings := b } := ⟨Nat.le_refl _, follows.symbol⟩
  exact {
    bindings := follows.proper sound.bindings
    base := sound.base
    infos := fun t inside => (sound.infos t inside).later before
    interned := fun k t found => (sound.interned k t found).later before
    holds := (sound.holds.later before).same
    offers := fun s t found => by
      refine (sound.offers s t found).mono (fun k kind => ?_) fun shape here => ⟨here.data, here.kept⟩
      obtain ⟨x, there, same⟩ := Option.map_eq_some_iff.mp kind
      rcases follows.fresh s x there with old | external | whole
      · exact Or.inl (Option.map_eq_some_iff.mpr ⟨x, old, same⟩)
      · rw [← same, external]
        exact Or.inr ⟨nofun, nofun⟩
      · rw [← same, whole]
        exact Or.inr ⟨nofun, nofun⟩ }

/-- Only types and symbols count for what is known. -/
theorem before_of_eq {c c' : Checker} (arena : c'.arena = c.arena)
    (bindings : c'.bindings = c.bindings) : c.Before c' :=
  ⟨Nat.le_of_eq (congrArg Arena.size arena.symm), fun _ _ there => bindings.symm ▸ there⟩

/-- Tables that hold what is known. -/
theorem withTables {c' : Checker} (sound : c.Sound p) (arena : c'.arena = c.arena)
    (bindings : c'.bindings = c.bindings) (holds : Holds c c')
    (offers : ∀ (s : SymbolId) (t : TypeId), c'.values.find? s = some t → c'.Offers s t) :
    c'.Sound p := by
  have before : c.Before c' := before_of_eq arena bindings
  exact {
    bindings := bindings ▸ sound.bindings
    base := arena ▸ sound.base
    infos := fun t inside => by
      rw [arena] at inside ⊢
      exact (sound.infos t inside).later before
    interned := fun k t found => by
      rw [arena] at found
      exact (sound.interned k t found).later before
    holds := holds.later before
    offers }

end Checker.Sound

end ApiDocs
