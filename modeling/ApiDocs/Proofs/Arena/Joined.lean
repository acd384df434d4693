import ApiDocs.Proofs.Arena.Unions

set_option autoImplicit false

/-!
Unions that were made. The union of types that are there is found again. Of one that is read for a type
parameter and some keywords and literals, the members are these, and when another type is put in for the
parameter, their union is that of the other type and the keywords and literals.
-/

namespace ApiDocs.Arena

variable {a a' : Arena} {types : List TypeId} {t : TypeId}

/-! ### Unions that are there -/

/-- The types and what they are flattened to are there, and so is their union `t`. -/
structure Joined (a : Arena) (types : List TypeId) (t : TypeId) : Prop where
  inside : ∀ u ∈ types, u.index < a.size
  flat : ∀ u ∈ a.flattenUnion types, u.index < a.size
  made : a.union types = (t, a)

/-- Two tables in which unions of the same types come to the same: what is there in the first one is
flattened to the same types in the second one, and the same keyword. -/
structure Alike (a a' : Arena) : Prop where
  size : a.size ≤ a'.size
  flattened : ∀ u : TypeId, u.index < a.size → a'.flattenUnion [u] = a.flattenUnion [u]
  kinds : ∀ u : TypeId, u.index < a.size → a'.intrinsic? u = a.intrinsic? u

theorem Alike.of_data (size : a.size ≤ a'.size)
    (data : ∀ u : TypeId, u.index < a.size → a'.data u = a.data u) : a.Alike a' where
  size := size
  flattened u inside := flattenUnion_congr fun v listed => by
    rw [List.mem_singleton.mp listed]
    exact data u inside
  kinds u inside := intrinsic?_congr (data u inside)

theorem Alike.flattenUnion (alike : a.Alike a') (inside : ∀ u ∈ types, u.index < a.size) :
    a'.flattenUnion types = a.flattenUnion types := by
  induction types with
  | nil => rfl
  | cons u rest ih =>
      rw [← List.singleton_append, flattenUnion_append, flattenUnion_append,
        alike.flattened u (inside u List.mem_cons_self),
        ih fun v listed => inside v (List.mem_cons_of_mem u listed)]

/-- What was made in one table is found in another one that has kept it. -/
theorem joined_again (alike : a.Alike a') (inside : ∀ u ∈ types, u.index < a.size)
    (flat : ∀ u ∈ a.flattenUnion types, u.index < a.size)
    (kept : ∀ (k : InternKey) (t : TypeId),
      (a.union types).2.interned[k]? = some t → a'.interned[k]? = some t) :
    a'.Joined types (a.union types).1 := by
  have same := alike.flattenUnion inside
  refine ⟨fun u listed => Nat.lt_of_lt_of_le (inside u listed) alike.size, fun u listed => ?_,
    union_again same (fun u listed => alike.kinds u (flat u listed)) kept⟩
  exact Nat.lt_of_lt_of_le (flat u (same ▸ listed)) alike.size

theorem joined_union (inside : ∀ u ∈ types, u.index < a.size)
    (flat : ∀ u ∈ a.flattenUnion types, u.index < a.size) :
    (a.union types).2.Joined types (a.union types).1 := by
  have grown := extends_union a types
  exact joined_again (.of_data grown.size fun u inside => data_eq (grown.info u inside)) inside flat
    fun _ _ found => found

/-- The members of a union that is kept for a key are among the types that it was made of. -/
theorem unionKey?_subset {types : List TypeId} {k : InternKey} (key : a.unionKey? types = some k) :
    ∃ ids, k = .union ids ∧ ids ⊆ a.flattenUnion types := by
  unfold unionKey? at key
  dsimp only at key
  split at key
  · cases key
  · split at key
    · exact ⟨_, (Option.some.inj key).symm, fun _ => normalMembers_subset⟩
    · cases key

namespace Joined

theorem mono (joined : a.Joined types t) (alike : a.Alike a')
    (kept : ∀ (k : InternKey) (t : TypeId), a.interned[k]? = some t → a'.interned[k]? = some t) :
    a'.Joined types t := by
  have again := joined_again alike joined.inside joined.flat fun k u found =>
    kept k u (by rwa [joined.made] at found)
  rwa [joined.made] at again

/-- A union is one of the types, `never`, or kept for its members, which are among the types. -/
theorem cases (joined : a.Joined types t) :
    (t ∈ a.flattenUnion types ∨ t = intrinsicId .never) ∨
      ∃ ids, ids ⊆ a.flattenUnion types ∧ a.interned[InternKey.union ids]? = some t := by
  rcases union_cases a types with ⟨u, which, -, made⟩ | ⟨k, key, made⟩
  · cases joined.made.symm.trans made
    exact .inl which
  · obtain ⟨ids, rfl, subset⟩ := unionKey?_subset key
    have found := interned_intern a (.union ids)
    rw [← made, joined.made] at found
    exact .inr ⟨ids, subset, found⟩

end Joined

/-! ### Members that stay -/

/-- A type that is no union and no keyword that absorbs other members or is left out beside them. -/
structure Stays (a : Arena) (u : TypeId) : Prop where
  single : a.flattenUnion [u] = [u]
  kind : ∀ i, a.intrinsic? u = some i → i ∉ [Intrinsic.any, .unknown, .never, .undefined, .null]

theorem Stays.of_data {u : TypeId} {data : TypeData} (here : a.data u = data)
    (plain : ∀ inner, data ≠ .union inner)
    (kind : ∀ i, data = .intrinsic i → i ∉ [Intrinsic.any, .unknown, .never, .undefined, .null]) :
    a.Stays u where
  single := flattenUnion_plain fun inner => here ▸ plain inner
  kind i is := by
    unfold intrinsic? at is
    split at is
    · rename_i other data
      exact kind i (here.symm.trans (data.trans (congrArg TypeData.intrinsic (Option.some.inj is))))
    · cases is

theorem Stays.not_absorbs {u : TypeId} (stays : a.Stays u) : ¬ a.absorbs u = true := by
  intro absorbs
  simp only [Arena.absorbs, Bool.or_eq_true, decide_eq_true_eq] at absorbs
  rcases absorbs with any | unknown
  · exact stays.kind _ any (by decide)
  · exact stays.kind _ unknown (by decide)

theorem Stays.not_isNullable {u : TypeId} (stays : a.Stays u) : a.isNullable u = false := by
  unfold isNullable
  cases kind : a.intrinsic? u with
  | none => rfl
  | some i =>
      have other := stays.kind i kind
      cases i <;> first | rfl | exact absurd (by decide) other

/-- Types without keywords of that kind are all members of their union. -/
theorem mem_normalMembers_of_stays {flat : List TypeId} (stays : ∀ u ∈ flat, a.Stays u) (u : TypeId) :
    u ∈ a.normalMembers flat ↔ u ∈ flat := by
  rw [mem_normalMembers]
  refine ⟨fun listed => listed.1, fun listed => ⟨listed, fun never => ?_, fun null => ?_⟩⟩
  · exact (stays u listed).kind _ never (by decide)
  · rw [(stays u listed).not_isNullable] at null
    cases null

/-- Types that are flattened to the same have the same union, if the first of them that absorbs others
is the same. -/
theorem union_congr {xs ys : List TypeId} (flat : ∀ t, t ∈ a.flattenUnion xs ↔ t ∈ a.flattenUnion ys)
    (absorbing : a.absorbing? xs = a.absorbing? ys) : a.union xs = a.union ys := by
  cases found : a.absorbing? ys with
  | some u => rw [union_of_absorbing found, union_of_absorbing (absorbing.trans found)]
  | none =>
      rw [union_of_room found, union_of_room (absorbing.trans found), normalMembers_eq flat]

theorem flattenUnion_of_stays (stays : ∀ u ∈ types, a.Stays u) : a.flattenUnion types = types := by
  induction types with
  | nil => rfl
  | cons u rest ih =>
      rw [← List.singleton_append, flattenUnion_append, (stays u List.mem_cons_self).single,
        ih fun v listed => stays v (List.mem_cons_of_mem u listed)]

theorem absorbing?_of_stays (stays : ∀ u ∈ a.flattenUnion types, a.Stays u) :
    a.absorbing? types = none :=
  absorbing?_eq_none_iff.mpr fun u listed => (stays u listed).not_absorbs

/-- A union of several types that stay is kept for them, and is the union of its members. -/
theorem Joined.of_stays (joined : a.Joined types t) (stays : ∀ u ∈ a.flattenUnion types, a.Stays u)
    {u v : TypeId} (first : u ∈ a.flattenUnion types) (second : v ∈ a.flattenUnion types)
    (differ : u ≠ v) :
    ∃ ids, a.interned[InternKey.union ids]? = some t ∧ (∀ w, w ∈ ids ↔ w ∈ a.flattenUnion types) ∧
      a.Joined ids t := by
  let ids := a.normalMembers (a.flattenUnion types)
  have members : ∀ w, w ∈ ids ↔ w ∈ a.flattenUnion types := mem_normalMembers_of_stays stays
  have own : ∀ w ∈ ids, a.Stays w := fun w listed => stays w ((members w).mp listed)
  have flat : a.flattenUnion ids = ids := flattenUnion_of_stays own
  have made : a.union types = a.intern (.union ids) (.union ids) := by
    rw [union_of_room (absorbing?_of_stays stays)]
    match normal : a.normalMembers (a.flattenUnion types) with
    | [] => exact absurd ((members u).mpr first) (by simp [ids, normal])
    | [w] =>
        have one : ∀ x ∈ ids, x = w := by simp [ids, normal]
        have same : u = v := (one u ((members u).mpr first)).trans (one v ((members v).mpr second)).symm
        exact absurd same differ
    | x :: y :: rest => simp only [ids, normal, Arena.joined]
  have same : a.union ids = a.union types := by
    refine union_congr (fun w => by rw [flat]; exact members w) ?_
    have none : a.absorbing? ids = none := absorbing?_of_stays (flat.symm ▸ own)
    rw [absorbing?_of_stays stays, none]
  have found := interned_intern a (.union ids)
  rw [show (a.intern (.union ids) (InternKey.union ids).data).1 = (a.union types).1 from
    (congrArg Prod.fst made).symm, show (a.intern (.union ids) (InternKey.union ids).data).2 =
    (a.union types).2 from (congrArg Prod.snd made).symm, joined.made] at found
  have inside : ∀ w ∈ ids, w.index < a.size := fun w listed => joined.flat w ((members w).mp listed)
  exact ⟨ids, found, members, inside, flat.symm ▸ inside, same.trans joined.made⟩

/-! ### One type among others -/

/-- Beside types that stay only one type can absorb others. -/
theorem absorbing?_beside {r : TypeId} {ys : List TypeId} (listed : r ∈ ys)
    (others : ∀ y ∈ ys, y = r ∨ ∀ u ∈ a.flattenUnion [y], a.Stays u) :
    a.absorbing? ys = a.absorbing? [r] := by
  have rest : ∀ ys : List TypeId, (∀ y ∈ ys, y = r ∨ ∀ u ∈ a.flattenUnion [y], a.Stays u) →
      a.absorbing? ys = none ∨ a.absorbing? ys = a.absorbing? [r] := by
    intro ys others
    induction ys with
    | nil => exact .inl rfl
    | cons y rest ih =>
        rw [← List.singleton_append, absorbing?_append]
        have later := ih fun z listed => others z (List.mem_cons_of_mem y listed)
        rcases others y List.mem_cons_self with rfl | stays
        · cases found : a.absorbing? [y] with
          | some u => exact .inr rfl
          | none => exact later.imp_right fun same => same.trans found
        · rw [absorbing?_of_stays stays, Option.none_or]
          exact later
  refine (rest ys others).elim (fun none => ?_) id
  rw [none, eq_comm, absorbing?_eq_none_iff]
  intro u flat
  exact absorbing?_eq_none_iff.mp none u (mem_flattenUnion.mpr ⟨r, listed, flat⟩)

/-- What a type and others are flattened to together. -/
theorem mem_flattenUnion_beside {r t : TypeId} {before after : List TypeId} :
    t ∈ a.flattenUnion (before ++ r :: after) ↔
      t ∈ a.flattenUnion [r] ∨ t ∈ a.flattenUnion (before ++ after) := by
  rw [List.append_cons, flattenUnion_append, flattenUnion_append, flattenUnion_append]
  simp only [List.mem_append]
  tauto

/-- A union of a type that stays and of others that do is kept for its members. -/
theorem Joined.of_beside {u w : TypeId} {before after : List TypeId}
    (joined : a.Joined (before ++ u :: after) t) (own : a.Stays u)
    (stays : ∀ v ∈ a.flattenUnion (before ++ after), a.Stays v)
    (listed : w ∈ a.flattenUnion (before ++ after)) (differ : w ≠ u) :
    ∃ ids, a.interned[InternKey.union ids]? = some t ∧
      (∀ v, v ∈ ids ↔ v = u ∨ v ∈ a.flattenUnion (before ++ after)) ∧ a.Joined ids t := by
  have flat (v : TypeId) : v ∈ a.flattenUnion (before ++ u :: after) ↔
      v = u ∨ v ∈ a.flattenUnion (before ++ after) := by
    rw [mem_flattenUnion_beside, own.single, List.mem_singleton]
  have all : ∀ v ∈ a.flattenUnion (before ++ u :: after), a.Stays v := by
    intro v here
    rcases (flat v).mp here with rfl | beside
    · exact own
    · exact stays v beside
  obtain ⟨ids, found, members, again⟩ :=
    joined.of_stays all ((flat w).mpr (.inr listed)) ((flat u).mpr (.inl rfl)) differ
  exact ⟨ids, found, fun v => (members v).trans (flat v), again⟩

/-- In a union of one type and several that stay these can be listed in any order, and flattened. -/
theorem union_beside {r : TypeId} {before after ys : List TypeId}
    (stays : ∀ u ∈ a.flattenUnion (before ++ after), a.Stays u)
    (members : ∀ y, y ∈ ys ↔ y = r ∨ y ∈ a.flattenUnion (before ++ after)) :
    a.union ys = a.union (before ++ r :: after) := by
  refine union_congr (fun t => ?_) ?_
  · rw [mem_flattenUnion_beside, mem_flattenUnion]
    constructor
    · rintro ⟨y, listed, flat⟩
      rcases (members y).mp listed with rfl | beside
      · exact .inl flat
      · rw [(stays y beside).single, List.mem_singleton] at flat
        exact .inr (flat ▸ beside)
    · rintro (own | beside)
      · exact ⟨r, (members r).mpr (.inl rfl), own⟩
      · refine ⟨t, (members t).mpr (.inr beside), ?_⟩
        rw [(stays t beside).single]
        exact List.mem_singleton_self t
  · have first : a.absorbing? ys = a.absorbing? [r] := by
      refine absorbing?_beside ((members r).mpr (.inl rfl)) fun y listed => ?_
      refine ((members y).mp listed).imp_right fun beside u flat => ?_
      rw [(stays y beside).single, List.mem_singleton] at flat
      exact flat ▸ stays y beside
    have second : a.absorbing? (before ++ r :: after) = a.absorbing? [r] := by
      refine absorbing?_beside (by simp) fun y listed => ?_
      have which : y = r ∨ y ∈ before ++ after := by
        simp only [List.mem_append, List.mem_cons] at listed ⊢
        tauto
      exact which.imp_right fun beside u flat => stays u (mem_flattenUnion.mpr ⟨y, beside, flat⟩)
    exact first.trans second.symm

end ApiDocs.Arena
