import ApiDocs.Proofs.Arena.Runs

set_option autoImplicit false

/-!
Unions of types and the sets of their members. A union is found by the set of what is left of its
members, so that neither their order nor repetitions count, and a union among the members stands for
its own members. The exception are the types that absorb all others: of several such types it is the
first one that is given.
-/

namespace ApiDocs.Arena

/-! ### Tables without places to fill -/

/-- The tables that can be made of the first one without filling places: by operations on types that
are there, and by giving a type that is there once more under a name. -/
inductive Made : Arena → Prop where
  | initial : Made .initial
  | run {a : Arena} (op : Op) : Made a → op.Valid false { arena := a } →
      Made (op.run { arena := a }).2.arena
  | copy {a : Arena} (t : TypeId) (name : AliasRef) : Made a → t.index < a.size →
      (∀ u ∈ name.args, u.index < a.size) → Made (a.addInfo ⟨a.data t, some name⟩).2

/-- What is found for a key is what is made of what the key says and has no name, and the types that
all tables start with are there. -/
structure Tidy (a : Arena) : Prop extends Formed a where
  indexed : ∀ (k : InternKey) (t : TypeId), a.interned[k]? = some t ↔ a.info t = ⟨k.data, none⟩
  start : initial.Extends a

section

variable {a : Arena}

theorem lt_size_of_info {t : TypeId} {k : InternKey} (here : a.info t = ⟨k.data, none⟩) :
    t.index < a.size :=
  lt_size_of_key (congrArg TypeInfo.data here)

theorem Tidy.base (tidy : a.Tidy) : 14 ≤ a.size := by
  have size : initial.size = 14 := by cbv
  rw [← size]
  exact tidy.start.size

/-- The types that all tables start with. -/
theorem Tidy.info_base (tidy : a.Tidy) {t : TypeId} (small : t.index < 14) :
    a.info t = initial.info t := by
  apply tidy.start.info
  have size : initial.size = 14 := by cbv
  omega

theorem tidy_initial : initial.Tidy where
  toFormed := regular_initial.toFormed
  indexed k t := by
    rw [regular_initial.indexed]
    constructor
    · intro data
      have inside : t.index < 14 := by
        have bound := lt_size_of_key data
        have size : initial.size = 14 := by cbv
        omega
      have plain : ∀ i : Fin 14, (initial.info ⟨i⟩).writtenAs = none := by
        intro i
        fin_cases i <;> cbv
      have none : (initial.info t).writtenAs = none := plain ⟨t.index, inside⟩
      calc initial.info t = ⟨(initial.info t).data, (initial.info t).writtenAs⟩ := rfl
        _ = ⟨k.data, Option.none⟩ := by rw [none]; exact congrArg (TypeInfo.mk · Option.none) data
    · exact congrArg TypeInfo.data
  start := .refl initial

/-- A new type that is found for no key: it has a name, or no key describes it. -/
theorem Tidy.addInfo (tidy : a.Tidy) {info : TypeInfo}
    (inside : ∀ part ∈ Mentions.types info, part.index < a.size)
    (other : ∀ k : InternKey, info ≠ ⟨k.data, none⟩)
    (union : ∀ members, info.data = .union members → a.NormalUnion members)
    (intersection : ∀ members, info.data = .intersection members → a.NormalIntersection members) :
    (a.addInfo info).2.Tidy where
  toFormed := tidy.toFormed.addInfo inside union intersection
  indexed k t := by
    show a.interned[k]? = some t ↔ _
    rw [tidy.indexed, info_addInfo]
    split
    · rename_i last
      refine ⟨fun here => ?_, fun same => absurd same (other k)⟩
      have bound := lt_size_of_info here
      rw [last] at bound
      exact absurd bound (Nat.lt_irrefl _)
    · exact Iff.rfl
  start := tidy.start.trans (extends_addInfo a info)

theorem Tidy.intern (tidy : a.Tidy) {k : InternKey}
    (inside : ∀ part ∈ Mentions.types k.data, part.index < a.size)
    (normal : ∀ members, k = .union members → a.NormalUnion members) :
    (a.intern k k.data).2.Tidy := by
  rcases intern_cases a k with ⟨t, -, made⟩ | ⟨new, made⟩
  · rw [made]
    exact tidy
  rw [made]
  refine ⟨tidy.toFormed.withKey inside normal, fun other t => ?_, ?_⟩
  · have info : (a.withKey k).info t = if t = ⟨a.size⟩ then ⟨k.data, none⟩ else a.info t :=
      info_add a k.data t
    have missing : a.info t ≠ ⟨k.data, none⟩ := by
      intro here
      rw [(tidy.indexed k t).mpr here] at new
      cases new
    rw [interned_withKey, info]
    by_cases same : k = other
    · rw [if_pos same, ← same]
      by_cases last : t = ⟨a.size⟩
      · simp [last]
      · simp [last, missing, Ne.symm last]
    · rw [if_neg same, tidy.indexed]
      by_cases last : t = ⟨a.size⟩
      · have differs : k.data ≠ other.data := fun eq => same (InternKey.data_injective eq)
        simp only [if_pos last, TypeInfo.mk.injEq, differs, false_and, iff_false]
        intro here
        have bound := lt_size_of_info here
        rw [last] at bound
        exact Nat.lt_irrefl _ bound
      · rw [if_neg last]
  · have grown := tidy.start.trans (extends_intern a k k.data)
    rwa [made] at grown

theorem stable_tidy : Stable Tidy where
  formed _ tidy := tidy.toFormed
  keyed _ tidy k t found := congrArg TypeInfo.data ((tidy.indexed k t).mp found)
  base _ tidy := tidy.base
  add _ _ tidy inside other intersection :=
    tidy.addInfo (fun part mentioned => inside part (types_add.mp mentioned))
      (fun k same => other k (congrArg TypeInfo.data same))
      (fun members same => absurd same (other (.union members))) intersection
  intern _ _ tidy inside normal := tidy.intern inside normal

theorem Made.tidy (made : a.Made) : a.Tidy := by
  induction made with
  | initial => exact tidy_initial
  | run op _ valid ih => exact stable_tidy.step ih valid
  | @copy a t name _ inside args ih =>
      apply ih.addInfo
      · intro part mentioned
        rcases List.mem_append.mp mentioned with data | arg
        · have before := ih.lt_of_mem data
          omega
        · obtain ⟨ref, listed, mentioned⟩ := List.mem_flatMap.mp arg
          have same : name = ref := Option.some.inj (Option.mem_toList.mp listed)
          subst same
          exact args part (of_mem_types mentioned)
      · intro k same
        cases congrArg TypeInfo.writtenAs same
      · exact ih.unions t
      · exact ih.intersections t

/-! ### Sets of members -/

/-- A list in order, in which nothing stands twice, is given by its elements. -/
theorem eq_of_increasing {xs ys : List TypeId} (first : xs.Pairwise (·.index < ·.index))
    (second : ys.Pairwise (·.index < ·.index)) (same : ∀ t, t ∈ xs ↔ t ∈ ys) : xs = ys := by
  have distinct : ∀ {list : List TypeId}, list.Pairwise (·.index < ·.index) → list.Nodup := by
    intro list increasing
    apply increasing.imp
    rintro x y below rfl
    exact Nat.lt_irrefl _ below
  have perm := (List.perm_ext_iff_of_nodup (distinct first) (distinct second)).mpr same
  apply perm.eq_of_pairwise _ first second
  intro x y _ _ below above
  omega

theorem mem_flattenUnion {members : List TypeId} {t : TypeId} :
    t ∈ a.flattenUnion members ↔ ∃ m ∈ members, t ∈ a.flattenUnion [m] := by
  simp [flattenUnion]

theorem flattenUnion_append (xs ys : List TypeId) :
    a.flattenUnion (xs ++ ys) = a.flattenUnion xs ++ a.flattenUnion ys := List.flatMap_append

/-- Only what the members are made of counts. -/
theorem flattenUnion_congr {a' : Arena} {members : List TypeId}
    (same : ∀ m ∈ members, a'.data m = a.data m) :
    a'.flattenUnion members = a.flattenUnion members := by
  apply List.flatMap_congr
  intro m listed
  rw [same m listed]

/-- What is left of members depends on the set of them only. -/
theorem normalMembers_eq {xs ys : List TypeId} (same : ∀ t, t ∈ xs ↔ t ∈ ys) :
    a.normalMembers xs = a.normalMembers ys := by
  apply eq_of_increasing (normalMembers_increasing a xs) (normalMembers_increasing a ys)
  intro t
  simp only [mem_normalMembers, same]

/-- The first among the members that leaves no room for others. -/
def absorbing? (a : Arena) (members : List TypeId) : Option TypeId :=
  (a.flattenUnion members).find? a.absorbs

theorem union_of_absorbing {members : List TypeId} {t : TypeId} (found : a.absorbing? members = some t) :
    a.union members = (t, a) := by
  rw [union_eq, show (a.flattenUnion members).find? a.absorbs = some t from found]

/-- The union of members of which none leaves no room for others. -/
def joined (a : Arena) (normal : List TypeId) : TypeId × Arena :=
  match normal with
  | [] => (intrinsicId .never, a)
  | [t] => (t, a)
  | ids => a.intern (.union ids) (.union ids)

theorem union_of_room {members : List TypeId} (none : a.absorbing? members = none) :
    a.union members = a.joined (a.normalMembers (a.flattenUnion members)) := by
  rw [union_eq, show (a.flattenUnion members).find? a.absorbs = Option.none from none]
  rfl

theorem absorbing?_eq_none_iff {members : List TypeId} :
    a.absorbing? members = none ↔ ∀ t ∈ a.flattenUnion members, ¬ a.absorbs t = true :=
  List.find?_eq_none

/-- Lists of the same types have the same union, unless they begin with different types that leave
no room for others. The table is the same in any case. -/
theorem union_eq_iff {xs ys : List TypeId} (same : ∀ t, t ∈ xs ↔ t ∈ ys) :
    (a.union xs).2 = (a.union ys).2 ∧
      ((a.union xs).1 = (a.union ys).1 ↔ a.absorbing? xs = a.absorbing? ys) := by
  have flat : ∀ t, t ∈ a.flattenUnion xs ↔ t ∈ a.flattenUnion ys := by
    intro t
    simp only [@mem_flattenUnion a xs, @mem_flattenUnion a ys, same]
  have room : a.absorbing? xs = none ↔ a.absorbing? ys = none := by
    simp only [absorbing?_eq_none_iff, flat]
  cases first : a.absorbing? xs with
  | none =>
      have second := room.mp first
      rw [second, union_of_room first, union_of_room second, normalMembers_eq flat]
      simp
  | some t =>
      cases second : a.absorbing? ys with
      | none =>
          rw [room.mpr second] at first
          cases first
      | some u =>
          rw [union_of_absorbing first, union_of_absorbing second]
          simp

/-! ### Unions among the members -/

/-- The members of the union of types: one that absorbs the others, or else what is left of them, and
`never` if nothing is. -/
def membersOf (a : Arena) (types : List TypeId) : List TypeId :=
  match a.absorbing? types with
  | some t => [t]
  | none =>
      match a.normalMembers (a.flattenUnion types) with
      | [] => [intrinsicId .never]
      | normal => normal

theorem flattenUnion_plain {t : TypeId} (plain : ∀ inner, a.data t ≠ .union inner) :
    a.flattenUnion [t] = [t] := by
  cases data : a.data t with
  | union inner => exact absurd data (plain inner)
  | _ => simp [flattenUnion, data]

theorem flattenUnion_of_intrinsic {t : TypeId} {i : Intrinsic} (kind : a.intrinsic? t = some i) :
    a.flattenUnion [t] = [t] := by
  apply flattenUnion_plain
  intro inner data
  rw [intrinsic?, data] at kind
  cases kind

theorem intrinsic?_of_absorbs {t : TypeId} (absorbs : a.absorbs t = true) :
    ∃ i, a.intrinsic? t = some i := by
  unfold Arena.absorbs at absorbs
  simp only [Bool.or_eq_true, decide_eq_true_eq] at absorbs
  rcases absorbs with any | unknown
  · exact ⟨_, any⟩
  · exact ⟨_, unknown⟩

theorem Tidy.intrinsic?_never (tidy : a.Tidy) : a.intrinsic? (intrinsicId .never) = some .never := by
  have info : a.info (intrinsicId .never) = ⟨.intrinsic .never, none⟩ :=
    (tidy.info_base (by decide)).trans (by cbv)
  rw [intrinsic?, Arena.data, info]

/-- A union stands for its members. -/
theorem Tidy.flattenUnion_union (tidy : a.Tidy) {types : List TypeId}
    (inside : ∀ t ∈ types, t.index < a.size) :
    (a.union types).2.flattenUnion [(a.union types).1] = a.membersOf types := by
  unfold membersOf
  cases found : a.absorbing? types with
  | some t =>
      obtain ⟨i, kind⟩ := intrinsic?_of_absorbs (List.find?_some found)
      rw [union_of_absorbing found]
      exact flattenUnion_of_intrinsic kind
  | none =>
      rw [union_of_room found]
      have flat : ∀ t ∈ a.normalMembers (a.flattenUnion types), ∀ inner, a.data t ≠ .union inner := by
        intro t listed
        exact (flattenUnion_flat tidy.toFormed inside t (normalMembers_subset listed)).2
      match normal : a.normalMembers (a.flattenUnion types) with
      | [] => exact flattenUnion_of_intrinsic tidy.intrinsic?_never
      | [t] => exact flattenUnion_plain (flat t (normal ▸ List.mem_cons_self))
      | x :: y :: rest =>
          have kept := (stable_tidy.union tidy inside).1
          rw [union_of_room found, normal] at kept
          have data : (a.joined (x :: y :: rest)).2.data (a.joined (x :: y :: rest)).1 =
              .union (x :: y :: rest) :=
            congrArg TypeInfo.data ((kept.indexed _ _).mp (interned_intern a (.union (x :: y :: rest))))
          simp [flattenUnion, data]

/-- In place of some of the members their union can be taken. -/
theorem normalMembers_replace (xs ys zs : List TypeId) :
    a.normalMembers (xs ++ a.normalMembers ys ++ zs) = a.normalMembers (xs ++ ys ++ zs) := by
  apply eq_of_increasing (normalMembers_increasing a _) (normalMembers_increasing a _)
  intro t
  -- what is left out of `ys` is `never`, or `null` and `undefined` beside others of `ys`
  have left : ∀ u ∈ ys, a.intrinsic? u ≠ some .never → u ∈ a.normalMembers ys ∨
      (a.isNullable u = true ∧ ∃ v ∈ ys, a.intrinsic? v ≠ some .never ∧ ¬ a.isNullable v = true) := by
    intro u listed proper
    by_cases kept : u ∈ a.normalMembers ys
    · exact Or.inl kept
    · rw [mem_normalMembers] at kept
      grind
  have subset : ∀ u ∈ a.normalMembers ys, u ∈ ys := fun u => normalMembers_subset
  simp only [@mem_normalMembers a (xs ++ a.normalMembers ys ++ zs), @mem_normalMembers a (xs ++ ys ++ zs),
    List.mem_append]
  grind

/-- `never` adds nothing. -/
theorem normalMembers_never {never : TypeId} (kind : a.intrinsic? never = some .never)
    (xs zs : List TypeId) : a.normalMembers (xs ++ [never] ++ zs) = a.normalMembers (xs ++ zs) := by
  apply eq_of_increasing (normalMembers_increasing a _) (normalMembers_increasing a _)
  intro t
  simp only [mem_normalMembers, List.mem_append, List.mem_singleton]
  grind

theorem absorbing?_append (xs ys : List TypeId) :
    a.absorbing? (xs ++ ys) = (a.absorbing? xs).or (a.absorbing? ys) := by
  rw [absorbing?, flattenUnion_append, List.find?_append]
  rfl

/-- A type that stands for the members of some types absorbs others if one of them does. -/
theorem Tidy.absorbing?_of_stands (tidy : a.Tidy) {t : TypeId} {types : List TypeId}
    (stands : a.flattenUnion [t] = a.membersOf types) : a.absorbing? [t] = a.absorbing? types := by
  have open_ : a.absorbing? [t] = (a.membersOf types).find? a.absorbs := by rw [absorbing?, stands]
  rw [open_, membersOf]
  cases found : a.absorbing? types with
  | some u => exact List.find?_cons_of_pos (List.find?_some found)
  | none =>
      have room := absorbing?_eq_none_iff.mp found
      apply List.find?_eq_none.mpr
      dsimp only
      split
      · intro u listed
        rw [List.mem_singleton.mp listed, absorbs, tidy.intrinsic?_never]
        decide
      · intro u listed
        exact room u (normalMembers_subset listed)

/-- A type that stands for the members of some types can be put in their place. -/
theorem Tidy.union_replace (tidy : a.Tidy) {t : TypeId} {types : List TypeId}
    (stands : a.flattenUnion [t] = a.membersOf types) (xs zs : List TypeId) :
    a.union (xs ++ t :: zs) = a.union (xs ++ types ++ zs) := by
  have absorbing : a.absorbing? (xs ++ t :: zs) = a.absorbing? (xs ++ types ++ zs) := by
    rw [List.append_cons, absorbing?_append, absorbing?_append, absorbing?_append, absorbing?_append,
      tidy.absorbing?_of_stands stands]
  cases found : a.absorbing? (xs ++ types ++ zs) with
  | some u => rw [union_of_absorbing found, union_of_absorbing (absorbing.trans found)]
  | none =>
      rw [union_of_room found, union_of_room (absorbing.trans found)]
      have room : a.absorbing? types = none := by
        simp only [absorbing?_append, Option.or_eq_none_iff] at found
        exact found.1.2
      have split : a.flattenUnion (xs ++ t :: zs) =
          a.flattenUnion xs ++ a.membersOf types ++ a.flattenUnion zs := by
        rw [List.append_cons, flattenUnion_append, flattenUnion_append, stands]
      rw [split, flattenUnion_append, flattenUnion_append, membersOf, room]
      dsimp only
      split
      · rename_i nothing
        rw [normalMembers_never tidy.intrinsic?_never,
          ← normalMembers_replace (a.flattenUnion xs) (a.flattenUnion types), nothing, List.append_nil]
      · rw [normalMembers_replace]

section

variable {a' : Arena} {types : List TypeId} (same : a'.flattenUnion types = a.flattenUnion types)
  (kinds : ∀ t ∈ a.flattenUnion types, a'.intrinsic? t = a.intrinsic? t)

include same kinds

theorem absorbing?_congr : a'.absorbing? types = a.absorbing? types := by
  rw [absorbing?, same]
  apply List.find?_congr
  intro t listed
  rw [absorbs, absorbs, kinds t listed]

/-- What is left of types depends only on what they are flattened to and on which of that are keywords. -/
theorem normalMembers_congr :
    a'.normalMembers (a'.flattenUnion types) = a.normalMembers (a.flattenUnion types) := by
  rw [same]
  apply eq_of_increasing (normalMembers_increasing a' _) (normalMembers_increasing a _)
  intro t
  have nullable : ∀ u ∈ a.flattenUnion types, a'.isNullable u = a.isNullable u := by
    intro u listed
    rw [isNullable, isNullable, kinds u listed]
  simp only [mem_normalMembers]
  grind

/-- The union of the same types is found again. -/
theorem union_again (kept : ∀ (k : InternKey) (t : TypeId),
    (a.union types).2.interned[k]? = some t → a'.interned[k]? = some t) :
    a'.union types = ((a.union types).1, a') := by
  have absorbing := absorbing?_congr same kinds
  cases found : a.absorbing? types with
  | some t => rw [union_of_absorbing found, union_of_absorbing (absorbing.trans found)]
  | none =>
      rw [union_of_room found] at kept ⊢
      rw [union_of_room (absorbing.trans found), normalMembers_congr same kinds]
      match normal : a.normalMembers (a.flattenUnion types) with
      | [] => rfl
      | [t] => rfl
      | x :: y :: rest =>
          rw [normal] at kept
          have again := kept _ _ (interned_intern a (.union (x :: y :: rest)))
          show a'.intern (.union (x :: y :: rest)) _ = _
          rw [intern, again]
          rfl

end

/-- Types that are there have the same members in a table that has grown. -/
theorem Extends.membersOf {a' : Arena} (grown : a.Extends a') {types : List TypeId}
    (formed : a.Formed) (inside : ∀ t ∈ types, t.index < a.size) :
    a'.membersOf types = a.membersOf types := by
  have data : ∀ t : TypeId, t.index < a.size → a'.data t = a.data t :=
    fun t here => data_eq (grown.info t here)
  have same := flattenUnion_congr fun t listed => data t (inside t listed)
  have kinds : ∀ t ∈ a.flattenUnion types, a'.intrinsic? t = a.intrinsic? t :=
    fun t listed => intrinsic?_congr (data t (flattenUnion_flat formed inside t listed).1)
  rw [Arena.membersOf, Arena.membersOf, absorbing?_congr same kinds, normalMembers_congr same kinds]

/-- In a table that has made the union of some types, the union can be put in their place, and the
members are those that there were before it was made. -/
theorem Tidy.union_part (tidy : a.Tidy) {xs ys zs : List TypeId}
    (inside : ∀ t ∈ xs ++ ys ++ zs, t.index < a.size) :
    let part := a.union ys
    let whole := part.2.union (xs ++ part.1 :: zs)
    whole = part.2.union (xs ++ ys ++ zs) ∧
      whole.2.flattenUnion [whole.1] = a.membersOf (xs ++ ys ++ zs) := by
  intro part whole
  have some : ∀ t ∈ ys, t.index < a.size := fun t listed => inside t (by simp [listed])
  have grown : a.Extends part.2 := extends_union a ys
  have kept : part.2.Tidy := (stable_tidy.union tidy some).1
  have stands : part.2.flattenUnion [part.1] = part.2.membersOf ys := by
    rw [grown.membersOf tidy.toFormed some]
    exact tidy.flattenUnion_union some
  have same : whole = part.2.union (xs ++ ys ++ zs) := kept.union_replace stands xs zs
  refine ⟨same, ?_⟩
  rw [same, kept.flattenUnion_union fun t listed => Nat.lt_of_lt_of_le (inside t listed) grown.size]
  exact grown.membersOf tidy.toFormed inside

/-- Two lists of the same types leave the same table, and have the same union just if the first type
that absorbs others is the same in both. In place of types that stand side by side their union can be
taken: the result is the same, and has the members that the union of all types has without it. -/
theorem union_of_same_set (made : a.Made) :
    (∀ xs ys : List TypeId, (∀ t, t ∈ xs ↔ t ∈ ys) → (a.union xs).2 = (a.union ys).2 ∧
      ((a.union xs).1 = (a.union ys).1 ↔ a.absorbing? xs = a.absorbing? ys)) ∧
    ∀ xs ys zs : List TypeId, (∀ t ∈ xs ++ ys ++ zs, t.index < a.size) →
      let part := a.union ys
      let whole := part.2.union (xs ++ part.1 :: zs)
      let direct := a.union (xs ++ ys ++ zs)
      whole = part.2.union (xs ++ ys ++ zs) ∧
        whole.2.flattenUnion [whole.1] = direct.2.flattenUnion [direct.1] := by
  refine ⟨fun xs ys same => union_eq_iff same, fun xs ys zs inside => ?_⟩
  obtain ⟨same, members⟩ := made.tidy.union_part inside
  exact ⟨same, members.trans (made.tidy.flattenUnion_union inside).symm⟩

end

/-- Three keywords, one of which absorbs others, in two orders, and with the union of the last two in
their place. -/
theorem union_of_same_set_keywords :
    let string := intrinsicId .string
    let number := intrinsicId .number
    let unknown := intrinsicId .unknown
    (initial.union [string, unknown]).1 = (initial.union [unknown, string, unknown]).1 ∧
      let part := initial.union [number, string]
      let whole := part.2.union [string, part.1]
      let direct := initial.union [string, number, string]
      whole.2.flattenUnion [whole.1] = direct.2.flattenUnion [direct.1] := by
  intro string number unknown
  constructor
  · have same : ∀ t, t ∈ [string, unknown] ↔ t ∈ [unknown, string, unknown] := by
      intro t
      simp only [List.mem_cons, List.not_mem_nil, or_false]
      grind
    exact ((union_of_same_set .initial).1 _ _ same).2.mpr (by cbv)
  · have inside : ∀ t ∈ [string] ++ [number, string] ++ [], t.index < initial.size := by
      have size : initial.size = 14 := by cbv
      rw [size]
      decide
    exact ((union_of_same_set .initial).2 [string] [number, string] [] inside).2

/-- Of `any` and `unknown` the one that comes first is the union of both. -/
theorem union_any_unknown :
    initial.union [intrinsicId .any, intrinsicId .unknown] ≠
      initial.union [intrinsicId .unknown, intrinsicId .any] := by
  intro same
  have ids := congrArg Prod.fst same
  have first : (initial.union [intrinsicId .any, intrinsicId .unknown]).1 = intrinsicId .any := by cbv
  have second : (initial.union [intrinsicId .unknown, intrinsicId .any]).1 = intrinsicId .unknown := by cbv
  rw [first, second] at ids
  exact absurd ids (by decide)

end ApiDocs.Arena
