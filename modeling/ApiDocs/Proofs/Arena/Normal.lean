import Mathlib
import ApiDocs.Proofs.Safety.Sound

set_option autoImplicit false

/-!
What the operations of the table of types come to. In a regular table types are made of earlier
ones, unions and intersections are normal, and the types of keys are those that are found for them.
A new type, with a key or without one, leaves it regular.
-/

namespace ApiDocs

theorem InternKey.data_injective {k k' : InternKey} (same : k.data = k'.data) : k = k' := by
  cases k <;> cases k' <;> simp_all [InternKey.data]

/-- What is not made by an operation of its own. -/
def TypeData.isOpen : TypeData → Bool
  | .typeParameter _ | .keyOf _ | .indexedAccess _ _ | .mapped _ | .nominal _ _ | .unresolved _ _ => true
  | _ => false

namespace Arena

/-! ### Normal tables -/

/-- The members of a union in order, each once. None is a union itself or stands for all or no
values, and `null` and `undefined` have no others beside them. -/
structure NormalUnion (a : Arena) (members : List TypeId) : Prop where
  several : 2 ≤ members.length
  increasing : members.Pairwise (·.index < ·.index)
  flat : ∀ m ∈ members, ∀ inner, a.data m ≠ .union inner
  proper : ∀ m ∈ members, ∀ i, a.intrinsic? m = some i → i ≠ .any ∧ i ≠ .unknown ∧ i ≠ .never
  nullable : ∀ m ∈ members, a.isNullable m → ∀ other ∈ members, a.isNullable other

/-- The members of an intersection, each once. None is an intersection itself, `any` or `never`. -/
structure NormalIntersection (a : Arena) (members : List TypeId) : Prop where
  several : 2 ≤ members.length
  distinct : members.Nodup
  flat : ∀ m ∈ members, ∀ inner, a.data m ≠ .intersection inner
  proper : ∀ m ∈ members, ∀ i, a.intrinsic? m = some i → i ≠ .any ∧ i ≠ .never

/-- Types are made of earlier ones, and unions and intersections are normal. -/
structure Formed (a : Arena) : Prop where
  earlier : ∀ t, ∀ part ∈ Mentions.types (a.info t), part.index < t.index
  unions : ∀ t members, a.data t = .union members → a.NormalUnion members
  intersections : ∀ t members, a.data t = .intersection members → a.NormalIntersection members

/-- A table with no places to fill: what is made of what a key says is what is found for it. -/
structure Regular (a : Arena) : Prop extends Formed a where
  indexed : ∀ (k : InternKey) (t : TypeId), a.interned[k]? = some t ↔ a.data t = k.data

section

variable {a : Arena}

theorem intrinsic?_congr {a' : Arena} {t : TypeId} (same : a'.data t = a.data t) :
    a'.intrinsic? t = a.intrinsic? t := by
  unfold intrinsic?
  rw [same]

theorem isNullable_congr {a' : Arena} {t : TypeId} (same : a'.data t = a.data t) :
    a'.isNullable t = a.isNullable t := by
  unfold isNullable
  rw [intrinsic?_congr same]

/-- Only what the members are made of counts. -/
theorem NormalUnion.mono {a' : Arena} {members : List TypeId} (normal : a.NormalUnion members)
    (same : ∀ m ∈ members, a'.data m = a.data m) : a'.NormalUnion members where
  several := normal.several
  increasing := normal.increasing
  flat m inside := by
    rw [same m inside]
    exact normal.flat m inside
  proper m inside := by
    rw [intrinsic?_congr (same m inside)]
    exact normal.proper m inside
  nullable m inside null other listed := by
    rw [isNullable_congr (same m inside)] at null
    rw [isNullable_congr (same other listed)]
    exact normal.nullable m inside null other listed

theorem NormalIntersection.mono {a' : Arena} {members : List TypeId}
    (normal : a.NormalIntersection members) (same : ∀ m ∈ members, a'.data m = a.data m) :
    a'.NormalIntersection members where
  several := normal.several
  distinct := normal.distinct
  flat m inside := by
    rw [same m inside]
    exact normal.flat m inside
  proper m inside := by
    rw [intrinsic?_congr (same m inside)]
    exact normal.proper m inside

theorem Formed.lt_of_mem (formed : a.Formed) {t part : TypeId}
    (mentioned : part ∈ Mentions.types (a.data t)) : part.index < t.index :=
  formed.earlier t part (List.mem_append_left _ mentioned)

theorem of_mem_types {types : List TypeId} {t : TypeId} (mentioned : t ∈ Mentions.types types) :
    t ∈ types := by
  obtain ⟨m, listed, same⟩ := List.mem_flatMap.mp mentioned
  exact List.mem_singleton.mp same ▸ listed

/-- A type that is not there reads as `any`. -/
theorem lt_size_of_data {t : TypeId} {data : TypeData} (here : a.data t = data)
    (other : data ≠ .intrinsic .any) : t.index < a.size := by
  by_contra outside
  have missing := congrArg TypeInfo.data (a.info_of_size_le t (Nat.le_of_not_lt outside))
  exact other (here.symm.trans missing)

/-! ### What the operations come to -/

theorem info_addInfo (a : Arena) (info : TypeInfo) (t : TypeId) :
    (a.addInfo info).2.info t = if t = ⟨a.size⟩ then info else a.info t := by
  by_cases last : t = ⟨a.size⟩
  · rw [if_pos last, last]
    exact info_addInfo_self a info
  · have index : t.index ≠ a.types.size := fun same => last (congrArg TypeId.mk same)
    simp only [if_neg last, addInfo, Arena.info, Array.getElem?_push, if_neg index]

theorem info_add (a : Arena) (data : TypeData) (t : TypeId) :
    (a.add data).2.info t = if t = ⟨a.size⟩ then ⟨data, none⟩ else a.info t :=
  info_addInfo a ⟨data, none⟩ t

theorem data_add (a : Arena) (data : TypeData) (t : TypeId) :
    (a.add data).2.data t = if t = ⟨a.size⟩ then data else a.data t := by
  unfold Arena.data
  rw [info_add]
  exact apply_ite TypeInfo.data _ _ _

/-- The table after a type was made for a new key. -/
def withKey (a : Arena) (k : InternKey) : Arena :=
  { (a.add k.data).2 with interned := a.interned.insert k ⟨a.size⟩ }

theorem intern_cases (a : Arena) (k : InternKey) :
    (∃ t, a.interned[k]? = some t ∧ a.intern k k.data = (t, a)) ∨
      (a.interned[k]? = none ∧ a.intern k k.data = (⟨a.size⟩, a.withKey k)) := by
  unfold intern
  cases found : a.interned[k]? with
  | some t => exact Or.inl ⟨t, rfl, rfl⟩
  | none => exact Or.inr ⟨rfl, rfl⟩

theorem interned_withKey (a : Arena) (k other : InternKey) :
    (a.withKey k).interned[other]? = if k = other then some ⟨a.size⟩ else a.interned[other]? := by
  simp only [withKey, Std.HashMap.getElem?_insert, beq_iff_eq]

/-- Whether a type leaves no room for others in a union. -/
def absorbs (a : Arena) (t : TypeId) : Bool :=
  a.intrinsic? t = some .any || a.intrinsic? t = some .unknown

/-- The key of a union, if a type has to be kept for it. -/
def unionKey? (a : Arena) (members : List TypeId) : Option InternKey :=
  let flat := a.flattenUnion members
  if flat.any a.absorbs then none
  else if 2 ≤ (a.normalMembers flat).length then some (.union (a.normalMembers flat)) else none

theorem union_eq (a : Arena) (members : List TypeId) :
    a.union members =
      match (a.flattenUnion members).find? a.absorbs with
      | some absorbing => (absorbing, a)
      | none =>
          match a.normalMembers (a.flattenUnion members) with
          | [] => (intrinsicId .never, a)
          | [t] => (t, a)
          | ids => a.intern (.union ids) (.union ids) := rfl

/-- A union is a type that is there, or the type of its key. -/
theorem union_cases (a : Arena) (members : List TypeId) :
    (∃ t, (t ∈ a.flattenUnion members ∨ t = intrinsicId .never) ∧ a.unionKey? members = none ∧
      a.union members = (t, a)) ∨
    ∃ k, a.unionKey? members = some k ∧ a.union members = a.intern k k.data := by
  rw [union_eq]
  cases found : (a.flattenUnion members).find? a.absorbs with
  | some absorbing =>
      have inside := List.mem_of_find?_eq_some found
      have some : (a.flattenUnion members).any a.absorbs = true :=
        List.any_eq_true.mpr ⟨absorbing, inside, List.find?_some found⟩
      exact Or.inl ⟨absorbing, Or.inl inside, if_pos some, rfl⟩
  | none =>
      have free : ¬ (a.flattenUnion members).any a.absorbs = true := by
        rw [List.any_eq_true]
        rintro ⟨t, inside, absorbs⟩
        exact List.find?_eq_none.mp found t inside absorbs
      simp only [unionKey?, if_neg free]
      cases normal : a.normalMembers (a.flattenUnion members) with
      | nil => exact Or.inl ⟨_, Or.inr rfl, rfl, rfl⟩
      | cons t rest =>
          cases rest with
          | nil =>
              have listed : t ∈ a.normalMembers (a.flattenUnion members) :=
                normal ▸ List.mem_singleton_self t
              exact Or.inl ⟨t, Or.inl (normalMembers_subset listed), rfl, rfl⟩
          | cons second rest => exact Or.inr ⟨_, if_pos (Nat.le_add_left 2 rest.length), rfl⟩

/-- An intersection is a type that is there, or a new one. -/
theorem intersection_cases (a : Arena) (members : List TypeId) :
    let flat := a.flattenIntersection members
    (∃ t, (t ∈ flat ∨ ∃ i, t = intrinsicId i) ∧ a.intersection members = (t, a)) ∨
    (2 ≤ flat.length ∧ (∀ m ∈ flat, ∀ i, a.intrinsic? m = some i → i ≠ .any ∧ i ≠ .never) ∧
      a.intersection members = a.add (.intersection flat)) := by
  unfold intersection
  dsimp only
  split
  · exact Or.inl ⟨_, Or.inr ⟨_, rfl⟩, rfl⟩
  · rename_i noAny
    split
    · exact Or.inl ⟨_, Or.inr ⟨_, rfl⟩, rfl⟩
    · rename_i noNever
      split
      · exact Or.inl ⟨_, Or.inr ⟨_, rfl⟩, rfl⟩
      · rename_i t single
        exact Or.inl ⟨t, Or.inl (single ▸ List.mem_singleton_self t), rfl⟩
      · rename_i notNone notOne
        simp only [List.any_eq_true, decide_eq_true_eq, not_exists, not_and] at noAny noNever
        refine Or.inr ⟨?_, fun m inside i kind => ⟨?_, ?_⟩, rfl⟩
        · match h : a.flattenIntersection members with
          | [] => exact absurd h notNone
          | [t] => exact absurd h (notOne t)
          | _ :: _ :: _ => exact Nat.le_add_left 2 _
        · exact fun same => noAny m inside (same ▸ kind)
        · exact fun same => noNever m inside (same ▸ kind)

/-- What unions keep, widening keeps. -/
theorem widenTo_keeps (keeps : Arena → Prop) (there : Arena → TypeId → Prop)
    (mono : ∀ a a' t, a.Extends a' → there a t → there a' t)
    (base : ∀ a t, keeps a → t.index < 14 → there a t)
    (parts : ∀ a t members, keeps a → there a t → a.data t = .union members →
      ∀ m ∈ members, there a m)
    (unions : ∀ a members, keeps a → (∀ m ∈ members, there a m) →
      keeps (a.union members).2 ∧ there (a.union members).2 (a.union members).1)
    (n : Nat) (a : Arena) (t : TypeId) (start : keeps a) (here : there a t) :
    keeps (widenTo n a t).2 ∧ there (widenTo n a t).2 (widenTo n a t).1 := by
  induction n generalizing a t with
  | zero => exact ⟨start, here⟩
  | succ n ih =>
      have all : ∀ (list : List TypeId) (a : Arena), keeps a → (∀ m ∈ list, there a m) →
          keeps (mapIds (widenTo n) a list).2 ∧
            ∀ m ∈ (mapIds (widenTo n) a list).1, there (mapIds (widenTo n) a list).2 m := by
        intro list
        induction list with
        | nil => exact fun a start _ => ⟨start, nofun⟩
        | cons x rest each =>
            intro a start inside
            obtain ⟨kept, first⟩ := ih a x start (inside x List.mem_cons_self)
            have grown := extends_widenTo n a x
            obtain ⟨last, others⟩ := each (widenTo n a x).2 kept fun m listed =>
              mono _ _ m grown (inside m (List.mem_cons_of_mem _ listed))
            refine ⟨last, fun m listed => ?_⟩
            rcases List.mem_cons.mp listed with same | later
            · rw [same]
              exact mono _ _ _ (extends_mapIds _ (extends_widenTo n) _ rest) first
            · exact others m later
      unfold widenTo
      split
      · exact ⟨start, base a booleanId start (by decide)⟩
      · exact ⟨start, base a (intrinsicId .number) start (by decide)⟩
      · exact ⟨start, base a (intrinsicId .string) start (by decide)⟩
      · rename_i members data
        split
        · exact ⟨start, here⟩
        · obtain ⟨kept, widened⟩ := all members a start (parts a t members start here data)
          exact unions _ _ kept widened
      · exact ⟨start, here⟩

/-! ### Normal members -/

/-- Repetitions stand next to each other in a list in order, so that none is left. -/
theorem eraseReps_increasing {list : List TypeId} (sorted : list.Pairwise (·.index ≤ ·.index)) :
    list.eraseReps.Pairwise (·.index < ·.index) := by
  -- `sofar` holds the ones before `last` in reverse order
  have loop : ∀ (rest sofar : List TypeId) (last : TypeId),
      (last :: rest).Pairwise (·.index ≤ ·.index) →
      (last :: sofar).Pairwise (fun later earlier => earlier.index < later.index) →
      (List.eraseRepsBy.loop (· == ·) last rest sofar).Pairwise (·.index < ·.index) := by
    intro rest
    induction rest with
    | nil =>
        intro sofar last _ before
        simp only [List.eraseRepsBy.loop]
        exact List.pairwise_reverse.mpr before
    | cons x rest ih =>
        intro sofar last ordered before
        rw [List.pairwise_cons] at ordered
        unfold List.eraseRepsBy.loop
        split
        · rename_i same
          rw [← beq_iff_eq.mp same] at ordered
          exact ih sofar last ordered.2 before
        · rename_i differs
          have index : last.index ≠ x.index := fun same =>
            absurd (beq_iff_eq.mpr (congrArg TypeId.mk same)) (Bool.eq_false_iff.mp differs)
          have next : last.index < x.index :=
            Nat.lt_of_le_of_ne (ordered.1 x List.mem_cons_self) index
          refine ih (last :: sofar) x ordered.2 (List.pairwise_cons.mpr ⟨fun y inside => ?_, before⟩)
          rcases List.mem_cons.mp inside with same | earlier
          · rw [same]
            exact next
          · exact Nat.lt_trans ((List.pairwise_cons.mp before).1 y earlier) next
  cases list with
  | nil => exact List.Pairwise.nil
  | cons x rest => exact loop rest [] x sorted (List.pairwise_singleton _ x)

theorem normalMembers_increasing (a : Arena) (flat : List TypeId) :
    (a.normalMembers flat).Pairwise (·.index < ·.index) := by
  apply eraseReps_increasing
  have sorted := @List.pairwise_mergeSort TypeId (fun x y => x.index ≤ y.index)
    (fun x y z first second => by simp only [decide_eq_true_eq] at *; omega)
    (fun x y => by simp only [Bool.or_eq_true, decide_eq_true_eq]; omega)
  simpa only [decide_eq_true_eq] using sorted _

/-- What is left of the members: no `never`, and `null` and `undefined` only where there is nothing
else. -/
theorem mem_normalMembers {flat : List TypeId} {t : TypeId} :
    t ∈ a.normalMembers flat ↔ t ∈ flat ∧ a.intrinsic? t ≠ some .never ∧
      (a.isNullable t = true → ∀ u ∈ flat, a.intrinsic? u ≠ some .never → a.isNullable u = true) := by
  unfold normalMembers
  dsimp only
  rw [mem_eraseReps, List.mem_mergeSort]
  split
  · rename_i other
    obtain ⟨u, present, proper⟩ := List.any_eq_true.mp other
    have there := List.mem_filter.mp present
    simp only [List.mem_filter, decide_eq_true_eq, Bool.not_eq_true'] at there proper ⊢
    grind
  · rename_i none
    simp only [List.any_eq_true, List.mem_filter, decide_eq_true_eq, not_exists, not_and,
      Bool.not_eq_true', Bool.not_eq_false, and_imp] at none ⊢
    grind

theorem ne_never_of_mem_normalMembers {flat : List TypeId} {t : TypeId}
    (listed : t ∈ a.normalMembers flat) : a.intrinsic? t ≠ some .never :=
  (mem_normalMembers.mp listed).2.1

/-- `null` and `undefined` stay only where there is nothing else. -/
theorem nullable_normalMembers {flat : List TypeId} {t other : TypeId}
    (listed : t ∈ a.normalMembers flat) (null : a.isNullable t = true)
    (beside : other ∈ a.normalMembers flat) : a.isNullable other = true := by
  obtain ⟨inside, proper, -⟩ := mem_normalMembers.mp beside
  exact (mem_normalMembers.mp listed).2.2 null other inside proper

/-- Where the parts of all types are there and unions are flat, so are the members. -/
theorem flattenUnion_flat (formed : a.Formed) {members : List TypeId}
    (inside : ∀ m ∈ members, m.index < a.size) :
    ∀ t ∈ a.flattenUnion members, t.index < a.size ∧ ∀ inner, a.data t ≠ .union inner := by
  intro t listed
  obtain ⟨m, here, part⟩ := List.mem_flatMap.mp listed
  split at part
  · rename_i inner data
    have before : t.index < m.index := formed.lt_of_mem (by rw [data]; exact mem_types part)
    exact ⟨Nat.lt_trans before (inside m here), (formed.unions m inner data).flat t part⟩
  · rename_i other
    rw [List.mem_singleton.mp part]
    exact ⟨inside m here, other⟩

theorem normalUnion_normalMembers {flat : List TypeId}
    (several : 2 ≤ (a.normalMembers flat).length) (free : ¬ flat.any a.absorbs = true)
    (plain : ∀ t ∈ flat, ∀ inner, a.data t ≠ .union inner) :
    a.NormalUnion (a.normalMembers flat) where
  several := several
  increasing := normalMembers_increasing a flat
  flat m listed := plain m (normalMembers_subset listed)
  proper m listed i kind := by
    have room : ¬ a.absorbs m = true := fun absorbing =>
      free (List.any_eq_true.mpr ⟨m, normalMembers_subset listed, absorbing⟩)
    have something := ne_never_of_mem_normalMembers listed
    unfold absorbs at room
    rw [kind] at room something
    cases i <;> simp_all
  nullable m listed null other beside := nullable_normalMembers listed null beside

theorem mem_foldl_addDistinct {list sofar : List TypeId} {t : TypeId} :
    t ∈ list.foldl addDistinct sofar ↔ t ∈ sofar ∨ t ∈ list := by
  induction list generalizing sofar with
  | nil => simp
  | cons x rest ih =>
      rw [List.foldl_cons, ih, addDistinct]
      split <;> simp_all [or_assoc]
      grind

theorem nodup_foldl_addDistinct {list sofar : List TypeId} (distinct : sofar.Nodup) :
    (list.foldl addDistinct sofar).Nodup := by
  induction list generalizing sofar with
  | nil => exact distinct
  | cons x rest ih =>
      apply ih
      unfold addDistinct
      split
      · exact distinct
      · rename_i missing
        rw [List.contains_iff_mem] at missing
        exact List.nodup_append.mpr ⟨distinct, List.nodup_singleton x, by grind⟩

theorem flattenIntersection_flat (formed : a.Formed) {members : List TypeId}
    (inside : ∀ m ∈ members, m.index < a.size) :
    ∀ t ∈ a.flattenIntersection members,
      t.index < a.size ∧ ∀ inner, a.data t ≠ .intersection inner := by
  intro t listed
  have part := mem_foldl_addDistinct.mp listed
  obtain ⟨m, here, part⟩ := List.mem_flatMap.mp (part.resolve_left List.not_mem_nil)
  split at part
  · rename_i inner data
    have before : t.index < m.index := formed.lt_of_mem (by rw [data]; exact mem_types part)
    exact ⟨Nat.lt_trans before (inside m here), (formed.intersections m inner data).flat t part⟩
  · rename_i other
    rw [List.mem_singleton.mp part]
    exact ⟨inside m here, other⟩

/-! ### Regular tables -/

theorem types_add {data : TypeData} {t : TypeId} : t ∈ Mentions.types (TypeInfo.mk data none) ↔
    t ∈ Mentions.types data := by
  show t ∈ Mentions.types data ++ [] ↔ _
  rw [List.append_nil]

/-- A new type that is made of types that are there. -/
theorem Formed.addInfo (formed : a.Formed) {info : TypeInfo}
    (inside : ∀ part ∈ Mentions.types info, part.index < a.size)
    (union : ∀ members, info.data = .union members → a.NormalUnion members)
    (intersection : ∀ members, info.data = .intersection members → a.NormalIntersection members) :
    (a.addInfo info).2.Formed := by
  -- all members were there before, so that normal lists stay normal
  have before : ∀ t : TypeId, t.index < a.size → (a.addInfo info).2.data t = a.data t := fun t here =>
    data_eq ((extends_addInfo a info).info t here)
  have parts : ∀ t, ∀ part ∈ Mentions.types ((a.addInfo info).2.info t),
      part.index < t.index ∧ part.index < a.size := by
    intro t part mentioned
    rw [info_addInfo] at mentioned
    split at mentioned
    · rename_i last
      have here := inside part mentioned
      exact ⟨last ▸ here, here⟩
    · have bound := formed.earlier t part mentioned
      refine ⟨bound, ?_⟩
      by_contra outside
      rw [info_of_size_le a t (by omega)] at mentioned
      cases mentioned
  have members : ∀ t m, m ∈ Mentions.types ((a.addInfo info).2.data t) →
      (a.addInfo info).2.data m = a.data m := fun t m mentioned =>
    before m (parts t m (List.mem_append_left _ mentioned)).2
  have data : ∀ t, (a.addInfo info).2.data t = if t = ⟨a.size⟩ then info.data else a.data t := by
    intro t
    unfold Arena.data
    rw [info_addInfo]
    exact apply_ite TypeInfo.data _ _ _
  refine ⟨fun t part mentioned => (parts t part mentioned).1, fun t list made => ?_,
    fun t list made => ?_⟩
  · have same : ∀ m ∈ list, (a.addInfo info).2.data m = a.data m := fun m listed =>
      members t m (by rw [made]; exact mem_types listed)
    rw [data] at made
    split at made
    · exact (union list made).mono same
    · exact (formed.unions t list made).mono same
  · have same : ∀ m ∈ list, (a.addInfo info).2.data m = a.data m := fun m listed =>
      members t m (by rw [made]; exact mem_types listed)
    rw [data] at made
    split at made
    · exact (intersection list made).mono same
    · exact (formed.intersections t list made).mono same

theorem Formed.add (formed : a.Formed) {data : TypeData}
    (inside : ∀ part ∈ Mentions.types data, part.index < a.size)
    (union : ∀ members, data = .union members → a.NormalUnion members)
    (intersection : ∀ members, data = .intersection members → a.NormalIntersection members) :
    (a.add data).2.Formed :=
  formed.addInfo (fun part mentioned => inside part (types_add.mp mentioned)) union intersection

/-- A type that no key describes leaves what is found for keys. -/
theorem Regular.add (regular : a.Regular) {data : TypeData}
    (inside : ∀ part ∈ Mentions.types data, part.index < a.size)
    (other : ∀ k : InternKey, data ≠ k.data)
    (intersection : ∀ members, data = .intersection members → a.NormalIntersection members) :
    (a.add data).2.Regular where
  toFormed := regular.toFormed.add inside (fun members same => absurd same (other (.union members)))
    intersection
  indexed k t := by
    show a.interned[k]? = some t ↔ _
    rw [regular.indexed, data_add]
    split
    · rename_i last
      refine ⟨fun here => ?_, fun same => absurd same (other k)⟩
      have bound := lt_size_of_key here
      rw [last] at bound
      exact absurd bound (Nat.lt_irrefl _)
    · exact Iff.rfl

theorem data_withKey (a : Arena) (k : InternKey) (t : TypeId) :
    (a.withKey k).data t = if t = ⟨a.size⟩ then k.data else a.data t := data_add a k.data t

theorem Formed.withKey (formed : a.Formed) {k : InternKey}
    (inside : ∀ part ∈ Mentions.types k.data, part.index < a.size)
    (normal : ∀ members, k = .union members → a.NormalUnion members) : (a.withKey k).Formed := by
  have grown : (a.add k.data).2.Formed := by
    refine formed.add inside (fun members same => normal members ?_) fun members same => ?_
    · exact InternKey.data_injective same
    · cases k <;> cases same
  exact ⟨grown.earlier,
    fun t members made => (grown.unions t members made).mono fun _ _ => rfl,
    fun t members made => (grown.intersections t members made).mono fun _ _ => rfl⟩

/-- A key of which there is no type yet gets one. -/
theorem Regular.withKey (regular : a.Regular) {k : InternKey} (new : a.interned[k]? = none)
    (inside : ∀ part ∈ Mentions.types k.data, part.index < a.size)
    (normal : ∀ members, k = .union members → a.NormalUnion members) : (a.withKey k).Regular where
  toFormed := regular.toFormed.withKey inside normal
  indexed other t := by
    have missing : a.data t ≠ k.data := fun made => by
      rw [(regular.indexed k t).mpr made] at new
      cases new
    have there := fun made : a.data t = other.data => lt_size_of_key made
    rw [interned_withKey, data_withKey]
    by_cases same : k = other
    · rw [if_pos same, ← same]
      by_cases last : t = ⟨a.size⟩
      · simp [last]
      · simp [last, missing, Ne.symm last]
    · rw [if_neg same, regular.indexed]
      by_cases last : t = ⟨a.size⟩
      · have differs : k.data ≠ other.data := fun eq => same (InternKey.data_injective eq)
        simp only [if_pos last, differs, iff_false]
        intro made
        have bound := there made
        rw [last] at bound
        exact Nat.lt_irrefl _ bound
      · rw [if_neg last]

theorem Regular.intern (regular : a.Regular) {k : InternKey}
    (inside : ∀ part ∈ Mentions.types k.data, part.index < a.size)
    (normal : ∀ members, k = .union members → a.NormalUnion members) :
    (a.intern k k.data).2.Regular := by
  rcases intern_cases a k with ⟨t, -, found⟩ | ⟨new, made⟩
  · rw [found]
    exact regular
  · rw [made]
    exact regular.withKey new inside normal

theorem regular_empty : ({} : Arena).Regular := by
  have missing : ∀ t, ({} : Arena).info t = default := fun t => info_of_size_le {} t (Nat.zero_le _)
  have any : ∀ t, ({} : Arena).data t = .intrinsic .any := fun t => congrArg TypeInfo.data (missing t)
  refine ⟨⟨fun t part mentioned => ?_, fun t members made => ?_, fun t members made => ?_⟩,
    fun k t => ⟨fun found => ?_, fun made => ?_⟩⟩
  · rw [missing] at mentioned
    cases mentioned
  · cases (any t).symm.trans made
  · cases (any t).symm.trans made
  · have none : (∅ : Std.HashMap InternKey TypeId)[k]? = some t := found
    rw [Std.HashMap.getElem?_empty] at none
    cases none
  · exact absurd (lt_size_of_key made) (Nat.not_lt_zero _)

theorem regular_keywords {list : List Intrinsic} (regular : a.Regular) :
    (list.foldl (fun a i => (a.add (.intrinsic i)).2) a).Regular := by
  induction list generalizing a with
  | nil => exact regular
  | cons i rest ih => exact ih (regular.add nofun (fun k => by cases k <;> exact nofun) nofun)

/-- The first table before there is a type for `boolean`. -/
def literals : Arena :=
  let keywords := Intrinsic.all.foldl (fun a i => (a.add (.intrinsic i)).2) ({} : Arena)
  let withFalse := (keywords.intern (.boolean false) (.booleanLiteral false)).2
  (withFalse.intern (.boolean true) (.booleanLiteral true)).2

theorem normalUnion_boolean : literals.NormalUnion [falseId, trueId] := by
  have data : ∀ m ∈ [falseId, trueId], ∃ value, literals.data m = .booleanLiteral value := by
    simp only [List.forall_mem_cons]
    exact ⟨⟨false, by cbv⟩, ⟨true, by cbv⟩, nofun⟩
  have plain : ∀ m ∈ [falseId, trueId], literals.intrinsic? m = none := by
    intro m listed
    obtain ⟨value, literal⟩ := data m listed
    simp only [intrinsic?, literal]
  refine ⟨by decide, by decide, fun m listed inner made => ?_, fun m listed i kind => ?_,
    fun m listed null => ?_⟩
  · obtain ⟨value, literal⟩ := data m listed
    cases literal.symm.trans made
  · cases (plain m listed).symm.trans kind
  · simp only [isNullable, plain m listed, Bool.false_eq_true] at null

theorem regular_initial : initial.Regular := by
  have regular : literals.Regular :=
    ((regular_keywords regular_empty).intern (k := .boolean false) nofun nofun).intern
      (k := .boolean true) nofun nofun
  refine regular.intern (k := .union [falseId, trueId]) (fun part mentioned => ?_) fun members same => ?_
  · have size : literals.size = 13 := by cbv
    rw [size]
    revert part
    decide
  · cases same
    exact normalUnion_boolean

end

end Arena

end ApiDocs
