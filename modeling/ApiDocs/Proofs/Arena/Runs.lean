import ApiDocs.Proofs.Arena.Normal

set_option autoImplicit false

/-!
Runs of operations on the table of types. As long as types are only made, the table stays regular.
Where places that were reserved are filled as well, the types of keys are still found by what they
are, so that the operations that look up keys tell them apart.
-/

namespace ApiDocs.Arena

section

variable {a : Arena}

/-! ### Making types -/

/-- What is made for a key is found for it from then on. -/
theorem interned_intern (a : Arena) (k : InternKey) :
    (a.intern k k.data).2.interned[k]? = some (a.intern k k.data).1 := by
  rcases intern_cases a k with ⟨t, found, made⟩ | ⟨-, made⟩
  · rw [made]
    exact found
  · rw [made, interned_withKey, if_pos rfl]

theorem unionKey?_normal (formed : a.Formed) {members : List TypeId} {k : InternKey}
    (inside : ∀ m ∈ members, m.index < a.size) (key : a.unionKey? members = some k) :
    ∃ normal, k = .union normal ∧ a.NormalUnion normal ∧ ∀ m ∈ normal, m.index < a.size := by
  have flat := flattenUnion_flat formed inside
  unfold unionKey? at key
  dsimp only at key
  split at key
  · cases key
  · rename_i free
    split at key
    · rename_i several
      cases key
      exact ⟨_, rfl, normalUnion_normalMembers several free fun t listed => (flat t listed).2,
        fun m listed => (flat m (normalMembers_subset listed)).1⟩
    · cases key

/-- What holds of tables in good order, and stays when types of keys are made and types that no key
describes. -/
structure Stable (holds : Arena → Prop) : Prop where
  formed : ∀ a, holds a → a.Formed
  keyed : ∀ a, holds a → a.Keyed
  base : ∀ a, holds a → 14 ≤ a.size
  add : ∀ a data, holds a → (∀ part ∈ Mentions.types data, part.index < a.size) →
    (∀ k : InternKey, data ≠ k.data) →
    (∀ members, data = .intersection members → a.NormalIntersection members) →
    holds (a.add data).2
  intern : ∀ a (k : InternKey), holds a → (∀ part ∈ Mentions.types k.data, part.index < a.size) →
    (∀ members, k = .union members → a.NormalUnion members) → holds (a.intern k k.data).2

namespace Stable

variable {holds : Arena → Prop} (stable : Stable holds)
include stable

theorem union (start : holds a) {members : List TypeId} (inside : ∀ m ∈ members, m.index < a.size) :
    holds (a.union members).2 ∧ (a.union members).1.index < (a.union members).2.size := by
  have formed := stable.formed a start
  rcases union_cases a members with ⟨t, there, -, same⟩ | ⟨k, key, made⟩
  · rw [same]
    refine ⟨start, ?_⟩
    rcases there with listed | never
    · exact (flattenUnion_flat formed inside t listed).1
    · rw [never]
      exact Nat.lt_of_lt_of_le (show (intrinsicId .never).index < 14 by decide) (stable.base a start)
  · obtain ⟨normal, rfl, good, parts⟩ := unionKey?_normal formed inside key
    rw [made]
    have kept := stable.intern a (.union normal) start
      (fun part mentioned => parts part (of_mem_types mentioned))
      fun others same => InternKey.union.inj same ▸ good
    exact ⟨kept, (stable.keyed _ kept).inside (interned_intern a _)⟩

theorem intersection (start : holds a) {members : List TypeId}
    (inside : ∀ m ∈ members, m.index < a.size) : holds (a.intersection members).2 := by
  have flat := flattenIntersection_flat (stable.formed a start) inside
  rcases intersection_cases a members with ⟨t, -, same⟩ | ⟨several, proper, made⟩
  · rw [same]
    exact start
  · rw [made]
    apply stable.add a _ start
    · intro part mentioned
      exact (flat part (of_mem_types mentioned)).1
    · intro k
      cases k <;> exact nofun
    · intro others same
      cases same
      exact ⟨several, nodup_foldl_addDistinct List.nodup_nil, fun m listed => (flat m listed).2,
        proper⟩

theorem widen (start : holds a) {t : TypeId} (inside : t.index < a.size) : holds (a.widen t).2 := by
  refine (widenTo_keeps holds (fun a t => t.index < a.size) ?_ ?_ ?_ ?_ _ a t start inside).1
  · intro a a' t grown here
    exact Nat.lt_of_lt_of_le here grown.size
  · intro a t start small
    exact Nat.lt_of_lt_of_le small (stable.base a start)
  · intro a t members start here data m listed
    have before : m.index < t.index := (stable.formed a start).lt_of_mem (by rw [data]; exact mem_types listed)
    omega
  · intro a members start inside
    exact stable.union start inside

end Stable

/-- A regular table with the types that all of them start with. -/
structure Whole (a : Arena) : Prop extends Regular a where
  base : 14 ≤ a.size

theorem whole_initial : initial.Whole := ⟨regular_initial, by cbv⟩

theorem stable_whole : Stable Whole where
  formed _ whole := whole.toFormed
  keyed _ whole k t found := (whole.indexed k t).mp found
  base _ whole := whole.base
  add a data whole inside other intersection :=
    ⟨whole.toRegular.add inside other intersection, Nat.le_trans whole.base (extends_add a data).size⟩
  intern a k whole inside normal :=
    ⟨whole.toRegular.intern inside normal, Nat.le_trans whole.base (extends_intern a k k.data).size⟩

/-! ### Filling places -/

/-- What is found for keys is as they say, and none of it was reserved. -/
structure Faithful (reserved : List TypeId) (a : Arena) : Prop where
  keyed : a.Keyed
  apart : ∀ t ∈ reserved, t.index < a.size ∧ ∀ k : InternKey, a.interned[k]? ≠ some t

/-- What was found for a key is found for it later. -/
def Remembers (a a' : Arena) : Prop :=
  ∀ (k : InternKey) (t : TypeId), a.interned[k]? = some t → a'.interned[k]? = some t

variable {reserved : List TypeId}

theorem faithful_initial : Faithful [] initial := ⟨fun k t => (regular_initial.indexed k t).mp, nofun⟩

theorem remembers_intern (a : Arena) (k : InternKey) : a.Remembers (a.intern k k.data).2 := by
  intro other t found
  rcases intern_cases a k with ⟨_, -, made⟩ | ⟨new, made⟩
  · rw [made]
    exact found
  · have differs : k ≠ other := fun same => by
      rw [same, found] at new
      cases new
    rw [made, interned_withKey, if_neg differs]
    exact found

theorem Faithful.intern (faithful : Faithful reserved a) (k : InternKey) :
    Faithful reserved (a.intern k k.data).2 := by
  rcases intern_cases a k with ⟨t, -, made⟩ | ⟨-, made⟩
  · rw [made]
    exact faithful
  rw [made]
  refine ⟨fun other t found => ?_, fun t listed => ⟨?_, fun other found => ?_⟩⟩
  · rw [interned_withKey] at found
    rw [data_withKey]
    by_cases same : k = other
    · rw [if_pos same, Option.some_inj] at found
      rw [if_pos found.symm, same]
    · rw [if_neg same] at found
      have here := faithful.keyed other t found
      have old : t ≠ ⟨a.size⟩ := fun last => by
        have bound := lt_size_of_key here
        rw [last] at bound
        exact Nat.lt_irrefl _ bound
      rw [if_neg old]
      exact here
  · exact Nat.lt_of_lt_of_le (faithful.apart t listed).1 (extends_add a k.data).size
  · rw [interned_withKey] at found
    split at found
    · cases found
      exact Nat.lt_irrefl _ (faithful.apart _ listed).1
    · exact (faithful.apart t listed).2 other found

/-- A new type that is found for no key can be reserved. -/
theorem Faithful.add (faithful : Faithful reserved a) (data : TypeData) :
    Faithful (⟨a.size⟩ :: reserved) (a.add data).2 := by
  have old : ∀ (k : InternKey) (t : TypeId), a.interned[k]? = some t → t ≠ ⟨a.size⟩ := by
    intro k t found last
    have bound := lt_size_of_key (faithful.keyed k t found)
    rw [last] at bound
    exact Nat.lt_irrefl _ bound
  have size : (a.add data).2.size = a.size + 1 := size_addInfo a _
  refine ⟨fun k t found => ?_, fun t listed => ⟨?_, fun k found => ?_⟩⟩
  · rw [data_add, if_neg (old k t found)]
    exact faithful.keyed k t found
  · rw [size]
    rcases List.mem_cons.mp listed with last | before
    · exact last ▸ Nat.lt_succ_self _
    · exact Nat.lt_succ_of_lt (faithful.apart t before).1
  · rcases List.mem_cons.mp listed with last | before
    · exact old k t found last
    · exact (faithful.apart t before).2 k found

/-- Only reserved places are filled, which are found for no key. -/
theorem Faithful.fill (faithful : Faithful reserved a) {a' : Arena} {t : TypeId}
    (listed : t ∈ reserved) (size : a'.size = a.size) (interned : a'.interned = a.interned)
    (others : ∀ other, other ≠ t → a'.info other = a.info other) : Faithful reserved a' where
  keyed k other found := by
    rw [interned] at found
    have differs : other ≠ t := fun same => (faithful.apart t listed).2 k (same ▸ found)
    rw [data_eq (others other differs)]
    exact faithful.keyed k other found
  apart other before := by
    rw [size, interned]
    exact faithful.apart other before

theorem Faithful.union (faithful : Faithful reserved a) (members : List TypeId) :
    Faithful reserved (a.union members).2 ∧ a.Remembers (a.union members).2 := by
  rcases union_cases a members with ⟨t, -, -, same⟩ | ⟨k, -, made⟩
  · rw [same]
    exact ⟨faithful, fun _ _ found => found⟩
  · rw [made]
    exact ⟨faithful.intern k, remembers_intern a k⟩

theorem Faithful.widen (faithful : Faithful reserved a) (t : TypeId) :
    Faithful reserved (a.widen t).2 ∧ a.Remembers (a.widen t).2 := by
  refine (widenTo_keeps (fun a' => Faithful reserved a' ∧ a.Remembers a') (fun _ _ => True) ?_ ?_ ?_ ?_
    _ a t ⟨faithful, fun _ _ found => found⟩ trivial).1
  · exact fun _ _ _ _ _ => trivial
  · exact fun _ _ _ _ => trivial
  · exact fun _ _ _ _ _ _ _ _ => trivial
  · intro a' members kept _
    have made := kept.1.union members
    exact ⟨⟨made.1, fun k t found => made.2 k t (kept.2 k t found)⟩, trivial⟩

end

/-! ### Runs of operations -/

/-- A table in the making, with the places that were handed out without a key. -/
structure Draft where
  arena : Arena := .initial
  reserved : List TypeId := []

/-- The operations of a table. -/
inductive Op where
  | booleanLiteral (value : Bool)
  | numberLiteral (text : String)
  | stringLiteral (value : String)
  | reference (symbol : SymbolId) (args : List TypeId)
  | union (members : List TypeId)
  | intersection (members : List TypeId)
  | tuple (items : List TypeId)
  | object (shape : Shape)
  | widen (t : TypeId)
  | add (data : TypeData)
  | set (t : TypeId) (info : TypeInfo)
  | setData (t : TypeId) (data : TypeData)

/-- Leaves out what was reserved: a type of a key, or one that was there. -/
def Draft.keeping (d : Draft) (made : TypeId × Arena) : TypeId × Draft :=
  (made.1, { d with arena := made.2 })

/-- The type is reserved if it is a new one. -/
def Draft.reserving (d : Draft) (made : TypeId × Arena) : TypeId × Draft :=
  (made.1,
    { arena := made.2
      reserved := if d.arena.size < made.2.size then made.1 :: d.reserved else d.reserved })

/-- The type that an operation gives, and the table after it. -/
def Op.run (d : Draft) : Op → TypeId × Draft
  | .booleanLiteral value => d.keeping (d.arena.booleanLiteral value)
  | .numberLiteral text => d.keeping (d.arena.numberLiteral text)
  | .stringLiteral value => d.keeping (d.arena.stringLiteral value)
  | .reference symbol args => d.keeping (d.arena.reference symbol args)
  | .union members => d.keeping (d.arena.union members)
  | .intersection members => d.reserving (d.arena.intersection members)
  | .tuple items => d.reserving (d.arena.tuple items)
  | .object shape => d.reserving (d.arena.object shape)
  | .widen t => d.keeping (d.arena.widen t)
  | .add data => d.reserving (d.arena.add data)
  | .set t info => d.keeping (t, d.arena.set t info)
  | .setData t data => d.keeping (t, d.arena.setData t data)

/-- The types that are passed to an operation. -/
def Op.types : Op → List TypeId
  | .booleanLiteral _ | .numberLiteral _ | .stringLiteral _ => []
  | .reference _ args => args
  | .union members | .intersection members | .tuple members => members
  | .object shape => Mentions.types shape
  | .widen t => [t]
  | .add data => Mentions.types data
  | .set t info => t :: Mentions.types info
  | .setData t data => t :: Mentions.types data

/-- An operation on types that are there. Only reserved places are filled, and only where `fills`
says that places are filled at all. -/
structure Op.Valid (fills : Bool) (d : Draft) (op : Op) : Prop where
  inside : ∀ t ∈ op.types, t.index < d.arena.size
  adds : ∀ data, op = .add data → TypeData.isOpen data = true
  sets : ∀ t info, op = .set t info → fills = true ∧ t ∈ d.reserved
  setsData : ∀ t data, op = .setData t data → fills = true ∧ t ∈ d.reserved

/-- One valid operation after the other. -/
inductive Draft.Run (fills : Bool) : Draft → Draft → Prop where
  | refl (d : Draft) : Draft.Run fills d d
  | step {d d' : Draft} (op : Op) : Draft.Run fills d d' → op.Valid fills d' →
      Draft.Run fills d (op.run d').2

/-- The key that an operation looks up in the table. -/
def Op.key? (a : Arena) : Op → Option InternKey
  | .booleanLiteral value => some (.boolean value)
  | .numberLiteral text => some (.number text)
  | .stringLiteral value => some (.string value)
  | .reference symbol args => some (.reference symbol args)
  | .union members => a.unionKey? members
  | _ => none

theorem Op.run_of_key {d : Draft} {op : Op} {k : InternKey} (key : op.key? d.arena = some k) :
    op.run d = d.keeping (d.arena.intern k k.data) := by
  cases op with
  | union members =>
      rcases union_cases d.arena members with ⟨t, -, none, -⟩ | ⟨k', found, made⟩
      · cases key.symm.trans none
      · cases key.symm.trans found
        exact congrArg d.keeping made
  | booleanLiteral | numberLiteral | stringLiteral | reference => cases key; rfl
  | intersection | tuple | object | widen | add | set | setData => cases key

theorem Stable.step {holds : Arena → Prop} (stable : Stable holds) {d : Draft} (start : holds d.arena)
    {op : Op} (valid : op.Valid false d) : holds (op.run d).2.arena := by
  cases op with
  | booleanLiteral | numberLiteral | stringLiteral => exact stable.intern _ _ start nofun nofun
  | reference symbol args =>
      exact stable.intern _ (.reference symbol args) start
        (fun part mentioned => valid.inside part (of_mem_types mentioned)) nofun
  | union members => exact (stable.union start valid.inside).1
  | intersection members => exact stable.intersection start valid.inside
  | tuple items =>
      exact stable.add _ _ start (fun part mentioned => valid.inside part (of_mem_types mentioned))
        (fun k => by cases k <;> exact nofun) nofun
  | object shape => exact stable.add _ _ start valid.inside (fun k => by cases k <;> exact nofun) nofun
  | widen t => exact stable.widen start (valid.inside t List.mem_cons_self)
  | add data =>
      have isOpen := valid.adds data rfl
      apply stable.add _ _ start valid.inside
      · intro k same
        subst same
        cases k <;> cases isOpen
      · intro members same
        subst same
        cases isOpen
  | set t info => cases (valid.sets t info rfl).1
  | setData t data => cases (valid.setsData t data rfl).1

theorem Whole.run {d d' : Draft} (whole : d.arena.Whole) (run : Draft.Run false d d') :
    d'.arena.Whole := by
  induction run with
  | refl => exact whole
  | step op _ valid ih => exact stable_whole.step ih valid

theorem Faithful.step {d : Draft} (faithful : Faithful d.reserved d.arena) {op : Op}
    (valid : op.Valid true d) :
    Faithful (op.run d).2.reserved (op.run d).2.arena ∧ d.arena.Remembers (op.run d).2.arena := by
  have keeps : ∀ data, Faithful (d.reserving (d.arena.add data)).2.reserved (d.arena.add data).2 ∧
      d.arena.Remembers (d.arena.add data).2 := by
    intro data
    have grown : d.arena.size < (d.arena.add data).2.size :=
      (size_addInfo d.arena ⟨data, none⟩) ▸ Nat.lt_succ_self _
    refine ⟨?_, fun _ _ found => found⟩
    rw [Draft.reserving, if_pos grown]
    exact faithful.add data
  cases op with
  | booleanLiteral | numberLiteral | stringLiteral | reference =>
      exact ⟨faithful.intern _, remembers_intern _ _⟩
  | union members => exact faithful.union members
  | widen t => exact faithful.widen t
  | tuple items => exact keeps (.tuple items)
  | object shape => exact keeps (.object shape)
  | add data => exact keeps data
  | intersection members =>
      show Faithful (d.reserving (d.arena.intersection members)).2.reserved
        (d.arena.intersection members).2 ∧ d.arena.Remembers (d.arena.intersection members).2
      rcases intersection_cases d.arena members with ⟨t, -, same⟩ | ⟨-, -, made⟩
      · rw [same, Draft.reserving, if_neg (Nat.lt_irrefl _)]
        exact ⟨faithful, fun _ _ found => found⟩
      · rw [made]
        exact keeps _
  | set t info =>
      refine ⟨faithful.fill (valid.sets t info rfl).2 (size_set _ _ _) rfl fun other differs => ?_,
        fun _ _ found => found⟩
      exact info_set_other _ _ _ _ differs
  | setData t data =>
      refine ⟨faithful.fill (valid.setsData t data rfl).2 (size_setData _ _ _) rfl
        fun other differs => ?_, fun _ _ found => found⟩
      exact info_setData_other _ _ _ _ differs

theorem Faithful.run {d d' : Draft} (faithful : Faithful d.reserved d.arena)
    (run : Draft.Run true d d') : Faithful d'.reserved d'.arena ∧ d.arena.Remembers d'.arena := by
  induction run with
  | refl => exact ⟨faithful, fun _ _ found => found⟩
  | step op _ valid ih =>
      have stepped := ih.1.step valid
      exact ⟨stepped.1, fun k t found => stepped.2 k t (ih.2 k t found)⟩

/-- Types are made of earlier ones, the type of a key is kept once, and unions and intersections are
normal. -/
structure Normal (a : Arena) : Prop extends Formed a where
  single : ∀ (k : InternKey) (t u : TypeId), a.data t = k.data → a.data u = k.data → t = u

theorem Regular.normal {a : Arena} (regular : a.Regular) : a.Normal where
  toFormed := regular.toFormed
  single k t u first second := by
    have found := (regular.indexed k t).mpr first
    rw [(regular.indexed k u).mpr second] at found
    exact (Option.some.inj found).symm

/-- Operations that only make types keep the table normal. Where reserved places are filled as well,
what the table finds for a key is still made of what the key says, and two operations that look up
keys give one type exactly if the keys are the same, whatever is done between them. -/
theorem normal_run_and_one_type_per_key :
    (∀ d, Draft.Run false {} d → d.arena.Normal) ∧
    ∀ d, Draft.Run true {} d → d.arena.Keyed ∧
      ∀ op k, Op.key? d.arena op = some k → ∀ d', Draft.Run true (op.run d).2 d' →
        ∀ op' k', Op.key? d'.arena op' = some k' → ((op.run d).1 = (op'.run d').1 ↔ k = k') := by
  refine ⟨fun d run => (whole_initial.run run).toRegular.normal, fun d run => ?_⟩
  have faithful := (faithful_initial.run (d := {}) run).1
  refine ⟨faithful.keyed, fun op k key d' later op' k' key' => ?_⟩
  rw [Op.run_of_key key] at later ⊢
  rw [Op.run_of_key key']
  obtain ⟨kept, remembers⟩ := (faithful.intern k).run (d := (d.keeping (d.arena.intern k k.data)).2) later
  -- both types are found in the last table
  have first : (d'.arena.intern k' k'.data).2.interned[k]? = some (d.arena.intern k k.data).1 :=
    remembers_intern d'.arena k' k _ (remembers k _ (interned_intern d.arena k))
  have second := interned_intern d'.arena k'
  constructor
  · intro same
    have found : (d.arena.intern k k.data).1 = (d'.arena.intern k' k'.data).1 := same
    rw [found] at first
    have keyed := (kept.intern k').keyed
    exact InternKey.data_injective ((keyed k _ first).symm.trans (keyed k' _ second))
  · intro same
    rw [same] at first ⊢
    exact Option.some.inj (first.symm.trans second)

theorem Op.inside_of_all {d : Draft} {op : Op}
    (all : (op.types.all fun t => decide (t.index < d.arena.size)) = true) :
    ∀ t ∈ op.types, t.index < d.arena.size := fun t listed =>
  of_decide_eq_true (List.all_eq_true.mp all t listed)

/-- The union of two keywords is found again when a place was reserved and filled after it, with the
members in the other order. -/
theorem one_type_per_key_filled :
    let first := Op.run {} (.union [intrinsicId .string, intrinsicId .number])
    let place := Op.run first.2 (.add (.keyOf first.1))
    let filled := Op.run place.2 (.setData place.1 (.tuple [place.1]))
    first.2.arena.Normal ∧ first.2.arena.Keyed ∧
      first.1 = (Op.run filled.2 (.union [intrinsicId .number, intrinsicId .string])).1 := by
  intro first place filled
  have valid : ∀ fills, (Op.union [intrinsicId .string, intrinsicId .number]).Valid fills {} :=
    fun fills => ⟨Op.inside_of_all (by cbv), by simp, by simp, by simp⟩
  have start : ∀ fills, Draft.Run fills {} first.2 := fun fills => .step _ (.refl {}) (valid fills)
  have adds : (Op.add (.keyOf first.1)).Valid true first.2 :=
    ⟨Op.inside_of_all (by cbv), fun data same => by cases same; rfl, by simp, by simp⟩
  have fills : (Op.setData place.1 (.tuple [place.1])).Valid true place.2 := by
    refine ⟨Op.inside_of_all (by cbv), by simp, by simp, fun t data same => ?_⟩
    cases same
    exact ⟨rfl, by cbv; exact .head _⟩
  have rest : Draft.Run true first.2 filled.2 := .step _ (.step _ (.refl first.2) adds) fills
  have same := (normal_run_and_one_type_per_key.2 {} (.refl {})).2 _ (.union [⟨2⟩, ⟨3⟩])
    (by cbv) filled.2 rest (.union [intrinsicId .number, intrinsicId .string]) (.union [⟨2⟩, ⟨3⟩])
    (by cbv)
  exact ⟨normal_run_and_one_type_per_key.1 first.2 (start false),
    (normal_run_and_one_type_per_key.2 first.2 (start true)).1, same.mpr rfl⟩

end ApiDocs.Arena
