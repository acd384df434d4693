import ApiDocs.Proofs.Arena.Unions

set_option autoImplicit false

/-!
Widening of literals. What a widened type looks like is said once, by `Wide`: widening gives such
types, and leaves them alone.
-/

namespace ApiDocs

/-- Whether a type has a single value that is written out. -/
def TypeData.isLiteral : TypeData → Bool
  | .booleanLiteral _ | .numberLiteral _ | .stringLiteral _ => true
  | _ => false

namespace Arena

/-- The keyword of a literal. -/
def general (a : Arena) (t : TypeId) : TypeId :=
  match a.data t with
  | .booleanLiteral _ => booleanId
  | .numberLiteral _ => intrinsicId .number
  | .stringLiteral _ => intrinsicId .string
  | _ => t

/-- No literal. The members of a union that no alias names are no literals either, except that
`false` and `true` stand there together. -/
structure Wide (a : Arena) (t : TypeId) : Prop where
  plain : (a.data t).isLiteral = false
  members : ∀ members, a.info t = ⟨.union members, none⟩ →
    (∀ m ∈ members, m = falseId ∨ m = trueId ∨ (a.data m).isLiteral = false) ∧
      (falseId ∈ members ↔ trueId ∈ members)

section

variable {a : Arena}

/-! ### One level of a union -/

theorem NormalUnion.room {members : List TypeId} (normal : a.NormalUnion members) :
    ∀ t ∈ members, ¬ a.absorbs t = true := by
  intro t listed absorbing
  unfold absorbs at absorbing
  simp only [Bool.or_eq_true, decide_eq_true_eq] at absorbing
  rcases absorbing with any | unknown
  · exact (normal.proper t listed .any any).1 rfl
  · exact (normal.proper t listed .unknown unknown).2.1 rfl

theorem general_of_plain {t : TypeId} (plain : (a.data t).isLiteral = false) : a.general t = t := by
  unfold general
  split <;> simp_all [TypeData.isLiteral]

theorem widenTo_of_not_union (n : Nat) {t : TypeId} (other : ∀ members, a.data t ≠ .union members) :
    widenTo (n + 1) a t = (a.general t, a) := by
  unfold widenTo general
  cases data : a.data t with
  | union members => exact absurd data (other members)
  | _ => rfl

theorem mapIds_widenTo (n : Nat) {members : List TypeId}
    (flat : ∀ m ∈ members, ∀ inner, a.data m ≠ .union inner) :
    mapIds (widenTo (n + 1)) a members = (members.map a.general, a) := by
  induction members with
  | nil => rfl
  | cons m rest ih =>
      have first := widenTo_of_not_union n (flat m List.mem_cons_self)
      have others := ih fun other listed => flat other (List.mem_cons_of_mem _ listed)
      simp only [mapIds, first, others, List.map_cons]

theorem widen_of_not_union {t : TypeId} (other : ∀ members, a.data t ≠ .union members) :
    a.widen t = (a.general t, a) :=
  widenTo_of_not_union a.size other

/-- The members of a union are no unions, so that widening goes down one level. -/
theorem Tidy.widen_union (tidy : a.Tidy) {t : TypeId} {members : List TypeId}
    (info : a.info t = ⟨.union members, none⟩) :
    a.widen t = a.union (members.map a.general) := by
  have data : a.data t = .union members := congrArg TypeInfo.data info
  have unnamed : a.alias? t = none := congrArg TypeInfo.writtenAs info
  have below : mapIds (widenTo a.size) a members = (members.map a.general, a) := by
    obtain ⟨n, size⟩ : ∃ n, a.size = n + 1 := ⟨a.size - 1, by have := tidy.base; omega⟩
    rw [size]
    exact mapIds_widenTo n (tidy.unions t members data).flat
  rw [widen, widenTo, data]
  simp [unnamed, below]

theorem Tidy.data_base (tidy : a.Tidy) {t : TypeId} {data : TypeData} (small : t.index < 14)
    (start : initial.data t = data) : a.data t = data :=
  (data_eq (tidy.info_base small)).trans start

theorem Tidy.data_false (tidy : a.Tidy) : a.data falseId = .booleanLiteral false :=
  tidy.data_base (by decide) (by cbv)

theorem Tidy.data_true (tidy : a.Tidy) : a.data trueId = .booleanLiteral true :=
  tidy.data_base (by decide) (by cbv)

theorem Tidy.data_boolean (tidy : a.Tidy) : a.data booleanId = .union [falseId, trueId] :=
  tidy.data_base (by decide) (by cbv)

theorem Tidy.data_number (tidy : a.Tidy) : a.data (intrinsicId .number) = .intrinsic .number :=
  tidy.data_base (by decide) (by cbv)

theorem Tidy.data_string (tidy : a.Tidy) : a.data (intrinsicId .string) = .intrinsic .string :=
  tidy.data_base (by decide) (by cbv)

theorem Tidy.general_inside (tidy : a.Tidy) {t : TypeId} (inside : t.index < a.size) :
    (a.general t).index < a.size := by
  have base := tidy.base
  unfold general
  split
  · exact Nat.lt_of_lt_of_le (show booleanId.index < 14 by decide) base
  · exact Nat.lt_of_lt_of_le (show (intrinsicId .number).index < 14 by decide) base
  · exact Nat.lt_of_lt_of_le (show (intrinsicId .string).index < 14 by decide) base
  · exact inside

/-- What a member of a union becomes: both boolean literals, or one type that is no literal. -/
theorem Tidy.flattenUnion_general (tidy : a.Tidy) {m : TypeId}
    (flat : ∀ inner, a.data m ≠ .union inner) :
    a.flattenUnion [a.general m] = [falseId, trueId] ∨
      a.flattenUnion [a.general m] = [a.general m] ∧ (a.data (a.general m)).isLiteral = false := by
  unfold general
  cases data : a.data m with
  | booleanLiteral =>
      left
      simp [flattenUnion, tidy.data_boolean]
  | numberLiteral =>
      right
      simp [flattenUnion, tidy.data_number, TypeData.isLiteral]
  | stringLiteral =>
      right
      simp [flattenUnion, tidy.data_string, TypeData.isLiteral]
  | union inner => exact absurd data (flat inner)
  | _ =>
      right
      simp [flattenUnion, data, TypeData.isLiteral]

/-- Literals and their keywords leave room for others. -/
theorem Tidy.absorbs_general (tidy : a.Tidy) {m : TypeId} (room : ¬ a.absorbs m = true) :
    ¬ a.absorbs (a.general m) = true := by
  unfold general
  split
  · simp [absorbs, intrinsic?, tidy.data_boolean]
  · simp [absorbs, intrinsic?, tidy.data_number]
  · simp [absorbs, intrinsic?, tidy.data_string]
  · exact room

theorem mem_flattenUnion_general {members : List TypeId} {t : TypeId} :
    t ∈ a.flattenUnion (members.map a.general) ↔ ∃ m ∈ members, t ∈ a.flattenUnion [a.general m] := by
  rw [mem_flattenUnion]
  simp

/-- The members of a widened union before they are brought in order. -/
theorem Tidy.flattenUnion_generals (tidy : a.Tidy) {members : List TypeId}
    (normal : a.NormalUnion members) :
    (∀ t ∈ a.flattenUnion (members.map a.general),
      (t = falseId ∨ t = trueId ∨ (a.data t).isLiteral = false) ∧ ¬ a.absorbs t = true) ∧
    (falseId ∈ a.flattenUnion (members.map a.general) ↔
      trueId ∈ a.flattenUnion (members.map a.general)) := by
  have apart : (a.data falseId).isLiteral = true ∧ (a.data trueId).isLiteral = true := by
    rw [tidy.data_false, tidy.data_true]
    exact ⟨rfl, rfl⟩
  have both : ∀ m ∈ members, falseId ∈ a.flattenUnion [a.general m] ↔
      trueId ∈ a.flattenUnion [a.general m] := by
    intro m listed
    rcases tidy.flattenUnion_general (normal.flat m listed) with pair | ⟨single, plain⟩
    · simp [pair]
    · rw [single, List.mem_singleton, List.mem_singleton]
      grind
  simp only [mem_flattenUnion_general]
  constructor
  · rintro t ⟨m, listed, inside⟩
    rcases tidy.flattenUnion_general (normal.flat m listed) with pair | ⟨single, plain⟩
    · have room : ¬ a.absorbs falseId = true ∧ ¬ a.absorbs trueId = true := by
        simp [absorbs, intrinsic?, tidy.data_false, tidy.data_true]
      rw [pair] at inside
      grind
    · rw [single, List.mem_singleton] at inside
      rw [inside]
      exact ⟨Or.inr (Or.inr plain), tidy.absorbs_general (normal.room m listed)⟩
  · exact exists_congr fun m => and_congr_right fun listed => both m listed

/-! ### Widened types -/

/-- The members of a normal union are what is left of them. -/
theorem NormalUnion.normalMembers {members : List TypeId} (normal : a.NormalUnion members) :
    a.normalMembers members = members := by
  apply eq_of_increasing (normalMembers_increasing a members) normal.increasing
  intro t
  rw [mem_normalMembers]
  constructor
  · exact And.left
  · intro listed
    refine ⟨listed, ?_, fun null u other _ => normal.nullable t listed null u other⟩
    intro never
    exact (normal.proper t listed .never never).2.2 rfl

/-- A widened type stays as it is, and nothing is made for it. -/
theorem Tidy.widen_of_wide (tidy : a.Tidy) {t : TypeId} (wide : a.Wide t) : a.widen t = (t, a) := by
  by_cases union : ∃ members, a.data t = .union members
  · obtain ⟨members, data⟩ := union
    cases named : a.alias? t with
    | some name => simp [widen, widenTo, data, named]
    | none =>
        have info : a.info t = ⟨.union members, none⟩ := by
          rw [← data, ← named]
          rfl
        have normal := tidy.unions t members data
        obtain ⟨plain, both⟩ := wide.members members info
        -- `false` and `true` become `boolean`, which stands for the two of them
        have literal : ∀ m, m = falseId ∨ m = trueId → a.flattenUnion [a.general m] = [falseId, trueId] := by
          rintro m (rfl | rfl)
          · simp [general, flattenUnion, tidy.data_false, tidy.data_boolean]
          · simp [general, flattenUnion, tidy.data_true, tidy.data_boolean]
        have other : ∀ m ∈ members, (a.data m).isLiteral = false → a.flattenUnion [a.general m] = [m] := by
          intro m listed plain
          rw [general_of_plain plain]
          exact flattenUnion_plain (normal.flat m listed)
        have same : ∀ u, u ∈ a.flattenUnion (members.map a.general) ↔ u ∈ members := by
          intro u
          rw [mem_flattenUnion_general]
          constructor
          · rintro ⟨m, listed, inside⟩
            rcases or_assoc.mpr (plain m listed) with pair | single
            · rw [literal m pair] at inside
              grind
            · rw [other m listed single] at inside
              exact List.mem_singleton.mp inside ▸ listed
          · intro listed
            refine ⟨u, listed, ?_⟩
            rcases or_assoc.mpr (plain u listed) with pair | single
            · rw [literal u pair]
              grind
            · rw [other u listed single]
              exact List.mem_singleton_self u
        have room : a.absorbing? (members.map a.general) = none :=
          absorbing?_eq_none_iff.mpr fun u listed => normal.room u ((same u).mp listed)
        rw [tidy.widen_union info, union_of_room room, normalMembers_eq same, normal.normalMembers]
        have found : a.interned[InternKey.union members]? = some t := (tidy.indexed _ t).mpr info
        rcases members with _ | ⟨x, _ | ⟨y, rest⟩⟩
        · exact absurd normal.several (by simp)
        · exact absurd normal.several (by simp)
        · show a.intern _ _ = (t, a)
          rw [Arena.intern, found]
  · rw [widen_of_not_union (fun members data => union ⟨members, data⟩), general_of_plain wide.plain]

/-- A type that is neither a literal nor a union that no alias names. -/
theorem wide_of_plain {t : TypeId} (plain : (a.data t).isLiteral = false)
    (other : ∀ members, a.info t ≠ ⟨.union members, none⟩) : a.Wide t where
  plain := plain
  members members info := absurd info (other members)

theorem Tidy.wide_general (tidy : a.Tidy) {t : TypeId} (other : ∀ members, a.data t ≠ .union members) :
    a.Wide (a.general t) := by
  unfold general
  split
  · have info : a.info booleanId = ⟨.union [falseId, trueId], none⟩ :=
      (tidy.info_base (by decide)).trans (by cbv)
    refine ⟨by rw [tidy.data_boolean]; rfl, fun members same => ?_⟩
    cases info.symm.trans same
    constructor
    · intro m listed
      grind
    · simp
  · refine wide_of_plain (by rw [tidy.data_number]; rfl) fun members info => ?_
    cases tidy.data_number.symm.trans (congrArg TypeInfo.data info)
  · refine wide_of_plain (by rw [tidy.data_string]; rfl) fun members info => ?_
    cases tidy.data_string.symm.trans (congrArg TypeInfo.data info)
  · apply wide_of_plain
    · cases data : a.data t <;> simp_all [TypeData.isLiteral]
    · exact fun members info => other members (congrArg TypeInfo.data info)

/-- A union of types that stand for no literals but both boolean ones. -/
theorem Tidy.wide_union (tidy : a.Tidy) {types : List TypeId} (inside : ∀ t ∈ types, t.index < a.size)
    (plain : ∀ t ∈ a.flattenUnion types, t = falseId ∨ t = trueId ∨ (a.data t).isLiteral = false)
    (both : falseId ∈ a.flattenUnion types ↔ trueId ∈ a.flattenUnion types)
    (room : a.absorbing? types = none) : (a.union types).2.Wide (a.union types).1 := by
  have kept : (a.union types).2.Tidy := (stable_tidy.union tidy inside).1
  have grown := extends_union a types
  rw [union_of_room room] at kept grown ⊢
  have flat := flattenUnion_flat tidy.toFormed inside
  have stay : ∀ t : TypeId, a.data t = .booleanLiteral false ∨ a.data t = .booleanLiteral true →
      (t ∈ a.normalMembers (a.flattenUnion types) ↔ t ∈ a.flattenUnion types) := by
    intro t literal
    rw [mem_normalMembers]
    have kind : a.intrinsic? t = none := by
      rcases literal with data | data <;> rw [intrinsic?, data]
    simp [isNullable, kind]
  have pair : falseId ∈ a.normalMembers (a.flattenUnion types) ↔
      trueId ∈ a.normalMembers (a.flattenUnion types) := by
    rw [stay falseId (Or.inl tidy.data_false), stay trueId (Or.inr tidy.data_true)]
    exact both
  have some : ∀ t ∈ a.normalMembers (a.flattenUnion types), t = falseId ∨ t = trueId ∨
      (a.data t).isLiteral = false := fun t listed => plain t (normalMembers_subset listed)
  have here : ∀ t ∈ a.normalMembers (a.flattenUnion types), t.index < a.size ∧
      ∀ inner, a.data t ≠ .union inner := fun t listed => flat t (normalMembers_subset listed)
  generalize normal : a.normalMembers (a.flattenUnion types) = members at kept grown pair some here
  rcases members with _ | ⟨t, _ | ⟨y, rest⟩⟩
  case nil =>
      have never : a.data (intrinsicId .never) = .intrinsic .never := tidy.data_base (by decide) (by cbv)
      apply wide_of_plain
      · show (a.data (intrinsicId .never)).isLiteral = false
        rw [never]
        rfl
      · intro members info
        cases never.symm.trans (congrArg TypeInfo.data info)
  case cons.nil =>
      -- a single boolean literal has no other beside it
      have different : falseId ≠ trueId := by decide
      have literal : (a.data t).isLiteral = false := by
        have choice := some t List.mem_cons_self
        simp only [List.mem_singleton] at pair
        grind
      exact wide_of_plain literal fun members info =>
        (here t List.mem_cons_self).2 members (congrArg TypeInfo.data info)
  case cons.cons =>
      have info := (kept.indexed _ _).mp (interned_intern a (.union (t :: y :: rest)))
      constructor
      · rw [show (a.joined (t :: y :: rest)).2.data (a.joined (t :: y :: rest)).1 =
          .union (t :: y :: rest) from congrArg TypeInfo.data info]
        rfl
      · intro members same
        cases info.symm.trans same
        refine ⟨fun m listed => ?_, pair⟩
        rw [data_eq (grown.info m (here m listed).1)]
        exact some m listed

/-- What widening gives is wide. -/
theorem Tidy.wide_widen (tidy : a.Tidy) {t : TypeId} (inside : t.index < a.size) :
    (a.widen t).2.Wide (a.widen t).1 := by
  by_cases union : ∃ members, a.data t = .union members
  · obtain ⟨members, data⟩ := union
    have normal := tidy.unions t members data
    cases named : a.alias? t with
    | some name =>
        have same : a.widen t = (t, a) := by simp [widen, widenTo, data, named]
        rw [same]
        apply wide_of_plain
        · rw [data]
          rfl
        · intro members info
          cases named.symm.trans (congrArg TypeInfo.writtenAs info)
    | none =>
        have info : a.info t = ⟨.union members, none⟩ := by
          rw [← data, ← named]
          rfl
        obtain ⟨plain, both⟩ := tidy.flattenUnion_generals normal
        have there : ∀ u ∈ members.map a.general, u.index < a.size := by
          intro u listed
          obtain ⟨m, inner, rfl⟩ := List.mem_map.mp listed
          have before : m.index < t.index := tidy.lt_of_mem (by rw [data]; exact mem_types inner)
          exact tidy.general_inside (Nat.lt_trans before inside)
        rw [tidy.widen_union info]
        exact tidy.wide_union there (fun u listed => (plain u listed).1) both
          (absorbing?_eq_none_iff.mpr fun u listed => (plain u listed).2)
  · have other : ∀ members, a.data t ≠ .union members := fun members data => union ⟨members, data⟩
    rw [widen_of_not_union other]
    exact tidy.wide_general other

/-- Widening a second time changes nothing and makes no types. The result is no literal. If it is a
union that no alias names, then no member is a number or a string that is written out, and `true` is
a member exactly if `false` is. -/
theorem widen_widen (made : a.Made) {t : TypeId} (inside : t.index < a.size) :
    let r := a.widen t
    r.2.widen r.1 = r ∧
      (∀ value, r.2.data r.1 ≠ .booleanLiteral value) ∧
      (∀ text, r.2.data r.1 ≠ .numberLiteral text) ∧
      (∀ value, r.2.data r.1 ≠ .stringLiteral value) ∧
      ∀ members, r.2.data r.1 = .union members → r.2.alias? r.1 = none →
        (∀ m ∈ members, (∀ text, r.2.data m ≠ .numberLiteral text) ∧
          ∀ value, r.2.data m ≠ .stringLiteral value) ∧
        ((∃ m ∈ members, r.2.data m = .booleanLiteral true) ↔
          ∃ m ∈ members, r.2.data m = .booleanLiteral false) := by
  intro r
  have kept : r.2.Tidy := stable_tidy.widen made.tidy inside
  have wide : r.2.Wide r.1 := made.tidy.wide_widen inside
  have plain := wide.plain
  refine ⟨kept.widen_of_wide wide, ?_, ?_, ?_, ?_⟩
  · intro value data
    rw [data] at plain
    cases plain
  · intro text data
    rw [data] at plain
    cases plain
  · intro value data
    rw [data] at plain
    cases plain
  · intro members data unnamed
    have info : r.2.info r.1 = ⟨.union members, none⟩ := by
      rw [← data, ← unnamed]
      rfl
    obtain ⟨literals, both⟩ := wide.members members info
    have no := kept.data_false
    have yes := kept.data_true
    constructor
    · intro m listed
      constructor
      all_goals
        intro value here
        have choice := literals m listed
        rw [here] at choice
        simp only [TypeData.isLiteral] at choice
        grind
    · have found : ∀ m ∈ members, ∀ value, r.2.data m = .booleanLiteral value →
          m = falseId ∨ m = trueId := by
        intro m listed value here
        have choice := literals m listed
        rw [here] at choice
        simpa [TypeData.isLiteral] using choice
      grind

end

/-- A union of `false` and of a type that is named and made of a literal: both are widened. -/
theorem widen_widen_named :
    let literal := Op.run {} (.stringLiteral "a")
    let named := literal.2.arena.addInfo ⟨literal.2.arena.data literal.1, some ⟨⟨0⟩, []⟩⟩
    let pair := Op.run { arena := named.2 } (.union [falseId, named.1])
    let r := pair.2.arena.widen pair.1
    r.2.widen r.1 = r ∧ r = pair.2.arena.union [booleanId, intrinsicId .string] := by
  intro literal named pair r
  have start : literal.2.arena.Made := .run (.stringLiteral "a") .initial ⟨nofun, by simp, by simp, by simp⟩
  have copied : named.2.Made := .copy literal.1 ⟨⟨0⟩, []⟩ start (by cbv) nofun
  have made : pair.2.arena.Made :=
    .run (.union [falseId, named.1]) copied ⟨Op.inside_of_all (by cbv), by simp, by simp, by simp⟩
  have inside : pair.1.index < pair.2.arena.size := by cbv
  have info : pair.2.arena.info pair.1 = ⟨.union [falseId, named.1], none⟩ := by cbv
  have widened : r = pair.2.arena.union ([falseId, named.1].map pair.2.arena.general) :=
    made.tidy.widen_union info
  have keywords : [falseId, named.1].map pair.2.arena.general = [booleanId, intrinsicId .string] := by cbv
  exact ⟨(widen_widen made inside).1, keywords ▸ widened⟩

end Arena

end ApiDocs
