import ApiDocs.Proofs.Mapped.Runs
import ApiDocs.Proofs.Members.Rules

set_option autoImplicit false

/-!
The keys of an object type. `keyof` gives the union of the literals of its member names, and a union
has its members in the order in which they were made. So keys stand in the order in which their
literals were first needed anywhere, not in that of the members.
-/

namespace ApiDocs

/-! ### Unions of literals -/

namespace Arena

variable {a : Arena}

/-- The literal type of a name. -/
def literal (a : Arena) (name : String) : TypeId := (a.interned[InternKey.string name]?).getD anyId

def HasLiteral (a : Arena) (name : String) : Prop :=
  a.interned[InternKey.string name]? = some (a.literal name)

/-- The members of a union; any other type stands alone. -/
def alternatives (a : Arena) (t : TypeId) : List TypeId :=
  match a.data t with
  | .union members => members
  | _ => [t]

theorem literal_of_found {name : String} {t : TypeId}
    (found : a.interned[InternKey.string name]? = some t) : a.literal name = t := by
  rw [literal, found, Option.getD_some]

theorem HasLiteral.of_found {name : String} {t : TypeId}
    (found : a.interned[InternKey.string name]? = some t) : a.HasLiteral name := by
  rw [HasLiteral, literal_of_found found, found]

theorem HasLiteral.data {name : String} (there : a.HasLiteral name) (keyed : a.Keyed) :
    a.data (a.literal name) = .stringLiteral name := keyed _ _ there

theorem HasLiteral.inside {name : String} (there : a.HasLiteral name) (keyed : a.Keyed) :
    (a.literal name).index < a.size := keyed.inside there

theorem literal_injective (keyed : a.Keyed) {x y : String} (first : a.HasLiteral x)
    (second : a.HasLiteral y) (same : a.literal x = a.literal y) : x = y := by
  have data := first.data keyed
  rw [same, second.data keyed] at data
  cases data
  rfl

/-- Nothing is left out of a list in which no type stands twice. -/
theorem eraseReps_of_increasing {list : List TypeId} (sorted : list.Pairwise (·.index < ·.index)) :
    list.eraseReps = list := by
  have loop : ∀ (rest sofar : List TypeId) (last : TypeId),
      (last :: rest).Pairwise (·.index < ·.index) →
      List.eraseRepsBy.loop (· == ·) last rest sofar = sofar.reverse ++ last :: rest := by
    intro rest
    induction rest with
    | nil => exact fun sofar last _ => by simp [List.eraseRepsBy.loop]
    | cons x rest ih =>
        intro sofar last ordered
        rw [List.pairwise_cons] at ordered
        have differs : (last == x) = false := by
          refine beq_eq_false_iff_ne.mpr fun same => ?_
          exact Nat.lt_irrefl _ (same ▸ ordered.1 x List.mem_cons_self)
        unfold List.eraseRepsBy.loop
        rw [differs]
        simpa using ih (last :: sofar) x ordered.2
  cases list with
  | nil => rfl
  | cons x rest => exact loop rest [] x sorted

/-- Types in the order in which they were made. -/
def inOrder (ids : List TypeId) : List TypeId := ids.mergeSort fun x y => x.index ≤ y.index

theorem inOrder_increasing {ids : List TypeId} (distinct : ids.Nodup) :
    (inOrder ids).Pairwise (·.index < ·.index) := by
  have sorted := @List.pairwise_mergeSort TypeId (fun x y => x.index ≤ y.index)
    (fun x y z first second => by simp only [decide_eq_true_eq] at *; omega)
    (fun x y => by simp only [Bool.or_eq_true, decide_eq_true_eq]; omega) ids
  have apart : (inOrder ids).Nodup := (List.mergeSort_perm _ _).nodup_iff.mpr distinct
  refine (sorted.and apart).imp fun {x y} both => ?_
  have le : x.index ≤ y.index := by simpa using both.1
  exact Nat.lt_of_le_of_ne le fun same => both.2 (congrArg TypeId.mk same)

theorem data_intern (keyed : a.Keyed) (k : InternKey) :
    (a.intern k k.data).2.data (a.intern k k.data).1 = k.data := by
  rcases intern_cases a k with ⟨t, found, same⟩ | ⟨-, made⟩
  · rw [same]
    exact keyed k t found
  · rw [made, data_withKey, if_pos rfl]

section

variable {ids : List TypeId} (literals : ∀ t ∈ ids, ∃ name, a.data t = .stringLiteral name)

include literals

theorem intrinsic?_literal {t : TypeId} (inside : t ∈ ids) : a.intrinsic? t = none := by
  obtain ⟨name, data⟩ := literals t inside
  rw [intrinsic?, data]

theorem flattenUnion_literals : a.flattenUnion ids = ids := by
  unfold flattenUnion
  induction ids with
  | nil => rfl
  | cons t rest ih =>
      obtain ⟨name, data⟩ := literals t List.mem_cons_self
      rw [List.flatMap_cons, data, ih fun u inside => literals u (List.mem_cons_of_mem _ inside)]
      rfl

theorem normalMembers_literals (distinct : ids.Nodup) : a.normalMembers ids = inOrder ids := by
  have present : ids.filter (fun t => a.intrinsic? t ≠ some .never) = ids :=
    List.filter_eq_self.mpr fun t inside => by simp [intrinsic?_literal literals inside]
  have kept : ids.filter (!a.isNullable ·) = ids :=
    List.filter_eq_self.mpr fun t inside => by simp [isNullable, intrinsic?_literal literals inside]
  unfold normalMembers
  dsimp only
  rw [present, kept, ite_self]
  exact eraseReps_of_increasing (inOrder_increasing distinct)

/-- The union of distinct literals has them in the order in which they were made. -/
theorem alternatives_union (keyed : a.Keyed) (distinct : ids.Nodup) :
    (ids = [] ∧ a.union ids = (intrinsicId .never, a)) ∨
      (a.union ids).2.alternatives (a.union ids).1 = inOrder ids := by
  have free : (a.flattenUnion ids).find? a.absorbs = none := by
    rw [flattenUnion_literals literals]
    refine List.find?_eq_none.mpr fun t inside => ?_
    simp [absorbs, intrinsic?_literal literals inside]
  have perm : (inOrder ids).Perm ids := List.mergeSort_perm _ _
  rw [union_eq, free, flattenUnion_literals literals, normalMembers_literals literals distinct]
  cases order : inOrder ids with
  | nil =>
      rw [order] at perm
      exact Or.inl ⟨List.nil_perm.mp perm, rfl⟩
  | cons t rest =>
      refine Or.inr ?_
      cases rest with
      | nil =>
          obtain ⟨name, data⟩ := literals t (perm.mem_iff.mp (order ▸ List.mem_singleton_self t))
          simp only [alternatives, data]
      | cons u rest =>
          have data := data_intern keyed (.union (t :: u :: rest))
          dsimp only [InternKey.data] at data ⊢
          rw [alternatives, data]

end

end Arena

/-! ### Keys -/

/-- Instances of interfaces and classes, and objects. -/
def TypeData.hasMembers : TypeData → Bool
  | .object _ => true
  | .reference _ _ => true
  | _ => false

def TypeData.isParameter : TypeData → Bool
  | .typeParameter _ => true
  | _ => false

theorem TypeData.isParameter_of_hasMembers {data : TypeData} (object : data.hasMembers = true) :
    data.isParameter = false := by
  cases data <;> first | rfl | cases object

theorem TypeData.isOperator_of_hasMembers {data : TypeData} (object : data.hasMembers = true) :
    data.isOperator = false := by
  cases data <;> first | rfl | cases object

/-- A shape with named members and no index signatures. -/
structure Shape.OnlyNames (s : Shape) : Prop where
  noString : s.stringIndex = none
  noNumber : s.numberIndex = none
  distinct : s.Distinct

namespace Checker

variable {n : Nat} {p : Program} {c c' : Checker}

/-- Members in the order in which the literals of their names were made. -/
def inKeyOrder (c : Checker) (members : List Member) : List Member :=
  members.mergeSort fun x y => (c.arena.literal x.name).index ≤ (c.arena.literal y.name).index

/-- What `keyof` comes to for a type with these members. -/
structure KeysOf (c : Checker) (members : List Member) (keys : TypeId) : Prop where
  inside : keys.index < c.arena.size
  literals : ∀ m ∈ members, c.arena.HasLiteral m.name
  listed : (members = [] ∧ keys = Arena.intrinsicId .never) ∨
    c.arena.alternatives keys = (c.inKeyOrder members).map (c.arena.literal ·.name)

theorem Since.literal (since : Since n c c') {name : String} (there : c.arena.HasLiteral name) :
    c'.arena.literal name = c.arena.literal name :=
  Arena.literal_of_found (since.interned _ _ there)

theorem Since.hasLiteral (since : Since n c c') {name : String} (there : c.arena.HasLiteral name) :
    c'.arena.HasLiteral name := .of_found (since.interned _ _ there)

theorem Since.inKeyOrder (since : Since n c c') {members : List Member}
    (there : ∀ m ∈ members, c.arena.HasLiteral m.name) :
    c'.inKeyOrder members = c.inKeyOrder members := by
  have same := @List.map_mergeSort Member Member
    (fun x y => (c.arena.literal x.name).index ≤ (c.arena.literal y.name).index)
    (fun x y => (c'.arena.literal x.name).index ≤ (c'.arena.literal y.name).index) id members
    fun x first y second => by
      simp only [id, since.literal (there x first), since.literal (there y second)]
  rw [List.map_id, List.map_id] at same
  exact same.symm

theorem inKeyOrder_perm (c : Checker) (members : List Member) :
    (c.inKeyOrder members).Perm members := List.mergeSort_perm _ _

theorem KeysOf.later {members : List Member} {keys : TypeId} (here : KeysOf c members keys)
    (since : Since n c c') : KeysOf c' members keys where
  inside := since.inside here.inside
  literals m inside := since.hasLiteral (here.literals m inside)
  listed := by
    refine here.listed.imp_right fun listed => ?_
    have data : c'.arena.alternatives keys = c.arena.alternatives keys := by
      rw [Arena.alternatives, Arena.alternatives, since.data here.inside]
    rw [data, listed, since.inKeyOrder here.literals]
    refine List.map_congr_left fun m inside => (since.literal (here.literals m ?_)).symm
    exact (c.inKeyOrder_perm members).mem_iff.mp inside

/-! ### What `keyof` comes to -/

open Check

/-- The literals of the names of members. -/
theorem ends_literals (members : List Member) :
    Ends n p c (members.mapM fun m => Check.stringLiteral m.name) fun ids c' =>
      ids = members.map (c'.arena.literal ·.name) ∧ ∀ m ∈ members, c'.arena.HasLiteral m.name := by
  induction members generalizing c with
  | nil => exact .pure fun _ _ => ⟨rfl, nofun⟩
  | cons m rest ih =>
      rw [List.mapM_cons]
      refine .bind (ends_stringLiteral m.name) fun t c₁ _ _ found => ?_
      refine .bind ih fun ids c₂ since _ ⟨same, there⟩ => .pure fun c₃ after => ?_
      have first : c₃.arena.HasLiteral m.name := after.hasLiteral (since.hasLiteral (.of_found found))
      have literal : c₃.arena.literal m.name = t :=
        Arena.literal_of_found (after.interned _ _ (since.interned _ _ found))
      have others : ids = rest.map (c₃.arena.literal ·.name) := by
        rw [same]
        exact List.map_congr_left fun x inside => (after.literal (there x inside)).symm
      refine ⟨by rw [List.map_cons, literal, others], fun x inside => ?_⟩
      rcases List.mem_cons.mp inside with rfl | later
      · exact first
      · exact after.hasLiteral (there x later)

/-- The union of the literals of members with names of their own. -/
theorem keysOf_union (keyed : c.arena.Keyed) {members : List Member}
    (distinct : (members.map (·.name)).Nodup)
    (there : ∀ m ∈ members, c.arena.HasLiteral m.name) :
    let r := c.arena.union (members.map (c.arena.literal ·.name))
    r.1.index < r.2.size → KeysOf { c with arena := r.2 } members r.1 := by
  intro r inside
  have literals : ∀ t ∈ members.map (c.arena.literal ·.name),
      ∃ name, c.arena.data t = .stringLiteral name := by
    intro t listed
    obtain ⟨m, here, rfl⟩ := List.mem_map.mp listed
    exact ⟨m.name, (there m here).data keyed⟩
  have apart : (members.map (c.arena.literal ·.name)).Nodup := by
    have names : ∀ x ∈ members.map (·.name), c.arena.HasLiteral x := by
      intro x listed
      obtain ⟨m, here, rfl⟩ := List.mem_map.mp listed
      exact there m here
    have mapped := distinct.map_on fun x first y second =>
      Arena.literal_injective keyed (names x first) (names y second)
    rwa [List.map_map] at mapped
  have since : Since 0 c { c with arena := r.2 } := .outcome 0 (Check.union _) {} c
  have order : (c.inKeyOrder members).map (c.arena.literal ·.name) =
      Arena.inOrder (members.map (c.arena.literal ·.name)) := List.map_mergeSort fun _ _ _ _ => rfl
  have kept : (c.inKeyOrder members).map (r.2.literal ·.name) =
      (c.inKeyOrder members).map (c.arena.literal ·.name) :=
    List.map_congr_left fun m inside =>
      since.literal (there m ((c.inKeyOrder_perm members).mem_iff.mp inside))
  refine ⟨inside, fun m here => since.hasLiteral (there m here), ?_⟩
  rw [since.inKeyOrder there, kept, order]
  rcases Arena.alternatives_union literals keyed apart with ⟨none, never⟩ | found
  · exact Or.inl ⟨List.map_eq_nil_iff.mp none, congrArg Prod.fst never⟩
  · exact Or.inr found

theorem known_literals (ready : Ready n p c) {members : List Member}
    (there : ∀ m ∈ members, c.arena.HasLiteral m.name) :
    Known c (members.map (c.arena.literal ·.name)) := by
  refine known_list_iff.mpr fun t listed => known_type_iff.mpr ?_
  obtain ⟨m, here, rfl⟩ := List.mem_map.mp listed
  exact (there m here).inside ready.regular.keyed

/-- The keys of members with names of their own. -/
theorem ends_union_literals (ready : Ready n p c) {members : List Member}
    (distinct : (members.map (·.name)).Nodup)
    (there : ∀ m ∈ members, c.arena.HasLiteral m.name) :
    Ends n p c (Check.union (members.map (c.arena.literal ·.name))) fun keys c' =>
      KeysOf c' members keys := by
  have := ready.started
  have known := known_literals ready there
  refine .of_safe inferInstance fun c' since ready' answer => ?_
  have now : ∀ m ∈ members, c'.arena.HasLiteral m.name :=
    fun m here => since.hasLiteral (there m here)
  have same : members.map (c.arena.literal ·.name) = members.map (c'.arena.literal ·.name) :=
    List.map_congr_left fun m here => (since.literal (there m here)).symm
  rw [same] at answer ⊢
  exact keysOf_union ready'.regular.keyed distinct now (known_type_iff.mp answer)

theorem ends_isWaiting {t : TypeId} (inside : t.index < c.arena.size) :
    Ends n p c (isWaiting t) fun waiting _ => waiting = (c.arena.data t).isParameter := by
  refine .bind (ends_data inside) fun data c₁ _ _ same => ?_
  rw [same]
  cases c.arena.data t <;> exact .pure fun _ _ => rfl

/-- What `keyof` comes to for a type with members. -/
theorem ends_evaluateKeyOf (k : Nat) (ready : Ready n p c) {source : TypeId}
    (below : source.index < n) (object : (c.arena.data source).hasMembers = true) (whole : TypeId) :
    Ends n p c (evaluateKeyOf (callsTo (k + 1)) whole source) fun keys c' =>
      ∃ shape, c'.shapes.find? source = some shape ∧
        (shape.OnlyNames → KeysOf c' shape.members keys) := by
  have plain := TypeData.isOperator_of_hasMembers object
  have inside := Nat.lt_of_lt_of_le below ready.base
  have other : source ≠ Arena.anyId := by
    rintro rfl
    rw [show c.arena.data Arena.anyId = .intrinsic .any from ready.keywords .any] at object
    cases object
  unfold evaluateKeyOf
  refine .bind (ends_evaluate_plain k ready inside plain) fun inner c₁ since₁ ready₁ same => ?_
  subst same
  refine .bind (ends_isWaiting (since₁.inside inside)) fun waiting c₂ since₂ ready₂ settled => ?_
  rw [since₁.data inside, TypeData.isParameter_of_hasMembers object] at settled
  rw [settled, if_neg Bool.false_ne_true, if_neg other]
  refine .bind (ends_shape k ready₂ below) fun shape c₃ since₃ ready₃ found => ?_
  refine .bind (ends_literals shape.members) fun ids c₄ since₄ ready₄ ⟨same, there⟩ => ?_
  have kept : ∀ c', Since n c₄ c' → c'.shapes.find? inner = some shape := fun c' since₅ =>
    since₅.shapes _ _ below (since₄.shapes _ _ below found)
  rcases Classical.em shape.OnlyNames with only | other
  · rw [same, only.noString, only.noNumber]
    simp only [Option.isSome_none, Bool.false_eq_true, ↓reduceIte, List.append_nil]
    refine (ends_union_literals ready₄ only.distinct there).weaken fun keys c' since₅ listed => ?_
    exact ⟨shape, kept c' since₅, fun _ => listed⟩
  · have := ready₄.started
    have known : Known c₄ ids := same ▸ known_literals ready₄ there
    refine .of_safe inferInstance fun c' since₅ _ _ => ⟨shape, ?_, fun only => absurd only other⟩
    exact kept _ (since₅.trans (.outcome n _ p c'))

end Checker

end ApiDocs
