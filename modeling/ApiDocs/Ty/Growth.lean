import ApiDocs.Ty.Arena

set_option autoImplicit false

/-!
The table of types only grows: whatever is made of types leaves those that are there alone, and what
is found for a key is made of what the key says.
-/

namespace ApiDocs

/-- What the type of a key is made of. -/
def InternKey.data : InternKey → TypeData
  | .boolean value => .booleanLiteral value
  | .number text => .numberLiteral text
  | .string value => .stringLiteral value
  | .reference symbol args => .reference symbol args
  | .union members => .union members

namespace Arena

/-- What is found for a key is made of what the key says. -/
def Keyed (a : Arena) : Prop := ∀ (k : InternKey) (t : TypeId), a.interned[k]? = some t → a.data t = k.data

theorem data_eq {a a' : Arena} {t : TypeId} (same : a'.info t = a.info t) :
    a'.data t = a.data t := congrArg TypeInfo.data same

theorem info_of_size_le (a : Arena) (t : TypeId) (outside : a.size ≤ t.index) :
    a.info t = default := by
  unfold info
  rw [Array.getElem?_eq_none outside, Option.getD_none]

/-- What is made of what a key says is there. -/
theorem lt_size_of_key {a : Arena} {k : InternKey} {t : TypeId} (data : a.data t = k.data) :
    t.index < a.size := by
  refine Nat.lt_of_not_le fun outside => ?_
  rw [Arena.data, info_of_size_le a t outside] at data
  cases k <;> cases data

/-- What is found for a key is there. -/
theorem Keyed.inside {a : Arena} (keyed : a.Keyed) {k : InternKey} {t : TypeId}
    (found : a.interned[k]? = some t) : t.index < a.size := lt_size_of_key (keyed k t found)

/-- Types that are there stay as they are, and so do those that are found for keys. What is found for
new keys is made of what they say and has no name. -/
structure Extends (a a' : Arena) : Prop where
  size : a.size ≤ a'.size
  info : ∀ t : TypeId, t.index < a.size → a'.info t = a.info t
  interned : ∀ (k : InternKey) (t : TypeId), a.interned[k]? = some t → a'.interned[k]? = some t
  added : ∀ (k : InternKey) (t : TypeId), a'.interned[k]? = some t →
    a.interned[k]? = some t ∨ a'.info t = ⟨k.data, none⟩

theorem Extends.refl (a : Arena) : a.Extends a :=
  ⟨Nat.le_refl _, fun _ _ => rfl, fun _ _ found => found, fun _ _ found => Or.inl found⟩

theorem Extends.trans {a b c : Arena} (first : a.Extends b) (second : b.Extends c) : a.Extends c where
  size := Nat.le_trans first.size second.size
  info t inside :=
    (second.info t (Nat.lt_of_lt_of_le inside first.size)).trans (first.info t inside)
  interned k t found := second.interned k t (first.interned k t found)
  added k t found := by
    rcases second.added k t found with before | made
    · rcases first.added k t before with start | made
      · exact Or.inl start
      · exact Or.inr ((second.info t (lt_size_of_key (congrArg TypeInfo.data made))).trans made)
    · exact Or.inr made

/-! ### New types -/

theorem size_addInfo (a : Arena) (info : TypeInfo) : (a.addInfo info).2.size = a.size + 1 :=
  Array.size_push _

theorem info_addInfo_self (a : Arena) (info : TypeInfo) :
    (a.addInfo info).2.info ⟨a.size⟩ = info := by
  simp [addInfo, Arena.info, size]

theorem extends_addInfo (a : Arena) (info : TypeInfo) : a.Extends (a.addInfo info).2 where
  size := by
    rw [size_addInfo]
    exact Nat.le_succ _
  info t inside := by
    have differs : t.index ≠ a.types.size := Nat.ne_of_lt inside
    simp only [addInfo, Arena.info, Array.getElem?_push, if_neg differs]
  interned _ _ found := found
  added _ _ found := Or.inl found

theorem extends_add (a : Arena) (data : TypeData) : a.Extends (a.add data).2 := extends_addInfo a _

theorem extends_intern (a : Arena) (key : InternKey) (data : TypeData)
    (own : data = key.data := by rfl) : a.Extends (a.intern key data).2 := by
  unfold intern
  split
  · exact .refl a
  · rename_i unknown
    have grown := extends_add a data
    refine ⟨grown.size, grown.info, fun k t found => ?_, fun k t found => ?_⟩
    · dsimp only
      rw [Std.HashMap.getElem?_insert, if_neg]
      · exact found
      · intro same
        rw [eq_of_beq same, found] at unknown
        cases unknown
    · dsimp only at found
      rw [Std.HashMap.getElem?_insert] at found
      split at found
      · rename_i same
        cases found
        rw [← eq_of_beq same, ← own]
        exact Or.inr (info_addInfo_self a _)
      · exact Or.inl found

theorem extends_reference (a : Arena) (symbol : SymbolId) (args : List TypeId) :
    a.Extends (a.reference symbol args).2 := extends_intern a _ _

theorem extends_union (a : Arena) (members : List TypeId) : a.Extends (a.union members).2 := by
  unfold union
  dsimp only
  split
  · exact .refl a
  · split
    · exact .refl a
    · exact .refl a
    · exact extends_intern a _ _

theorem extends_intersection (a : Arena) (members : List TypeId) :
    a.Extends (a.intersection members).2 := by
  unfold intersection
  dsimp only
  split
  · exact .refl a
  · split
    · exact .refl a
    · split
      · exact .refl a
      · exact .refl a
      · exact extends_add a _

theorem extends_mapIds {α : Type} (f : Arena → α → TypeId × Arena)
    (grows : ∀ (a : Arena) (x : α), a.Extends (f a x).2) (a : Arena) (list : List α) :
    a.Extends (mapIds f a list).2 := by
  induction list generalizing a with
  | nil => exact .refl a
  | cons x rest ih => exact (grows a x).trans (ih (f a x).2)

theorem extends_widenTo (n : Nat) (a : Arena) (t : TypeId) : a.Extends (widenTo n a t).2 := by
  induction n generalizing a t with
  | zero => exact .refl a
  | succ n ih =>
      unfold widenTo
      split
      · exact .refl a
      · exact .refl a
      · exact .refl a
      · split
        · exact .refl a
        · exact (extends_mapIds _ ih a _).trans (extends_union _ _)
      · exact .refl a

theorem extends_widen (a : Arena) (t : TypeId) : a.Extends (a.widen t).2 := extends_widenTo _ a t

/-! ### Filling places -/

@[simp] theorem size_set (a : Arena) (t : TypeId) (info : TypeInfo) : (a.set t info).size = a.size :=
  Array.size_setIfInBounds

theorem info_set_other (a : Arena) (t other : TypeId) (info : TypeInfo) (differs : other ≠ t) :
    (a.set t info).info other = a.info other := by
  have index : t.index ≠ other.index := fun same => differs (congrArg TypeId.mk same.symm)
  simp only [set, Arena.info, Array.getElem?_setIfInBounds_ne index]

@[simp] theorem size_setData (a : Arena) (t : TypeId) (data : TypeData) :
    (a.setData t data).size = a.size := Array.size_modify

theorem data_setData_self (a : Arena) (t : TypeId) (data : TypeData) (inside : t.index < a.size) :
    (a.setData t data).data t = data := by
  have bound : t.index < a.types.size := inside
  simp only [setData, Arena.data, Arena.info, Array.getElem?_modify, if_pos,
    Array.getElem?_eq_getElem bound, Option.map_some, Option.getD_some]

theorem info_setData_other (a : Arena) (t other : TypeId) (data : TypeData) (differs : other ≠ t) :
    (a.setData t data).info other = a.info other := by
  have index : t.index ≠ other.index := fun same => differs (congrArg TypeId.mk same.symm)
  simp only [setData, Arena.info, Array.getElem?_modify, if_neg index]

end Arena

end ApiDocs
