set_option autoImplicit false

/-!
Maps in insertion order. A key keeps its first place, and its last value counts. No key stands
twice, so a map is known by the entries of its keys and their order.
-/

namespace ApiDocs

/-- A finite map that remembers the order in which its keys first came in. -/
@[ext] structure OrdMap (κ α : Type) where
  entries : List (κ × α) := []
  distinct : (entries.map Prod.fst).Nodup := by simp
deriving Repr, DecidableEq

namespace OrdMap

variable {κ α β γ : Type}

def empty : OrdMap κ α := {}

instance : Inhabited (OrdMap κ α) := ⟨empty⟩

def keys (m : OrdMap κ α) : List κ := m.entries.map Prod.fst

def values (m : OrdMap κ α) : List α := m.entries.map Prod.snd

def size (m : OrdMap κ α) : Nat := m.entries.length

/-- What the values weigh together. -/
def total (weight : α → Nat) (m : OrdMap κ α) : Nat := m.values.foldl (fun n v => n + weight v) 0

/-- Replaces every value, given its key. -/
def mapWithKey (f : κ → α → β) (m : OrdMap κ α) : OrdMap κ β where
  entries := m.entries.map fun e => (e.1, f e.1 e.2)
  distinct := by
    rw [List.map_map]
    exact m.distinct

def map (f : α → β) (m : OrdMap κ α) : OrdMap κ β := m.mapWithKey fun _ => f

@[simp] theorem keys_empty : (empty : OrdMap κ α).keys = [] := rfl

variable [DecidableEq κ]

/-- Replaces the first entry under `key`, or appends one. -/
def put (key : κ) (value : α) : List (κ × α) → List (κ × α)
  | [] => [(key, value)]
  | (k, v) :: rest => if k = key then (k, value) :: rest else (k, v) :: put key value rest

theorem map_fst_put (key : κ) (value : α) (entries : List (κ × α)) :
    (put key value entries).map Prod.fst =
      if key ∈ entries.map Prod.fst then entries.map Prod.fst
      else entries.map Prod.fst ++ [key] := by
  induction entries with
  | nil => simp [put]
  | cons entry rest ih =>
      obtain ⟨k, v⟩ := entry
      by_cases same : k = key
      · simp [put, same]
      · have miss : key ≠ k := fun h => same h.symm
        simp only [put, same, ↓reduceIte, List.map_cons, ih, List.mem_cons, miss, false_or]
        split <;> simp

theorem distinct_put (key : κ) (value : α) (entries : List (κ × α))
    (distinct : (entries.map Prod.fst).Nodup) : ((put key value entries).map Prod.fst).Nodup := by
  rw [map_fst_put]
  split
  · exact distinct
  · rename_i absent
    refine List.nodup_append.mpr ⟨distinct, by simp, ?_⟩
    intro k inside other last same
    rw [same, List.mem_singleton.mp last] at inside
    exact absent inside

def get? (m : OrdMap κ α) (key : κ) : Option α := m.entries.lookup key

def contains (m : OrdMap κ α) (key : κ) : Bool := (m.get? key).isSome

/-- A key that is present keeps its place and takes the new value. -/
def insert (m : OrdMap κ α) (key : κ) (value : α) : OrdMap κ α :=
  ⟨put key value m.entries, distinct_put key value m.entries m.distinct⟩

/-- The first value given to a key stays. -/
def insertNew (m : OrdMap κ α) (key : κ) (value : α) : OrdMap κ α :=
  if m.contains key then m else m.insert key value

def modify (m : OrdMap κ α) (key : κ) (f : α → α) : OrdMap κ α :=
  match m.get? key with
  | some value => m.insert key (f value)
  | none => m

def ofList (entries : List (κ × α)) : OrdMap κ α :=
  entries.foldl (fun m e => m.insert e.1 e.2) empty

/-! ### Look-up -/

@[simp] theorem get?_empty (key : κ) : (empty : OrdMap κ α).get? key = none := rfl

theorem lookup_eq_some_iff (entries : List (κ × α)) (distinct : (entries.map Prod.fst).Nodup)
    (key : κ) (value : α) : entries.lookup key = some value ↔ (key, value) ∈ entries := by
  induction entries with
  | nil => simp
  | cons entry rest ih =>
      obtain ⟨k, v⟩ := entry
      simp only [List.map_cons, List.nodup_cons] at distinct
      by_cases same : key = k
      · subst same
        have absent : (key, value) ∉ rest := fun h => distinct.1 (List.mem_map_of_mem h)
        simp [absent, eq_comm]
      · have miss : (key == k) = false := by simpa using same
        simp [List.lookup_cons, miss, same, ih distinct.2]

theorem get?_eq_some_iff (m : OrdMap κ α) (key : κ) (value : α) :
    m.get? key = some value ↔ (key, value) ∈ m.entries :=
  lookup_eq_some_iff m.entries m.distinct key value

theorem get?_eq_none_iff (m : OrdMap κ α) (key : κ) : m.get? key = none ↔ key ∉ m.keys := by
  simp only [Option.eq_none_iff_forall_ne_some, ne_eq, get?_eq_some_iff, keys, List.mem_map,
    not_exists, not_and, Prod.forall]
  exact ⟨fun h k v inside same => h v (same ▸ inside), fun h v inside => h key v inside rfl⟩

theorem contains_iff (m : OrdMap κ α) (key : κ) : m.contains key = true ↔ key ∈ m.keys := by
  have none := get?_eq_none_iff m key
  unfold contains
  cases found : m.get? key with
  | none => simpa using none.mp found
  | some value =>
      rw [found] at none
      simpa using none

omit [DecidableEq κ] in
theorem mem_keys_of_mem {m : OrdMap κ α} {key : κ} {value : α} (inside : (key, value) ∈ m.entries) :
    key ∈ m.keys := List.mem_map_of_mem inside

omit [DecidableEq κ] in
theorem mem_values_iff (m : OrdMap κ α) (value : α) :
    value ∈ m.values ↔ ∃ key, (key, value) ∈ m.entries := by
  simp [values]

theorem flatMap_absent (key : κ) (f : κ × α → List β) (entries : List (κ × α))
    (absent : key ∉ entries.map Prod.fst) :
    (entries.flatMap fun e => if e.1 = key then f e else []) = [] := by
  rw [List.flatMap_eq_nil_iff]
  intro entry inside
  have miss : ¬ entry.1 = key := fun h => absent (h ▸ List.mem_map_of_mem inside)
  rw [if_neg miss]

/-- Of all entries, those under a key are the one that is stored there. -/
theorem flatMap_entry (m : OrdMap κ α) (key : κ) (value : α) (f : κ × α → List β)
    (inside : (key, value) ∈ m.entries) :
    (m.entries.flatMap fun e => if e.1 = key then f e else []) = f (key, value) := by
  obtain ⟨before, after, split⟩ := List.append_of_mem inside
  have distinct := m.distinct
  rw [split, List.map_append, List.map_cons, List.nodup_append, List.nodup_cons] at distinct
  have front : key ∉ before.map Prod.fst := fun h => distinct.2.2 key h key (by simp) rfl
  rw [split, List.flatMap_append, List.flatMap_cons, flatMap_absent key f before front,
    flatMap_absent key f after distinct.2.1.1]
  simp

/-! ### Insertion -/

theorem lookup_put_self (key : κ) (value : α) (entries : List (κ × α)) :
    (put key value entries).lookup key = some value := by
  induction entries with
  | nil => simp [put]
  | cons entry rest ih =>
      obtain ⟨k, v⟩ := entry
      by_cases same : k = key
      · simp [put, same]
      · have other : (key == k) = false := by simpa using fun h => same h.symm
        simp [put, same, List.lookup_cons, other, ih]

theorem lookup_put_other (key other : κ) (value : α) (entries : List (κ × α))
    (differs : other ≠ key) : (put key value entries).lookup other = entries.lookup other := by
  induction entries with
  | nil =>
      have miss : (other == key) = false := by simpa using differs
      simp [put, List.lookup_cons, miss]
  | cons entry rest ih =>
      obtain ⟨k, v⟩ := entry
      by_cases same : k = key
      · subst same
        have miss : (other == k) = false := by simpa using differs
        simp [put, List.lookup_cons, miss]
      · simp only [put, same, ↓reduceIte, List.lookup_cons]
        split <;> simp_all

@[simp] theorem get?_insert_self (m : OrdMap κ α) (key : κ) (value : α) :
    (m.insert key value).get? key = some value := lookup_put_self key value m.entries

theorem get?_insert_other (m : OrdMap κ α) (key other : κ) (value : α) (differs : other ≠ key) :
    (m.insert key value).get? other = m.get? other :=
  lookup_put_other key other value m.entries differs

theorem get?_insert (m : OrdMap κ α) (key other : κ) (value : α) :
    (m.insert key value).get? other = if other = key then some value else m.get? other := by
  split
  · rename_i same
    rw [same, get?_insert_self]
  · rename_i differs
    exact get?_insert_other m key other value differs

/-- Insertion appends a new key and leaves the order of the present ones alone. -/
theorem keys_insert (m : OrdMap κ α) (key : κ) (value : α) :
    (m.insert key value).keys = if key ∈ m.keys then m.keys else m.keys ++ [key] :=
  map_fst_put key value m.entries

theorem mem_values_insert {m : OrdMap κ α} {key : κ} {value other : α}
    (inside : other ∈ (m.insert key value).values) : other = value ∨ other ∈ m.values := by
  obtain ⟨k, found⟩ := (mem_values_iff _ _).mp inside
  rw [← get?_eq_some_iff, get?_insert] at found
  split at found
  · exact Or.inl (Option.some.inj found).symm
  · exact Or.inr ((mem_values_iff _ _).mpr ⟨k, (get?_eq_some_iff m k other).mp found⟩)

theorem put_new (key : κ) (value : α) (entries : List (κ × α))
    (absent : key ∉ entries.map Prod.fst) : put key value entries = entries ++ [(key, value)] := by
  induction entries with
  | nil => rfl
  | cons entry rest ih =>
      obtain ⟨k, v⟩ := entry
      simp only [List.map_cons, List.mem_cons, not_or] at absent
      have miss : ¬ k = key := fun h => absent.1 h.symm
      simp [put, miss, ih absent.2]

theorem entries_insert_new (m : OrdMap κ α) (key : κ) (value : α) (absent : key ∉ m.keys) :
    (m.insert key value).entries = m.entries ++ [(key, value)] :=
  put_new key value m.entries absent

/-! ### Replacing values -/

omit [DecidableEq κ] in
@[simp] theorem keys_mapWithKey (f : κ → α → β) (m : OrdMap κ α) :
    (m.mapWithKey f).keys = m.keys := by
  simp [keys, mapWithKey]

omit [DecidableEq κ] in
@[simp] theorem entries_mapWithKey (f : κ → α → β) (m : OrdMap κ α) :
    (m.mapWithKey f).entries = m.entries.map fun e => (e.1, f e.1 e.2) := rfl

omit [DecidableEq κ] in
theorem mapWithKey_mapWithKey (g : κ → β → γ) (f : κ → α → β) (m : OrdMap κ α) :
    (m.mapWithKey f).mapWithKey g = m.mapWithKey fun k v => g k (f k v) := by
  ext1
  simp

omit [DecidableEq κ] in
theorem mapWithKey_congr (f g : κ → α → β) (m : OrdMap κ α)
    (same : ∀ k v, (k, v) ∈ m.entries → f k v = g k v) : m.mapWithKey f = m.mapWithKey g := by
  ext1
  simp only [entries_mapWithKey, List.map_inj_left, Prod.forall]
  intro k v inside
  rw [same k v inside]

omit [DecidableEq κ] in
theorem mapWithKey_id (m : OrdMap κ α) : m.mapWithKey (fun _ v => v) = m := by
  ext1
  simp

theorem get?_mapWithKey (f : κ → α → β) (m : OrdMap κ α) (key : κ) :
    (m.mapWithKey f).get? key = (m.get? key).map (f key) := by
  ext value
  simp only [get?_eq_some_iff, entries_mapWithKey, List.mem_map, Prod.mk.injEq, Prod.exists,
    Option.map_eq_some_iff]
  constructor
  · rintro ⟨k, v, inside, rfl, rfl⟩
    exact ⟨v, inside, rfl⟩
  · rintro ⟨v, inside, rfl⟩
    exact ⟨key, v, inside, rfl, rfl⟩

theorem map_absent (key : κ) (f : α → α) (entries : List (κ × α))
    (absent : key ∉ entries.map Prod.fst) :
    entries.map (fun e => (e.1, if e.1 = key then f e.2 else e.2)) = entries := by
  induction entries with
  | nil => rfl
  | cons entry rest ih =>
      simp only [List.map_cons, List.mem_cons, not_or] at absent
      have miss : ¬ entry.1 = key := fun h => absent.1 h.symm
      simp only [List.map_cons, miss, ↓reduceIte, ih absent.2]

theorem put_present (key : κ) (value : α) (f : α → α) (entries : List (κ × α))
    (distinct : (entries.map Prod.fst).Nodup) (present : (key, value) ∈ entries) :
    put key (f value) entries = entries.map fun e => (e.1, if e.1 = key then f e.2 else e.2) := by
  induction entries with
  | nil => cases present
  | cons entry rest ih =>
      obtain ⟨k, v⟩ := entry
      simp only [List.map_cons, List.nodup_cons] at distinct
      by_cases same : k = key
      · subst same
        have here : v = value := by
          rcases List.mem_cons.mp present with h | h
          · exact (Prod.mk.inj h).2.symm
          · exact absurd (List.mem_map_of_mem h) distinct.1
        simp only [put, ↓reduceIte, List.map_cons, here, map_absent k f rest distinct.1]
      · have further : (key, value) ∈ rest := by
          rcases List.mem_cons.mp present with h | h
          · exact absurd (Prod.mk.inj h).1.symm same
          · exact h
        simp only [put, same, ↓reduceIte, List.map_cons, ih distinct.2 further]

/-- Modifying a key changes the value of that key only. -/
theorem modify_eq_mapWithKey (m : OrdMap κ α) (key : κ) (f : α → α) :
    m.modify key f = m.mapWithKey fun k v => if k = key then f v else v := by
  ext1
  unfold modify
  split
  · rename_i value found
    exact put_present key value f m.entries m.distinct ((get?_eq_some_iff m key value).mp found)
  · rename_i absent
    rw [get?_eq_none_iff] at absent
    exact (map_absent key f m.entries absent).symm

theorem get?_modify (m : OrdMap κ α) (key other : κ) (f : α → α) :
    (m.modify key f).get? other = (m.get? other).map fun v => if other = key then f v else v := by
  rw [modify_eq_mapWithKey, get?_mapWithKey]

/-! ### Totals -/

theorem foldl_weight (weight : α → Nat) (list : List α) (n : Nat) :
    list.foldl (fun n v => n + weight v) n = n + list.foldl (fun n v => n + weight v) 0 := by
  induction list generalizing n with
  | nil => rfl
  | cons v rest ih =>
      rw [List.foldl_cons, List.foldl_cons, ih, ih (0 + weight v)]
      omega

theorem total_insert_new (weight : α → Nat) (m : OrdMap κ α) (key : κ) (value : α)
    (absent : key ∉ m.keys) : (m.insert key value).total weight = m.total weight + weight value := by
  simp only [total, values, entries_insert_new m key value absent, List.map_append,
    List.foldl_append, List.map_cons, List.map_nil, List.foldl_cons, List.foldl_nil]

omit [DecidableEq κ] in
theorem total_mapWithKey (weight : α → Nat) (m : OrdMap κ α) (f : κ → α → α)
    (same : ∀ k v, weight (f k v) = weight v) : (m.mapWithKey f).total weight = m.total weight := by
  simp only [total, values, entries_mapWithKey, List.map_map, List.foldl_map, Function.comp_apply,
    same]

/-- The weight of a value that is modified is replaced. -/
theorem total_modify (weight : α → Nat) (m : OrdMap κ α) (key : κ) (value : α) (f : α → α)
    (inside : (key, value) ∈ m.entries) :
    (m.modify key f).total weight + weight value = m.total weight + weight (f value) := by
  obtain ⟨before, after, parts⟩ := List.append_of_mem inside
  have distinct := m.distinct
  rw [parts, List.map_append, List.map_cons, List.nodup_append, List.nodup_cons] at distinct
  have front : key ∉ before.map Prod.fst := fun h => distinct.2.2 key h key (by simp) rfl
  rw [modify_eq_mapWithKey]
  simp only [total, values, entries_mapWithKey, parts, List.map_append, List.map_cons,
    map_absent key f before front, map_absent key f after distinct.2.1.1, ↓reduceIte,
    List.foldl_append, List.foldl_cons]
  rw [foldl_weight weight _ (_ + weight (f value)), foldl_weight weight _ (_ + weight value)]
  omega

end OrdMap

end ApiDocs
