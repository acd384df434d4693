import ApiDocs.Proofs.Arena.Joined
import ApiDocs.Proofs.Mapped.Templates

set_option autoImplicit false

/-!
Work whose answer is settled by its first run. `keyof` and indexed access are worked out anew for each
type that is written with them, but what they come to is a literal, a union or the type of a member,
each of which is kept once. So the same operands give the same type again, no matter what was done in
between.
-/

namespace ApiDocs

/-! ### Operands -/

/-- Types that are neither unions nor stand for another type. -/
def TypeData.isSingle : TypeData → Bool
  | .union _ => false
  | .typeParameter _ => false
  | .keyOf _ => false
  | .indexedAccess _ _ => false
  | .mapped _ => false
  | _ => true

/-- A type that is there, and is a single type or a union of those. -/
structure Checker.Concrete (c : Checker) (t : TypeId) : Prop where
  inside : t.index < c.arena.size
  single : ∀ m ∈ c.arena.alternatives t, m.index < c.arena.size ∧ (c.arena.data m).isSingle = true

namespace Arena

variable {a : Arena} {t : TypeId}

theorem alternatives_eq (t : TypeId) : a.alternatives t = a.flattenUnion [t] := by
  unfold alternatives flattenUnion
  cases data : a.data t <;> simp [data]

theorem alternatives_of_single (single : (a.data t).isSingle = true) : a.alternatives t = [t] := by
  unfold alternatives
  split
  · rename_i data
    rw [data] at single
    cases single
  · rfl

end Arena

/-! ### Concrete types -/

namespace Checker

variable {n : Nat} {p : Program} {c c' : Checker} {t : TypeId}

namespace Concrete

theorem cases (concrete : c.Concrete t) : (c.arena.data t).isSingle = true ∨
    ∃ ids, c.arena.data t = .union ids ∧
      ∀ m ∈ ids, m.index < c.arena.size ∧ (c.arena.data m).isSingle = true := by
  have single := concrete.single
  unfold Arena.alternatives at single
  split at single
  · rename_i ids data
    exact .inr ⟨ids, data, single⟩
  · exact .inl (single t List.mem_cons_self).2

theorem plain (concrete : c.Concrete t) : (c.arena.data t).isOperator = false := by
  rcases concrete.cases with single | ⟨ids, data, -⟩
  · cases data : c.arena.data t <;> rw [data] at single <;> first | rfl | cases single
  · rw [data]
    rfl

theorem bound (concrete : c.Concrete t) : (c.arena.data t).isParameter = false := by
  rcases concrete.cases with single | ⟨ids, data, -⟩
  · cases data : c.arena.data t <;> rw [data] at single <;> first | rfl | cases single
  · rw [data]
    rfl

theorem of_single (inside : t.index < c.arena.size) (single : (c.arena.data t).isSingle = true) :
    c.Concrete t := by
  refine ⟨inside, fun m listed => ?_⟩
  rw [Arena.alternatives_of_single single] at listed
  exact List.mem_singleton.mp listed ▸ ⟨inside, single⟩

theorem later (concrete : c.Concrete t) (since : Since n c c') : c'.Concrete t := by
  refine ⟨since.inside concrete.inside, fun m listed => ?_⟩
  rw [Arena.alternatives, since.data concrete.inside] at listed
  obtain ⟨inside, single⟩ := concrete.single m listed
  exact ⟨since.inside inside, by rwa [since.data inside]⟩

end Concrete

theorem Since.alike (since : Since n c c') : c.arena.Alike c'.arena :=
  .of_data since.before.size fun _ inside => since.data inside

theorem concrete_keyword (ready : Ready n p c) (i : Intrinsic) : c.Concrete (Arena.intrinsicId i) :=
  .of_single (Arena.index_intrinsicId_lt ready.sound.houses i) (by rw [ready.keywords i]; rfl)

section

variable {types : List TypeId}

theorem index_lt_of_joined (ready : Ready n p c) (joined : c.arena.Joined types t) :
    t.index < c.arena.size := by
  rcases joined.cases with (listed | rfl) | ⟨ids, -, found⟩
  · exact joined.flat t listed
  · exact (concrete_keyword ready .never).inside
  · exact ready.regular.keyed.inside found

/-- The union of concrete types is concrete. -/
theorem concrete_of_joined (ready : Ready n p c) (joined : c.arena.Joined types t)
    (each : ∀ u ∈ types, c.Concrete u) : c.Concrete t := by
  have flat : ∀ u ∈ c.arena.flattenUnion types,
      u.index < c.arena.size ∧ (c.arena.data u).isSingle = true := by
    intro u listed
    obtain ⟨v, here, part⟩ := Arena.mem_flattenUnion.mp listed
    exact (each v here).single u (Arena.alternatives_eq v ▸ part)
  rcases joined.cases with (listed | rfl) | ⟨ids, subset, found⟩
  · exact .of_single (flat t listed).1 (flat t listed).2
  · exact concrete_keyword ready .never
  · refine ⟨ready.regular.keyed.inside found, fun m listed => flat m (subset ?_)⟩
    rwa [Arena.alternatives, ready.regular.keyed _ _ found] at listed

end

end Checker

namespace Check

open Checker

variable {α β ι : Type} {n : Nat} {p : Program} {c c' : Checker}

/-! ### Rules -/

/-- Whichever piece of work is done first, it ends as said, and from then on all of them have its
answer. -/
def Settles (n : Nat) (p : Program) (c : Checker) (m : ι → Check α) (post : α → Checker → Prop) : Prop :=
  ∀ i, Ends n p c (m i) fun a c' => post a c' ∧ ∀ j, Ends n p c' (m j) fun b _ => b = a

namespace Settles

variable {m : ι → Check α} {post : α → Checker → Prop}

theorem weaken (settles : Settles n p c m post) {other : α → Checker → Prop}
    (implies : ∀ a c', Since n c c' → post a c' → other a c') : Settles n p c m other :=
  fun i => (settles i).weaken fun a c' since holds => ⟨implies a c' since holds.1, holds.2⟩

/-- Work that has the same answer in all states. -/
theorem of_value {a : α} (ends : ∀ i, Ends n p c (m i) fun b _ => b = a)
    (holds : ∀ c', Since n c c' → post a c') : Settles n p c m post :=
  fun i => (ends i).weaken fun _ c' since same =>
    ⟨same ▸ holds c' since, fun j => same ▸ (ends j).later since⟩

theorem pure {a : α} (holds : ∀ c', Since n c c' → post a c') :
    Settles n p c (fun _ : ι => Pure.pure a) post :=
  of_value (fun _ => .pure fun _ _ => rfl) holds

theorem bind {f : ι → α → Check β} {last : β → Checker → Prop} (first : Settles n p c m post)
    (next : ∀ a c', Since n c c' → Ready n p c' → post a c' → Settles n p c' (fun i => f i a) last) :
    Settles n p c (fun i => m i >>= f i) last := by
  intro i
  refine .bind (first i) fun a c₁ since ready ⟨holds, again⟩ => ?_
  have rest := next a c₁ since ready holds
  refine (rest i).weaken fun b c₂ since₂ ⟨holds, same⟩ => ⟨holds, fun j => ?_⟩
  refine .bind ((again j).later since₂) fun a' c₃ since₃ _ eq => ?_
  rw [eq]
  exact (same j).later since₃

theorem mapM {γ : Type} {f : ι → γ → Check α} {list : List γ}
    (each : ∀ x ∈ list, ∀ c', Since n c c' → Ready n p c' → Settles n p c' (fun i => f i x) post)
    (stays : ∀ a c₁ c₂, Since n c₁ c₂ → post a c₁ → post a c₂) :
    Settles n p c (fun i => list.mapM (f i)) fun all c' => ∀ a ∈ all, post a c' := by
  induction list generalizing c with
  | nil => exact .pure fun _ _ => nofun
  | cons x rest ih =>
      simp only [List.mapM_cons]
      refine .bind (fun i c' since ready => each x List.mem_cons_self c' since ready i c' (.refl n _) ready)
        fun a c₁ since₁ _ holds => ?_
      refine .bind (ih fun y listed c₂ since₂ => each y (List.mem_cons_of_mem _ listed) c₂
        (since₁.trans since₂)) fun all c₂ since₂ _ held => .pure fun c₃ since₃ b listed => ?_
      rcases List.mem_cons.mp listed with rfl | later
      · exact stays b c₁ c₃ (since₂.trans since₃) holds
      · exact stays b c₂ c₃ since₃ (held b later)

end Settles

section

variable {t : TypeId}

theorem settles_data (inside : t.index < c.arena.size) :
    Settles n p c (fun _ : ι => Check.data t) fun data _ => data = c.arena.data t :=
  .of_value (fun _ => ends_data inside) fun _ _ => rfl

theorem settles_isWaiting (inside : t.index < c.arena.size) :
    Settles n p c (fun _ : ι => isWaiting t) fun waiting _ => waiting = (c.arena.data t).isParameter :=
  .of_value (fun _ => ends_isWaiting inside) fun _ _ => rfl

theorem settles_evaluate_plain (ready : Ready n p c) (inside : t.index < c.arena.size)
    (plain : (c.arena.data t).isOperator = false) (depth : ι → Nat) :
    Settles n p c (fun i => (callsTo (depth i + 1)).ask (.evaluate t)) fun r _ => r = t :=
  .of_value (fun i => ends_evaluate_plain (depth i) ready inside plain) fun _ _ => rfl

theorem settles_shape (ready : Ready n p c) (below : t.index < n) (depth : ι → Nat) :
    Settles n p c (fun i => (callsTo (depth i + 1)).ask (.shape t)) fun shape c' =>
      c'.shapes.find? t = some shape :=
  fun i => (ends_shape (depth i) ready below).weaken fun _ _ _ found =>
    ⟨found, fun j => ends_shape_of_known (depth j) below found⟩

/-- A type that is kept once is found again. -/
theorem settles_interned (k : InternKey) {m : Check TypeId} [Safe p c m]
    (interns : ∀ c', Since n c c' → m.outcome p c' = ((c'.arena.intern k k.data).1,
      { c' with arena := (c'.arena.intern k k.data).2 })) :
    Settles n p c (fun _ : ι => m) fun t c' => c'.arena.interned[k]? = some t := by
  intro _
  have ends : Ends n p c m _ := ends_interned k interns
  refine ends.weaken fun t c' since found => ⟨found, fun _ => ?_⟩
  refine (ends.later since).weaken fun u c'' after again => ?_
  rw [after.interned k t found] at again
  exact (Option.some.inj again).symm

/-- The union of types that are there stays there. -/
theorem ends_union {types : List TypeId} (inside : ∀ t ∈ types, t.index < c.arena.size) :
    Ends n p c (Check.union types) fun t c' => c'.arena.Joined types t := by
  intro c' since ready
  have here : ∀ t ∈ types, t.index < c'.arena.size := fun t listed => since.inside (inside t listed)
  have := ready.started
  have : Known c' types := known_list_iff.mpr fun t listed => known_type_iff.mpr (here t listed)
  exact ⟨ready.outcome inferInstance,
    Arena.joined_union here (Arena.flattenUnion_inside ready.sound.houses here)⟩

/-- The union of types that are there is found again, and is concrete if they are. -/
theorem settles_union (ready : Ready n p c) {types : List TypeId}
    (inside : ∀ t ∈ types, t.index < c.arena.size) :
    Settles n p c (fun _ : ι => Check.union types) fun t c' => t.index < c'.arena.size ∧
      ((∀ u ∈ types, c.Concrete u) → c'.Concrete t) := by
  intro _ c₁ since₁ ready₁
  have := ready.started
  have : Known c types := known_list_iff.mpr fun t listed => known_type_iff.mpr (inside t listed)
  obtain ⟨after, joined⟩ := ends_union inside c₁ since₁ ready₁
  have whole : Since n c _ := since₁.trans (.outcome n (Check.union types) p c₁)
  refine ⟨after, ⟨index_lt_of_joined after joined, fun each => ?_⟩, fun _ c₂ since₂ ready₂ => ?_⟩
  · exact concrete_of_joined after joined fun u listed => (each u listed).later whole
  · have before := (whole.trans since₂).before
    have again := joined.mono since₂.alike since₂.interned
    refine ⟨ready₂.outcome inferInstance, ?_⟩
    show (c₂.arena.union types).1 = _
    rw [again.made]

end

end Check

namespace Checker

variable {n : Nat} {p : Program} {c c' : Checker} {t : TypeId}

/-! ### What `keyof` comes to -/

open Check

variable {ι : Type}

/-- The keys of a concrete type, whatever they are asked for. They are concrete themselves. -/
theorem settles_evaluateKeyOf (ready : Ready n p c) {source : TypeId} (below : source.index < n)
    (concrete : c.Concrete source) (depth : ι → Nat) (whole : ι → TypeId) :
    Settles n p c (fun i => evaluateKeyOf (callsTo (depth i + 1)) (whole i) source)
      fun t c' => c'.Concrete t := by
  have inside := concrete.inside
  unfold evaluateKeyOf
  have source := settles_evaluate_plain ready inside concrete.plain depth
  refine .bind source fun inner c₁ since₁ ready₁ same => ?_
  subst same
  refine .bind (settles_isWaiting (since₁.inside inside)) fun waiting c₂ since₂ ready₂ settled => ?_
  rw [since₁.data inside, concrete.bound] at settled
  subst settled
  simp only [Bool.false_eq_true, ↓reduceIte]
  by_cases any : inner = Arena.anyId
  · simp only [any, ↓reduceIte]
    have each : ∀ t ∈ [Intrinsic.string, .number, .symbol].map Arena.intrinsicId, c₂.Concrete t := by
      intro t listed
      obtain ⟨i, -, rfl⟩ := List.mem_map.mp listed
      exact concrete_keyword ready₂ i
    exact (settles_union ready₂ fun t listed => (each t listed).inside).weaken fun t c' _ made =>
      made.2 each
  · simp only [any, ↓reduceIte]
    refine .bind (settles_shape ready₂ below depth) fun shape c₃ since₃ ready₃ found => ?_
    have literals : Settles n p c₃ (fun _ : ι => shape.members.mapM fun m => stringLiteral m.name)
        fun names c' => ∀ t ∈ names, ∃ name, c'.arena.interned[InternKey.string name]? = some t := by
      refine .mapM (fun m _ c' _ _ => ?_) fun t c₁ c₂ since ⟨name, here⟩ => ⟨name, since.interned _ _ here⟩
      exact (settles_interned (.string m.name) fun _ _ => rfl).weaken fun t _ _ here => ⟨m.name, here⟩
    refine .bind literals fun names c₄ since₄ ready₄ made => ?_
    have each : ∀ t ∈ names ++ (if shape.stringIndex.isSome then [Arena.intrinsicId .string] else []) ++
        (if shape.numberIndex.isSome then [Arena.intrinsicId .number] else []), c₄.Concrete t := by
      intro t listed
      rcases List.mem_append.mp listed with first | number
      · rcases List.mem_append.mp first with name | string
        · obtain ⟨text, here⟩ := made t name
          have data := ready₄.regular.keyed _ _ here
          exact .of_single (ready₄.regular.keyed.inside here) (by rw [data]; rfl)
        · split at string
          · exact List.mem_singleton.mp string ▸ concrete_keyword ready₄ .string
          · cases string
      · split at number
        · exact List.mem_singleton.mp number ▸ concrete_keyword ready₄ .number
        · cases number
    exact (settles_union ready₄ fun t listed => (each t listed).inside).weaken fun t c' _ made =>
      made.2 each

/-! ### What indexed access comes to -/

section

variable {object : TypeId}

theorem inside_any (ready : Ready n p c) : Arena.anyId.index < c.arena.size :=
  Arena.index_intrinsicId_lt ready.sound.houses .any

theorem settles_any (ready : Ready n p c) :
    Settles n p c (fun _ : ι => (pure Arena.anyId : Check TypeId)) fun t c' => t.index < c'.arena.size :=
  .pure fun _ since => since.inside (inside_any ready)

/-- A type that is read off the members of a type. -/
theorem settles_ofShape (ready : Ready n p c) (below : object.index < n) {f : Shape → TypeId}
    (part : ∀ shape, f shape = Arena.anyId ∨ f shape ∈ shape.parts) (depth : ι → Nat) :
    Settles n p c (fun i => do return f (← (callsTo (depth i + 1)).ask (.shape object)))
      fun t c' => t.index < c'.arena.size := by
  refine Settles.bind (settles_shape ready below depth) fun shape c₁ _ ready₁ found => ?_
  refine .pure fun c₂ since => since.inside ?_
  rcases part shape with any | listed
  · exact any ▸ inside_any ready₁
  · have known := (ready₁.sound.holds.shapes object shape found).2
    exact known_type_iff.mp (Shape.known_of_mem_parts known listed)

theorem settles_stringIndexType (ready : Ready n p c) (below : object.index < n) (depth : ι → Nat) :
    Settles n p c (fun i => stringIndexType (callsTo (depth i + 1)) object)
      fun t c' => t.index < c'.arena.size := by
  refine settles_ofShape ready below (fun shape => ?_) depth
  cases found : shape.stringIndex with
  | none => exact .inl rfl
  | some index => exact .inr (Shape.mem_parts.mpr (by simp [found]))

theorem settles_numberIndexType (ready : Ready n p c) (below : object.index < n) (depth : ι → Nat) :
    Settles n p c (fun i => numberIndexType (callsTo (depth i + 1)) object)
      fun t c' => t.index < c'.arena.size := by
  refine settles_ofShape ready below (fun shape => ?_) depth
  cases number : shape.numberIndex with
  | some index => exact .inr (Shape.mem_parts.mpr (by simp [number]))
  | none =>
      cases string : shape.stringIndex with
      | none => exact .inl rfl
      | some index => exact .inr (Shape.mem_parts.mpr (by simp [string]))

theorem settles_memberType (ready : Ready n p c) (below : object.index < n) (name : String)
    (depth : ι → Nat) :
    Settles n p c (fun i => memberType (callsTo (depth i + 1)) object name)
      fun t c' => t.index < c'.arena.size := by
  unfold memberType
  refine Settles.bind (settles_shape ready below depth) fun shape c₁ _ ready₁ found => ?_
  cases member : shape.member? name with
  | none => exact settles_stringIndexType ready₁ below depth
  | some m =>
      have listed : m ∈ shape.members := List.mem_of_find?_eq_some member
      have known := (ready₁.sound.holds.shapes object shape found).2
      have part := Shape.known_of_mem_parts known (Shape.mem_parts.mpr (.inl ⟨m, listed, rfl⟩))
      exact .pure fun _ since => since.inside (known_type_iff.mp part)

/-- The items of a tuple are there. -/
theorem inside_items (ready : Ready n p c) {items : List TypeId}
    (data : c.arena.data object = .tuple items) (t : TypeId) (listed : t ∈ items) :
    t.index < c.arena.size := by
  have inside : object.index < c.arena.size := Arena.lt_size_of_data data nofun
  refine Arena.data_inside ready.sound.houses inside ?_
  rw [data]
  exact Arena.mem_types listed

theorem settles_itemType (ready : Ready n p c) (below : object.index < n) (depth : ι → Nat) :
    Settles n p c (fun i => itemType (callsTo (depth i + 1)) object)
      fun t c' => t.index < c'.arena.size := by
  have inside := Nat.lt_of_lt_of_le below ready.base
  unfold itemType
  refine Settles.bind (settles_data inside) fun data c₁ since₁ ready₁ same => ?_
  subst same
  have number := settles_numberIndexType ready₁ below depth
  cases here : c.arena.data object with
  | tuple items =>
      have data₁ : c₁.arena.data object = .tuple items := (since₁.data inside).trans here
      exact (settles_union ready₁ (inside_items ready₁ data₁)).weaken fun _ _ _ made => made.1
  | _ => exact number

/-- What the text of a number selects: an item of a tuple, or else what a number index has. -/
theorem settles_place (ready : Ready n p c) (below : object.index < n) (text : String) (depth : ι → Nat) :
    Settles n p c (fun i => do
      match ← Check.data object with
      | .tuple items => return ((place? text).bind (items[·]?)).getD Arena.anyId
      | _ => numberIndexType (callsTo (depth i + 1)) object) fun t c' => t.index < c'.arena.size := by
  have inside := Nat.lt_of_lt_of_le below ready.base
  refine Settles.bind (settles_data inside) fun data c₁ since₁ ready₁ same => ?_
  subst same
  have number := settles_numberIndexType ready₁ below depth
  cases here : c.arena.data object with
  | tuple items =>
      have data₁ : c₁.arena.data object = .tuple items := (since₁.data inside).trans here
      refine .pure fun c₂ since₂ => since₂.inside ?_
      cases selected : (place? text).bind (items[·]?) with
      | none => exact inside_any ready₁
      | some t =>
          obtain ⟨i, -, found⟩ := Option.bind_eq_some_iff.mp selected
          exact inside_items ready₁ data₁ t (List.mem_of_getElem? found)
  | _ => exact number

/-- The two sides of an access to concrete types. -/
theorem settles_sides {index : TypeId} {post : TypeId → Checker → Prop}
    {next : ι → TypeId → TypeId → Bool → Bool → Check TypeId} (ready : Ready n p c)
    (first : c.Concrete object) (second : c.Concrete index) (depth : ι → Nat)
    (rest : ∀ c', Since n c c' → Ready n p c' →
      Settles n p c' (fun i => next i object index false false) post) :
    Settles n p c (fun i => do
      let object ← (callsTo (depth i + 1)).ask (.evaluate object)
      let index ← (callsTo (depth i + 1)).ask (.evaluate index)
      let first ← isWaiting object
      let second ← isWaiting index
      next i object index first second) post := by
  refine Settles.bind (settles_evaluate_plain ready first.inside first.plain depth)
    fun _ c₁ since₁ ready₁ same => ?_
  subst same
  refine Settles.bind (settles_evaluate_plain ready₁ (since₁.inside second.inside)
    (by rw [since₁.data second.inside]; exact second.plain) depth) fun _ c₂ since₂ ready₂ same => ?_
  subst same
  have since := since₁.trans since₂
  refine Settles.bind (settles_isWaiting (since.inside first.inside)) fun _ c₃ since₃ _ waits => ?_
  rw [since.data first.inside, first.bound] at waits
  subst waits
  have since := since.trans since₃
  refine Settles.bind (settles_isWaiting (since.inside second.inside)) fun _ c₄ since₄ ready₄ waits => ?_
  rw [since.data second.inside, second.bound] at waits
  subst waits
  exact rest c₄ (since.trans since₄) ready₄

theorem settles_indexedAccess_single (ready : Ready n p c) (below : object.index < n)
    (first : c.Concrete object) {index : TypeId} (inside : index.index < c.arena.size)
    (single : (c.arena.data index).isSingle = true) (depth : ι → Nat) (whole : ι → TypeId) :
    Settles n p c (fun i => indexedAccess (callsTo (depth i + 1)) (whole i) object index)
      fun t c' => t.index < c'.arena.size := by
  unfold indexedAccess
  refine settles_sides ready first (.of_single inside single) depth fun c₁ since₁ ready₁ => ?_
  simp only [Bool.or_self, Bool.false_eq_true, ↓reduceIte]
  refine Settles.bind (settles_data (since₁.inside inside)) fun data c₂ since₂ ready₂ same => ?_
  rw [since₁.data inside] at same
  subst same
  cases here : c.arena.data index with
  | stringLiteral name => exact settles_memberType ready₂ below name depth
  | numberLiteral text => exact settles_place ready₂ below text depth
  | intrinsic i =>
      cases i with
      | number => exact settles_itemType ready₂ below depth
      | string => exact settles_stringIndexType ready₂ below depth
      | _ => exact settles_any ready₂
  | union members =>
      rw [here] at single
      cases single
  | _ => exact settles_any ready₂

theorem ask_indexedAccess (k : Nat) (whole object index : TypeId) :
    (callsTo (k + 1)).ask (.indexedAccess whole object index) =
      indexedAccess (callsTo k) whole object index := ask_callsTo k _

/-- What an access to concrete types comes to, whatever it is asked for. An access to a union of keys
is the union of the accesses to each of them. -/
theorem settles_indexedAccess (ready : Ready n p c) (below : object.index < n) (first : c.Concrete object)
    {index : TypeId} (second : c.Concrete index) (depth : ι → Nat) (whole : ι → TypeId) :
    Settles n p c (fun i => indexedAccess (callsTo (depth i + 1 + 1)) (whole i) object index)
      fun t c' => t.index < c'.arena.size := by
  rcases second.cases with single | ⟨ids, data, single⟩
  · exact settles_indexedAccess_single ready below first second.inside single
      (fun i => depth i + 1) whole
  · unfold indexedAccess
    refine settles_sides ready first second (fun i => depth i + 1) fun c₁ since₁ ready₁ => ?_
    simp only [Bool.or_self, Bool.false_eq_true, ↓reduceIte]
    refine Settles.bind (settles_data (since₁.inside second.inside)) fun _ c₂ since₂ ready₂ same => ?_
    rw [since₁.data second.inside, data] at same
    subst same
    have since := since₁.trans since₂
    have each : ∀ m ∈ ids, ∀ c₃, Since n c₂ c₃ → Ready n p c₃ → Settles n p c₃
        (fun i => (callsTo (depth i + 1 + 1)).ask (.indexedAccess (whole i) object m))
        fun t c' => t.index < c'.arena.size := by
      intro m listed c₃ since₃ ready₃
      have since := since.trans since₃
      obtain ⟨inside, here⟩ := single m listed
      rw [← since.data inside] at here
      simp only [ask_indexedAccess]
      exact settles_indexedAccess_single ready₃ below (first.later since) (since.inside inside) here
        depth whole
    refine Settles.bind (Settles.mapM each fun t _ _ since here => since.inside here)
      fun types c₃ _ ready₃ here => ?_
    exact (settles_union ready₃ here).weaken fun _ _ _ made => made.1

end

/-! ### New operators -/

/-- A new operator comes to the same type again, if what it is worked out to is settled. -/
theorem settles_makeNew (ready : Ready n p c) {data : TypeData} [Known c data]
    (operator : data.isOperator = true) {post : TypeId → Checker → Prop}
    (stays : ∀ r c₁ c₂, Since n c₁ c₂ → post r c₁ → post r c₂)
    (work : ∀ c', Since n c c' → Ready n p c' → Settles n p c'
      (fun i : Nat × TypeId => workOut (callsTo (i.1 + 1 + 1)) i.2 data) post) :
    Settles n p c (fun k => makeNew (callsTo (k + 1 + 1 + 1)) data) post := by
  intro k
  refine ends_makeNew (k + 1 + 1) ready operator (fun r c₁ c₂ since ⟨holds, again⟩ =>
    ⟨stays r c₁ c₂ since holds, fun j => (again j).later since⟩) fun t c₁ since₁ ready₁ _ => ?_
  refine (work c₁ since₁ ready₁ (k, t)).weaken fun r c₂ since₂ ⟨holds, same⟩ => ⟨holds, fun j => ?_⟩
  intro c₃ since₃ ready₃
  have before := ((since₁.trans since₂).trans since₃).before
  exact ends_makeNew (j + 1 + 1) ready₃ operator (fun _ _ _ _ same => same)
    (fun u c₄ since₄ _ _ => (same (j, u)).later (since₃.trans since₄)) c₃ (.refl n _) ready₃

end Checker

end ApiDocs
