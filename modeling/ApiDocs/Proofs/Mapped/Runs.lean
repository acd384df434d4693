import ApiDocs.Proofs.Arena.Runs
import ApiDocs.Proofs.Repeat
import ApiDocs.Proofs.Substitution

set_option autoImplicit false

/-!
Work that ends as said. While a new type is being worked out, other types are made and worked out.
What was there when that began stays as it is, and the types that are being worked out are the new
ones. The rules below follow a piece of work from such a state to its end, with what is said about
its answer and its last state.
-/

namespace ApiDocs

namespace Checker

/-! ### Regular states -/

/-- What is found for a key is made of what the key says and has no name, and types that are no
operators stand for themselves. -/
structure Regular (c : Checker) : Prop where
  unnamed : ∀ (k : InternKey) (t : TypeId), c.arena.interned[k]? = some t → c.arena.info t = ⟨k.data, none⟩
  plain : ∀ t r : TypeId, c.evaluated.find? t = some r → (c.arena.data t).isOperator = false → r = t

theorem Regular.keyed {c : Checker} (regular : c.Regular) : c.arena.Keyed :=
  fun k t found => congrArg TypeInfo.data (regular.unnamed k t found)

end Checker

namespace Work

variable {n : Nat} {c c' : Checker}

/-- Only places for aliases and type parameters are filled, so that operators stay. -/
theorem info_operator (work : Work n c c') (start : n ≤ c.arena.size) {t : TypeId}
    (inside : t.index < c.arena.size) (operator : (c.arena.data t).isOperator = true) :
    c'.arena.info t = c.arena.info t := by
  induction work with
  | refl => rfl
  | @trans n a b c first _ before after =>
      have same := before start inside operator
      have size := (first.extends start).size
      rw [← same]
      refine after (Nat.le_trans start size) (Nat.lt_of_lt_of_le inside size) ?_
      rwa [Arena.data, same]
  | types grown => exact grown.info t inside
  | symbols | params | giveUp => rfl
  | fillAlias _ reserved =>
      refine Arena.info_set_other _ _ _ _ fun same => ?_
      rw [same, Arena.data, reserved] at operator
      cases operator
  | fillParam _ reserved =>
      refine Arena.info_setData_other _ _ _ _ fun same => ?_
      rw [same, reserved] at operator
      cases operator
  | declare _ _ _ ih | body _ ih | value _ _ _ ih | members _ _ _ _ ih | evaluate _ _ _ ih
  | element _ _ _ ih => exact ih start inside operator
  | shape _ _ _ ih => exact ih (Nat.le_refl _) inside operator

theorem interned (work : Work n c c') (k : InternKey) (t : TypeId)
    (found : c.arena.interned[k]? = some t) : c'.arena.interned[k]? = some t := by
  induction work with
  | types grown => exact grown.interned k t found
  | trans _ _ first second => exact second (first found)
  | refl | symbols | fillAlias | fillParam | params | giveUp => exact found
  | declare _ _ _ ih | body _ ih | value _ _ _ ih | members _ _ _ _ ih | shape _ _ _ ih
  | evaluate _ _ _ ih | element _ _ _ ih => exact ih found

/-- A place that is neither of a key nor an operator is filled. -/
theorem regular_fill (regular : c.Regular) {a : Arena} {t : TypeId}
    (same : a.interned = c.arena.interned)
    (others : ∀ other, other ≠ t → a.info other = c.arena.info other)
    (unkeyed : ∀ k : InternKey, c.arena.data t ≠ k.data) (open_ : (c.arena.data t).isOperator = false) :
    Checker.Regular { c with arena := a } where
  unnamed k u found := by
    change a.interned[k]? = some u at found
    rw [same] at found
    have info := regular.unnamed k u found
    have differs : u ≠ t := fun here => unkeyed k (here ▸ congrArg TypeInfo.data info)
    exact (others u differs).trans info
  plain u r known plain := by
    refine regular.plain u r known ?_
    rcases Decidable.em (u = t) with rfl | differs
    · exact open_
    · rwa [← Arena.data_eq (others u differs)]

theorem regular (work : Work n c c') (start : n ≤ c.arena.size) (regular : c.Regular) :
    c'.Regular := by
  induction work with
  | refl => exact regular
  | trans first _ before after =>
      exact after (Nat.le_trans start (first.extends start).size) (before start regular)
  | @types n c arena grown =>
      refine ⟨fun k t found => ?_, fun t r known plain => ?_⟩
      · rcases grown.added k t found with before | made
        · exact (grown.info t (regular.keyed.inside before)).trans (regular.unnamed k t before)
        · exact made
      · refine regular.plain t r known ?_
        rcases Nat.lt_or_ge t.index c.arena.size with inside | outside
        · rwa [← Arena.data_eq (grown.info t inside)]
        · rw [Arena.data, Arena.info_of_size_le _ _ outside]
          rfl
  | symbols | params | giveUp => exact ⟨regular.unnamed, regular.plain⟩
  | @fillAlias n c t s _ reserved info =>
      refine regular_fill regular rfl (fun other => Arena.info_set_other c.arena t other info)
        (fun k => ?_) (by rw [Arena.data, reserved]; rfl)
      rw [Arena.data, reserved]
      cases k <;> rintro ⟨⟩
  | @fillParam n c t old _ reserved param =>
      refine regular_fill regular rfl
        (fun other => Arena.info_setData_other c.arena t other (.typeParameter param))
        (fun k => ?_) (by rw [reserved]; rfl)
      rw [reserved]
      cases k <;> rintro ⟨⟩
  | declare _ _ _ ih | element _ _ _ ih => exact ⟨(ih start regular).unnamed, (ih start regular).plain⟩
  | body _ ih | value _ _ _ ih | members _ _ _ _ ih =>
      have inner := ih start ⟨regular.unnamed, regular.plain⟩
      exact ⟨inner.unnamed, inner.plain⟩
  | shape _ _ _ ih =>
      have inner := ih (Nat.le_refl _) ⟨regular.unnamed, regular.plain⟩
      exact ⟨inner.unnamed, inner.plain⟩
  | @evaluate n c c' t result _ work own ih =>
      have inner := ih start ⟨regular.unnamed, regular.plain⟩
      refine ⟨inner.unnamed, fun u r known plain => ?_⟩
      rcases Check.find?_leave_cases known with ⟨rfl, rfl⟩ | earlier
      · refine own (Bool.eq_false_iff.mpr fun operator => ?_)
        have inside : u.index < c.arena.size := by
          refine Arena.lt_size_of_data (a := c.arena) rfl fun any => ?_
          rw [any] at operator
          cases operator
        have same := work.info_operator start inside operator
        rw [Arena.data, same] at plain
        exact Bool.false_ne_true (plain.symm.trans operator)
      · exact inner.plain u r earlier plain

end Work

/-! ### States on the way -/

namespace Checker

/-- A type that is made of something is there. -/
theorem inside_of_info {c : Checker} {t : TypeId} {info : TypeInfo} (here : c.arena.info t = info)
    (some : info.data ≠ .intrinsic .any) : t.index < c.arena.size :=
  Arena.lt_size_of_data (congrArg TypeInfo.data here) some

/-- Types, keys and symbols that are there stay, and so does what is known of types below `n`. -/
structure Since (n : Nat) (c c' : Checker) : Prop where
  before : c.Before c'
  bindings : c.bindings.Extends c'.bindings
  params : ∀ (s : SymbolId) (ids : List TypeId), c.typeParams[s]? = some ids → c'.typeParams[s]? = some ids
  info : ∀ t : TypeId, t.index < c.arena.size → c'.arena.info t = c.arena.info t
  interned : ∀ (k : InternKey) (t : TypeId),
    c.arena.interned[k]? = some t → c'.arena.interned[k]? = some t
  shapes : ∀ (t : TypeId) (shape : Shape), t.index < n →
    c.shapes.find? t = some shape → c'.shapes.find? t = some shape
  evaluated : ∀ t r : TypeId, t.index < n →
    c.evaluated.find? t = some r → c'.evaluated.find? t = some r

/-- A state in which only types from `n` on are being worked out. -/
structure Ready (n : Nat) (p : Program) (c : Checker) : Prop where
  sound : c.Sound p
  regular : c.Regular
  start : ∀ t : TypeId, t.index < 14 → c.arena.info t = Arena.initial.info t
  base : n ≤ c.arena.size
  evaluating : ∀ t ∈ c.evaluated.running, n ≤ t.index ∧ t.index < c.arena.size
  listing : ∀ t ∈ c.shapes.running, n ≤ t.index ∧ t.index < c.arena.size

namespace Since

variable {n : Nat} {c c' c'' : Checker}

theorem refl (n : Nat) (c : Checker) : Since n c c :=
  ⟨.refl c, .refl _, fun _ _ found => found, fun _ _ => rfl, fun _ _ found => found,
    fun _ _ _ found => found, fun _ _ _ found => found⟩

theorem trans (first : Since n c c') (second : Since n c' c'') : Since n c c'' where
  before := first.before.trans second.before
  bindings := first.bindings.trans second.bindings
  params s ids found := second.params s ids (first.params s ids found)
  info t inside :=
    (second.info t (Nat.lt_of_lt_of_le inside first.before.size)).trans (first.info t inside)
  interned k t found := second.interned k t (first.interned k t found)
  shapes t shape below found := second.shapes t shape below (first.shapes t shape below found)
  evaluated t r below found := second.evaluated t r below (first.evaluated t r below found)

theorem outcome {α : Type} (n : Nat) (m : Check α) (p : Program) (c : Checker) :
    Since n c (m.outcome p c).2 where
  before := m.before p c
  bindings := (m.kept p c).bindings
  params := (m.kept p c).typeParams
  info := (m.kept p c).info
  interned := (m.work p c).interned
  shapes t shape _ := (m.kept p c).shapes.known t shape
  evaluated t r _ := (m.kept p c).evaluated.known t r

theorem data (since : Since n c c') {t : TypeId} (inside : t.index < c.arena.size) :
    c'.arena.data t = c.arena.data t := Arena.data_eq (since.info t inside)

theorem inside (since : Since n c c') {t : TypeId} (inside : t.index < c.arena.size) :
    t.index < c'.arena.size := Nat.lt_of_lt_of_le inside since.before.size

/-- What a type that is there is made of. -/
theorem info_eq (since : Since n c c') {t : TypeId} {info : TypeInfo} (here : c.arena.info t = info)
    (some : info.data ≠ .intrinsic .any) : c'.arena.info t = info :=
  (since.info t (inside_of_info here some)).trans here

end Since

/-- A type that nothing is known about yet. -/
structure Fresh (c : Checker) (t : TypeId) : Prop where
  evaluated : c.evaluated.find? t = none
  shapes : c.shapes.find? t = none
  evaluating : t ∉ c.evaluated.running
  listing : t ∉ c.shapes.running

namespace Ready

variable {n : Nat} {p : Program} {c : Checker}

theorem outcome {α : Type} [Mentions α] {m : Check α} (ready : Ready n p c) (safe : Check.Safe p c m) :
    Ready n p (m.outcome p c).2 where
  sound := (safe.outcome c (.refl c) ready.sound).1
  regular := (m.work p c).regular (Nat.le_refl _) ready.regular
  start t small :=
    ((m.kept p c).info t (Nat.lt_of_lt_of_le small ready.sound.base)).trans (ready.start t small)
  base := Nat.le_trans ready.base (m.kept p c).size
  evaluating t running := by
    rw [(m.kept p c).evaluated.running] at running
    obtain ⟨above, inside⟩ := ready.evaluating t running
    exact ⟨above, Nat.lt_of_lt_of_le inside (m.kept p c).size⟩
  listing t running := by
    rw [(m.kept p c).shapes.running] at running
    obtain ⟨above, inside⟩ := ready.listing t running
    exact ⟨above, Nat.lt_of_lt_of_le inside (m.kept p c).size⟩

/-- The next type to be made is fresh, also after it was made. -/
theorem fresh (ready : Ready n p c) (arena : Arena) :
    Fresh { c with arena } ⟨c.arena.size⟩ := by
  have beyond : ¬ Known c (⟨c.arena.size⟩ : TypeId) := by simp [known_type_iff]
  refine ⟨?_, ?_, fun running => ?_, fun running => ?_⟩
  · refine Option.eq_none_iff_forall_ne_some.mpr fun r found => beyond ?_
    exact (ready.sound.holds.evaluated _ r found).1
  · refine Option.eq_none_iff_forall_ne_some.mpr fun shape found => beyond ?_
    exact (ready.sound.holds.shapes _ shape found).1
  · exact Nat.lt_irrefl _ (ready.evaluating _ running).2
  · exact Nat.lt_irrefl _ (ready.listing _ running).2

theorem started (ready : Ready n p c) : c.Started := ready.sound.started

theorem keywords (ready : Ready n p c) (i : Intrinsic) :
    c.arena.data (Arena.intrinsicId i) = .intrinsic i := by
  have small : (Arena.intrinsicId i).index < 14 := by cases i <;> decide
  have first : Arena.initial.data (Arena.intrinsicId i) = .intrinsic i := by cases i <;> cbv
  exact (Arena.data_eq (ready.start _ small)).trans first

end Ready

end Checker

/-! ### Rules -/

namespace Check

open Checker

variable {α β : Type} {n : Nat} {p : Program} {c c' : Checker}

/-- From `c` on, in every state in which only types from `n` on are being worked out, work leads to
such a state, and its answer and that state are as said. -/
def Ends (n : Nat) (p : Program) (c : Checker) (m : Check α) (post : α → Checker → Prop) : Prop :=
  ∀ c', Since n c c' → Ready n p c' →
    Ready n p (m.outcome p c').2 ∧ post (m.outcome p c').1 (m.outcome p c').2

namespace Ends

variable {m : Check α} {post : α → Checker → Prop}

theorem later (ends : Ends n p c m post) (since : Since n c c') : Ends n p c' m post :=
  fun c'' after => ends c'' (since.trans after)

theorem weaken (ends : Ends n p c m post) {other : α → Checker → Prop}
    (implies : ∀ a c', Since n c c' → post a c' → other a c') : Ends n p c m other := by
  intro c' since ready
  obtain ⟨after, holds⟩ := ends c' since ready
  exact ⟨after, implies _ _ (since.trans (.outcome n m p c')) holds⟩

theorem pure {a : α} (holds : ∀ c', Since n c c' → post a c') : Ends n p c (pure a) post :=
  fun c' since ready => ⟨ready, holds c' since⟩

theorem bind {f : α → Check β} {last : β → Checker → Prop} (first : Ends n p c m post)
    (next : ∀ a c', Since n c c' → Ready n p c' → post a c' → Ends n p c' (f a) last) :
    Ends n p c (m >>= f) last := by
  intro c' since ready
  obtain ⟨after, holds⟩ := first c' since ready
  have here := since.trans (.outcome n m p c')
  exact next _ _ here after holds _ (.refl n _) after

/-- Work on each element of a list, one after the other. -/
theorem mapM {γ : Type} {f : γ → Check α} {list : List γ} {post : γ → α → Checker → Prop}
    (each : ∀ x ∈ list, ∀ c', Since n c c' → Ready n p c' → Ends n p c' (f x) (post x))
    (stays : ∀ x a c₁ c₂, Since n c₁ c₂ → post x a c₁ → post x a c₂) :
    Ends n p c (list.mapM f) fun all c' => List.Forall₂ (post · · c') list all := by
  induction list generalizing c with
  | nil => exact .pure fun _ _ => .nil
  | cons x rest ih =>
      rw [List.mapM_cons]
      refine .bind (fun c' since ready => each x List.mem_cons_self c' since ready c' (.refl n _) ready)
        fun a c₁ since₁ _ holds => ?_
      refine .bind (ih fun y listed c₂ since₂ => each y (List.mem_cons_of_mem _ listed) c₂
        (since₁.trans since₂)) fun all c₂ since₂ _ held => .pure fun c₃ since₃ => .cons ?_ ?_
      · exact stays x a c₁ c₃ (since₂.trans since₃) holds
      · exact held.imp fun y b => stays y b c₂ c₃ since₃

/-- Work that is safe keeps the state ready, and its answer is known. -/
theorem of_safe [Mentions α] (safe : Safe p c m)
    (holds : ∀ c', Since n c c' → Ready n p c' → Known (m.outcome p c').2 (m.outcome p c').1 →
      post (m.outcome p c').1 (m.outcome p c').2) : Ends n p c m post := by
  intro c' since ready
  have before := since.before
  exact ⟨ready.outcome safe_later,
    holds c' since ready (safe.outcome c' since.before ready.sound).2⟩

end Ends

theorem ends_data {t : TypeId} (inside : t.index < c.arena.size) :
    Ends n p c (data t) fun data _ => data = c.arena.data t :=
  fun _ since ready => ⟨ready, since.data inside⟩

/-- A type that is kept once is found for its key. -/
theorem ends_interned (k : InternKey) {m : Check TypeId} [safe : Safe p c m]
    (interns : ∀ c', Since n c c' → m.outcome p c' = ((c'.arena.intern k k.data).1,
      { c' with arena := (c'.arena.intern k k.data).2 })) :
    Ends n p c m fun t c' => c'.arena.interned[k]? = some t := by
  refine .of_safe safe fun c' since _ _ => ?_
  rw [interns c' since]
  exact Arena.interned_intern c'.arena k

theorem ends_stringLiteral (name : String) :
    Ends n p c (stringLiteral name) fun t c' => c'.arena.interned[InternKey.string name]? = some t :=
  ends_interned (.string name) fun _ _ => rfl

/-! ### Questions -/

section

variable {t : TypeId} {m : Check TypeId}
  {plain : ∀ p c, (c.arena.data t).isOperator = false → (m.outcome p c).1 = t}

theorem evaluateOnce_known (free : t ∉ c.evaluated.running) :
    ((evaluateOnce t m plain).outcome p c).2.evaluated.find? t =
      some ((evaluateOnce t m plain).outcome p c).1 :=
  once_known_of_free (·.evaluated) (fun _ _ => rfl) free

theorem evaluateOnce_plain (regular : c.Regular) (own : (c.arena.data t).isOperator = false) :
    ((evaluateOnce t m plain).outcome p c).1 = t := by
  unfold evaluateOnce once
  dsimp only
  split
  · rename_i answer found
    exact regular.plain t answer found own
  · split
    · rfl
    · exact plain p _ own

theorem evaluateOnce_fresh (unknown : c.evaluated.find? t = none) (free : t ∉ c.evaluated.running) :
    let done := m.outcome p { c with evaluated := c.evaluated.enter t }
    (evaluateOnce t m plain).outcome p c =
      (done.1, { done.2 with evaluated := done.2.evaluated.leave t done.1 }) := by
  have idle : c.evaluated.isRunning t = false := by simpa [Memo.isRunning] using free
  simp only [evaluateOnce, once, unknown, idle, Bool.false_eq_true, ↓reduceIte]

end

section

variable {t : TypeId} {m : Check Shape}
  {denotes : ∀ p c, Denotes c.arena (m.outcome p c).2 t (m.outcome p c).1}

theorem shapeOnce_known (free : t ∉ c.shapes.running) :
    ((shapeOnce t m denotes).outcome p c).2.shapes.find? t =
      some ((shapeOnce t m denotes).outcome p c).1 :=
  once_known_of_free (·.shapes) (fun _ _ => rfl) free

theorem shapeOnce_fresh (unknown : c.shapes.find? t = none) (free : t ∉ c.shapes.running) :
    let done := m.outcome p { c with shapes := c.shapes.enter t }
    (shapeOnce t m denotes).outcome p c =
      (done.1, { done.2 with shapes := done.2.shapes.leave t done.1 }) := by
  have idle : c.shapes.isRunning t = false := by simpa [Memo.isRunning] using free
  simp only [shapeOnce, once, unknown, idle, Bool.false_eq_true, ↓reduceIte]

end

section

variable (k : Nat) {t : TypeId}

theorem ask_evaluate : (callsTo (k + 1)).ask (.evaluate t) =
    evaluateOnce t (evaluateData (callsTo k) t) (evaluateData_plain (callsTo k) t) := ask_callsTo k _

theorem ask_shape : (callsTo (k + 1)).ask (.shape t) =
    shapeOnce t (shapeOfData (callsTo k) t) (denotes_shapeOfData (callsTo k) t) := ask_callsTo k _

/-- A type that is no operator stands for itself. -/
theorem ends_evaluate_plain (ready : Ready n p c) (inside : t.index < c.arena.size)
    (plain : (c.arena.data t).isOperator = false) :
    Ends n p c ((callsTo (k + 1)).ask (.evaluate t)) fun r _ => r = t := by
  have := ready.started
  have known : Known c t := known_type_iff.mpr inside
  refine .of_safe inferInstance fun c' since ready _ => ?_
  rw [ask_evaluate]
  exact evaluateOnce_plain ready.regular (by rwa [since.data inside])

/-- An answer that is known is given. -/
theorem ask_evaluate_of_known {r : TypeId} (found : c.evaluated.find? t = some r) :
    ((callsTo (k + 1)).ask (.evaluate t)).outcome p c = (r, c) := by
  rw [ask_evaluate]
  exact once_of_known found

theorem ask_shape_of_known {shape : Shape} (found : c.shapes.find? t = some shape) :
    ((callsTo (k + 1)).ask (.shape t)).outcome p c = (shape, c) := by
  rw [ask_shape]
  exact once_of_known found

/-- What a type below `n` comes to is known from then on. -/
theorem ends_evaluate (ready : Ready n p c) (below : t.index < n) :
    Ends n p c ((callsTo (k + 1)).ask (.evaluate t)) fun r c' => c'.evaluated.find? t = some r := by
  have := ready.started
  have known : Known c t := known_type_iff.mpr (Nat.lt_of_lt_of_le below ready.base)
  refine .of_safe inferInstance fun c' _ ready _ => ?_
  rw [ask_evaluate]
  refine evaluateOnce_known fun running => ?_
  exact Nat.not_le_of_lt below (ready.evaluating t running).1

/-- The members of a type below `n` are known from then on. -/
theorem ends_shape (ready : Ready n p c) (below : t.index < n) :
    Ends n p c ((callsTo (k + 1)).ask (.shape t)) fun shape c' => c'.shapes.find? t = some shape := by
  have := ready.started
  have known : Known c t := known_type_iff.mpr (Nat.lt_of_lt_of_le below ready.base)
  refine .of_safe inferInstance fun c' _ ready _ => ?_
  rw [ask_shape]
  refine shapeOnce_known fun running => ?_
  exact Nat.not_le_of_lt below (ready.listing t running).1

theorem ends_shape_of_known (below : t.index < n) {shape : Shape}
    (found : c.shapes.find? t = some shape) :
    Ends n p c ((callsTo (k + 1)).ask (.shape t)) fun answer _ => answer = shape := by
  intro c' since ready
  rw [ask_shape_of_known k (since.shapes t shape below found)]
  exact ⟨ready, rfl⟩

/-- A fresh type is worked out by its data. What holds at the end of that has to stay when the answer
is put down, which changes nothing below `n`. -/
theorem evaluate_fresh (ready : Ready n p c) (inside : t.index < c.arena.size) (above : n ≤ t.index)
    (unknown : c.evaluated.find? t = none) (free : t ∉ c.evaluated.running)
    {post : TypeId → Checker → Prop} (work : Ends n p c (evaluateData (callsTo k) t) post)
    (stays : ∀ r c' evaluated, Since n c' { c' with evaluated } → post r c' →
      post r { c' with evaluated }) :
    let r := ((callsTo (k + 1)).ask (.evaluate t)).outcome p c
    Ready n p r.2 ∧ post r.1 r.2 := by
  have := ready.started
  have known : Known c t := known_type_iff.mpr inside
  let entered : Checker := { c with evaluated := c.evaluated.enter t }
  let done := (evaluateData (callsTo k) t).outcome p entered
  have enter : Since n c entered := ⟨⟨Nat.le_refl _, fun _ _ h => h⟩, .refl _, fun _ _ h => h,
    fun _ _ => rfl, fun _ _ h => h, fun _ _ _ h => h, fun _ _ _ h => h⟩
  have tabled : Tabled p c entered :=
    tabled_beside ready.sound { ready.sound.holds with } rfl rfl (fun _ => rfl) fun _ => rfl
  have start : Ready n p entered := by
    refine ⟨tabled.sound, ⟨ready.regular.unnamed, ready.regular.plain⟩, ready.start, ready.base, ?_,
      ready.listing⟩
    intro u running
    rcases List.mem_cons.mp running with rfl | before
    · exact ⟨above, inside⟩
    · exact ready.evaluating u before
  have leave : Since n done.2 { done.2 with evaluated := done.2.evaluated.leave t done.1 } := by
    refine ⟨⟨Nat.le_refl _, fun _ _ h => h⟩, .refl _, fun _ _ h => h, fun _ _ => rfl, fun _ _ h => h,
      fun _ _ _ h => h, fun u r below found => ?_⟩
    refine (Memo.find?_leave_other _ _ _ _ fun same => ?_).trans found
    exact Nat.not_le_of_lt below (same ▸ above)
  refine ⟨ready.outcome inferInstance, ?_⟩
  rw [ask_evaluate, evaluateOnce_fresh unknown free]
  exact stays _ _ _ leave (work entered enter start).2

/-- What a type with the given data comes to. -/
def workOut (calls : Calls) (t : TypeId) : TypeData → Check TypeId
  | .keyOf inner => evaluateKeyOf calls t inner
  | .indexedAccess object index => indexedAccess calls t object index
  | .mapped m => evaluateMapped calls t m
  | _ => return t

theorem ends_evaluateData {calls : Calls} {data : TypeData} (here : c.arena.data t = data)
    (operator : data.isOperator = true) {post : TypeId → Checker → Prop}
    (work : Ends n p c (workOut calls t data) post) : Ends n p c (evaluateData calls t) post := by
  intro c' since ready
  have some : data ≠ .intrinsic .any := by
    rintro rfl
    cases operator
  have whole : (evaluateData calls t).outcome p c' = (workOut calls t data).outcome p c' := by
    rw [← here, ← since.data (Arena.lt_size_of_data here some)]
    rfl
  rw [whole]
  exact work c' since ready

/-- An operator without a name is made and worked out. -/
def makeNew (calls : Calls) (data : TypeData) : Check TypeId := do
  let t ← Check.add data
  calls.ask (.evaluate t)

theorem rebuild_operator (calls : Calls) {data : TypeData} (operator : data.isOperator = true) :
    rebuild calls data none = makeNew calls data := by
  cases data with
  | keyOf | indexedAccess | mapped => rfl
  | _ => cases operator

/-- A new operator is worked out by its data. -/
theorem ends_makeNew (start : Ready n p c) {data : TypeData} [Known c data]
    (operator : data.isOperator = true) {post : TypeId → Checker → Prop}
    (stays : ∀ r c₁ c₂, Since n c₁ c₂ → post r c₁ → post r c₂)
    (work : ∀ t c₁, Since n c c₁ → Ready n p c₁ → c₁.arena.info t = ⟨data, none⟩ →
      Ends n p c₁ (workOut (callsTo k) t data) post) :
    Ends n p c (makeNew (callsTo (k + 1)) data) post := by
  have := start.started
  have safe : Safe p c (makeNew (callsTo (k + 1)) data) := .bind fun _ _ _ _ => inferInstance
  refine .of_safe safe fun c' since ready _ => ?_
  have before := since.before
  let t : TypeId := ⟨c'.arena.size⟩
  let made : Checker := { c' with arena := (c'.arena.add data).2 }
  have added : (Check.add data).outcome p c' = (t, made) := rfl
  have first : Ready n p made := ready.outcome (m := Check.add data) inferInstance
  have step : Since n c' made := .outcome n (Check.add data) p c'
  have info : made.arena.info t = ⟨data, none⟩ := Arena.info_addInfo_self _ _
  have inside : t.index < made.arena.size := by
    exact Nat.lt_of_lt_of_eq (Nat.lt_succ_self _) (Arena.size_addInfo _ _).symm
  rw [makeNew, bind_of_outcome added]
  have fresh := ready.fresh made.arena
  exact (evaluate_fresh k first inside ready.base fresh.evaluated fresh.evaluating
    (ends_evaluateData (congrArg TypeInfo.data info) operator
      (work t made (since.trans step) first info)) fun r c₁ _ => stays r c₁ _).2

/-- A new operator that has to wait stays as it is. -/
theorem ends_makeNew_waiting (start : Ready n p c) {data : TypeData} [Known c data]
    (operator : data.isOperator = true)
    (waits : ∀ t c₁, Since n c c₁ → Ready n p c₁ →
      Ends n p c₁ (workOut (callsTo k) t data) fun r _ => r = t) :
    Ends n p c (makeNew (callsTo (k + 1)) data) fun t c' => c'.arena.info t = ⟨data, none⟩ := by
  have some : data ≠ .intrinsic .any := by
    rintro rfl
    cases operator
  refine ends_makeNew k start operator (fun r c₁ c₂ since info => since.info_eq info some)
    fun t c₁ since₁ ready₁ info => ?_
  refine (waits t c₁ since₁ ready₁).weaken fun r c₂ since₂ same => ?_
  rw [same]
  exact since₂.info_eq info some

end

end Check

end ApiDocs
