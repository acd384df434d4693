import ApiDocs.Checker

set_option autoImplicit false

/-!
Work that is cut short. A piece of work truncates another if it does the same unless it gives a
question up on the way. The rules below say how work that is put together from parts truncates work
of the same form if its parts do.
-/

namespace ApiDocs.Check

open Checker

variable {α β : Type}

/-- The first does what the second does, unless it gives a question up. -/
class Truncates (m m' : Check α) : Prop where
  same : ∀ p c, (m.outcome p c).2.gaveUp = false → m'.outcome p c = m.outcome p c

/-- Where nothing was given up by the end, nothing was at the start. -/
theorem gaveUp_start (m : Check α) {p : Program} {c : Checker}
    (done : (m.outcome p c).2.gaveUp = false) : c.gaveUp = false :=
  Bool.eq_false_iff.mpr fun before => Bool.eq_false_iff.mp done ((m.kept p c).gaveUp before)

theorem truncates_refl (m : Check α) : Truncates m m := ⟨fun _ _ _ => rfl⟩

theorem Truncates.bind {m m' : Check α} {f f' : α → Check β} [first : Truncates m m']
    (next : ∀ a, Truncates (f a) (f' a)) : Truncates (m >>= f) (m' >>= f') := by
  refine ⟨fun p c done => ?_⟩
  rw [outcome_bind] at done
  rw [outcome_bind, outcome_bind, first.same p c (gaveUp_start _ done)]
  exact (next _).same p _ done

/-- What starts with the same work goes on from the same answer. -/
theorem Truncates.after {m : Check α} {f f' : α → Check β} (next : ∀ a, Truncates (f a) (f' a)) :
    Truncates (m >>= f) (m >>= f') := @Truncates.bind _ _ m m f f' (truncates_refl m) next

instance truncates_pure {a : α} : Truncates (pure a) (pure a) := truncates_refl _

instance truncates_bind {m m' : Check α} {f f' : α → Check β} [Truncates m m']
    [∀ a, Truncates (f a) (f' a)] : Truncates (m >>= f) (m' >>= f') := .bind inferInstance

instance truncates_map {m m' : Check α} {f : α → β} [Truncates m m'] :
    Truncates (f <$> m) (f <$> m') := by
  rw [← bind_pure_comp, ← bind_pure_comp]
  infer_instance

instance truncates_ite {condition : Prop} [Decidable condition] {m m' n n' : Check α}
    [yes : Truncates m m'] [no : Truncates n n'] :
    Truncates (if condition then m else n) (if condition then m' else n') := by
  split
  · exact yes
  · exact no

instance truncates_foldlM {f f' : β → α → Check β} {list : List α} {b : β}
    [round : ∀ b x, Truncates (f b x) (f' b x)] : Truncates (list.foldlM f b) (list.foldlM f' b) := by
  induction list generalizing b with
  | nil => exact truncates_pure
  | cons x rest ih =>
      rw [List.foldlM_cons, List.foldlM_cons]
      exact .bind fun b => ih

instance truncates_mapM {f f' : α → Check β} {list : List α} [each : ∀ x, Truncates (f x) (f' x)] :
    Truncates (list.mapM f) (list.mapM f') := by
  induction list with
  | nil => exact truncates_pure
  | cons x rest ih =>
      rw [List.mapM_cons, List.mapM_cons]
      infer_instance

instance truncates_filterMapM {f f' : α → Check (Option β)} {list : List α}
    [each : ∀ x, Truncates (f x) (f' x)] : Truncates (list.filterMapM f) (list.filterMapM f') := by
  induction list with
  | nil =>
      rw [List.filterMapM_nil, List.filterMapM_nil]
      exact truncates_pure
  | cons x rest ih =>
      rw [List.filterMapM_cons, List.filterMapM_cons]
      refine .bind fun found => ?_
      cases found with
      | none => exact ih
      | some b => infer_instance

instance truncates_mapM_option {f f' : α → Check β} {o : Option α}
    [each : ∀ x, Truncates (f x) (f' x)] : Truncates (o.mapM f) (o.mapM f') := by
  cases o with
  | none => exact truncates_pure
  | some x => exact truncates_map

/-! ### Answers that are kept -/

/-- What is noted when an answer is found has nothing to do with giving up. -/
theorem truncates_once {κ : Type} [BEq κ] [Hashable κ] {memo : Checker → Memo κ α}
    {withMemo : Checker → Memo κ α → Checker} {k : κ} {meanwhile : α} {m m' : Check α}
    {bracket : ∀ p c, (memo c).find? k = none → (memo c).isRunning k = false →
      let r := m.outcome p (withMemo c ((memo c).enter k))
      Work c.arena.size c (withMemo r.2 ((memo r.2).leave k r.1))}
    {bracket' : ∀ p c, (memo c).find? k = none → (memo c).isRunning k = false →
      let r := m'.outcome p (withMemo c ((memo c).enter k))
      Work c.arena.size c (withMemo r.2 ((memo r.2).leave k r.1))}
    (apart : ∀ c memo, (withMemo c memo).gaveUp = c.gaveUp) [work : Truncates m m'] :
    Truncates (once memo withMemo k meanwhile m bracket)
      (once memo withMemo k meanwhile m' bracket') := by
  refine ⟨fun p c done => ?_⟩
  unfold once at done ⊢
  dsimp only at done ⊢
  split
  · rfl
  · rename_i unknown
    split
    · rfl
    · rename_i free
      simp only [unknown, free, Bool.false_eq_true, if_false, apart] at done
      exact congrArg (fun r : α × Checker => (r.1, withMemo r.2 ((memo r.2).leave k r.1)))
        (work.same p _ done)

instance truncates_valueOnce {s : SymbolId} {m m' : Check TypeId} [Truncates m m'] :
    Truncates (valueOnce s m) (valueOnce s m') := truncates_once fun _ _ => rfl

instance truncates_structureOnce {s : SymbolId} {m m' : Check Shape} [Truncates m m'] :
    Truncates (structureOnce s m) (structureOnce s m') := truncates_once fun _ _ => rfl

instance truncates_shapeOnce {t : TypeId} {m m' : Check Shape}
    {denotes : ∀ p c, Denotes c.arena (m.outcome p c).2 t (m.outcome p c).1}
    {denotes' : ∀ p c, Denotes c.arena (m'.outcome p c).2 t (m'.outcome p c).1} [Truncates m m'] :
    Truncates (shapeOnce t m denotes) (shapeOnce t m' denotes') := truncates_once fun _ _ => rfl

instance truncates_evaluateOnce {t : TypeId} {m m' : Check TypeId}
    {plain : ∀ p c, (c.arena.data t).isOperator = false → (m.outcome p c).1 = t}
    {plain' : ∀ p c, (c.arena.data t).isOperator = false → (m'.outcome p c).1 = t} [Truncates m m'] :
    Truncates (evaluateOnce t m plain) (evaluateOnce t m' plain') := truncates_once fun _ _ => rfl

instance truncates_elementOnce {m m' : Check (Option TypeId)} [work : Truncates m m'] :
    Truncates (elementOnce m) (elementOnce m') := by
  refine ⟨fun p c done => ?_⟩
  unfold elementOnce at done ⊢
  dsimp only at done ⊢
  split
  · rfl
  · rename_i unknown
    simp only [unknown] at done
    exact congrArg (fun r : _ × Checker => (r.1, { r.2 with elementType := some r.1 }))
      (work.same p c done)

/-! ### Declared types -/

instance truncates_declareAs {s : SymbolId} {m m' : Check TypeId} [work : Truncates m m'] :
    Truncates (declareAs s m) (declareAs s m') := by
  refine ⟨fun p c done => ?_⟩
  unfold declareAs at done ⊢
  dsimp only at done ⊢
  split
  · rfl
  · rename_i unknown
    simp only [unknown] at done
    exact congrArg (fun r : _ × Checker => (r.1, { r.2 with declared := r.2.declared.insert s r.1 }))
      (work.same p c done)

instance truncates_declareAlias {s : SymbolId} {body body' : TypeId → Check (TypeInfo × TypeId)}
    [work : ∀ t, Truncates (body t) (body' t)] :
    Truncates (declareAlias s body) (declareAlias s body') := by
  refine ⟨fun p c done => ?_⟩
  unfold declareAlias at done ⊢
  dsimp only at done ⊢
  split
  · rfl
  · rename_i unknown
    simp only [unknown] at done
    exact congrArg (fun r : (TypeInfo × TypeId) × Checker => (r.1.2, { r.2 with
        arena := r.2.arena.set ⟨c.arena.size⟩ r.1.1
        declared := r.2.declared.insert s r.1.2 })) ((work _).same p _ done)

instance truncates_readingBody {s : SymbolId} {m m' : Check α} [work : Truncates m m'] :
    Truncates (readingBody s m) (readingBody s m') := by
  refine ⟨fun p c done => ?_⟩
  unfold readingBody at done ⊢
  dsimp only at done ⊢
  exact congrArg (fun r : α × Checker => (r.1, { r.2 with declaring := r.2.declaring.erase s }))
    (work.same p _ done)

/-! ### Type parameters -/

theorem fillParams_eq {describe describe' : α → Check TypeParameter}
    [work : ∀ x, Truncates (describe x) (describe' x)] {p : Program} {places : List (α × TypeId)}
    {c : Checker} (done : (fillParams describe p places c).gaveUp = false) :
    c.gaveUp = false ∧ fillParams describe' p places c = fillParams describe p places c := by
  induction places generalizing c with
  | nil => exact ⟨done, rfl⟩
  | cons place rest ih =>
      obtain ⟨x, id⟩ := place
      let next (r : TypeParameter × Checker) : Checker :=
        { r.2 with arena := r.2.arena.setData id (.typeParameter r.1) }
      obtain ⟨here, later⟩ := ih (c := next ((describe x).outcome p c)) done
      have same := (work x).same p c here
      refine ⟨gaveUp_start _ here, Eq.trans ?_ later⟩
      change fillParams describe' p rest (next ((describe' x).outcome p c)) = _
      rw [same]

instance truncates_declareParams {params : List Syntax.TypeParam}
    {remember : List TypeId → Check Unit}
    {describe describe' : List TypeId → Syntax.TypeParam → Check TypeParameter}
    [work : ∀ ids x, Truncates (describe ids x) (describe' ids x)] :
    Truncates (declareParams params remember describe) (declareParams params remember describe') := by
  refine ⟨fun p c done => ?_⟩
  unfold declareParams at done ⊢
  dsimp only at done ⊢
  rw [(fillParams_eq done).2]

end ApiDocs.Check
