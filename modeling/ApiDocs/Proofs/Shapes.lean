import Mathlib
import ApiDocs.Checker

set_option autoImplicit false

/-!
The members that are kept for a type are those that its data denotes, unless none were kept. While a
type is being worked out it stands for a type without members, and what is kept on the way may be
just that; nothing else that is wrong is ever kept.
-/

namespace ApiDocs

open Syntax

/-- Members kept for a type are those of the object that it is, or of the symbol that it is an
instance of, where the arguments are the parameters. -/
structure Checker.Backs (c : Checker) (t : TypeId) (kept : Shape) : Prop where
  below : t.index < c.arena.size
  filled : ∀ s, c.arena.info t ≠ .placeholder s
  object : ∀ s, c.arena.data t = .object s → kept = s
  reference : ∀ s args, c.arena.data t = .reference s args → c.structures.find? s = some kept ∨
    ∃ params, params ≠ [] ∧ params ≠ args ∧ c.typeParams[s]? = some params

/-- All members that are kept have something that backs them. -/
def Checker.Settled (c : Checker) : Prop :=
  ∀ t kept, c.shapes.find? t = some kept → kept ≠ {} → c.Backs t kept

namespace Checker.Backs

theorem mono {c c' : Checker} {t : TypeId} {kept : Shape} (backs : c.Backs t kept)
    (size : c.arena.size ≤ c'.arena.size) (info : c'.arena.info t = c.arena.info t)
    (structures : ∀ s x, c.structures.find? s = some x → c'.structures.find? s = some x)
    (typeParams : ∀ (s : SymbolId) (ids : List TypeId),
      c.typeParams[s]? = some ids → c'.typeParams[s]? = some ids) : c'.Backs t kept where
  below := Nat.lt_of_lt_of_le backs.below size
  filled s := info ▸ backs.filled s
  object s data := backs.object s ((Arena.data_eq info).symm.trans data)
  reference s args data := by
    rcases backs.reference s args ((Arena.data_eq info).symm.trans data) with known | other
    · exact Or.inl (structures s kept known)
    · obtain ⟨params, some, differ, known⟩ := other
      exact Or.inr ⟨params, some, differ, typeParams s params known⟩

/-- A place that was filled with a type parameter backs all that is kept for it. -/
theorem setData {c : Checker} {t filled : TypeId} {kept : Shape} (backs : c.Backs t kept)
    (param : TypeParameter) :
    Checker.Backs { c with arena := c.arena.setData filled (.typeParameter param) } t kept := by
  rcases Decidable.em (t = filled) with same | differs
  · subst same
    have data := Arena.data_setData_self c.arena t (.typeParameter param) backs.below
    have other : ∀ d, (c.arena.setData t (.typeParameter param)).data t = d →
        d = .typeParameter param := fun d h => h.symm.trans data
    refine ⟨by rw [Arena.size_setData]; exact backs.below, ?_, ?_, ?_⟩
    · intro s reserved
      cases other _ (congrArg TypeInfo.data reserved)
    · intro s object
      cases other _ object
    · intro s args reference
      cases other _ reference
  · exact backs.mono (Nat.le_of_eq (Arena.size_setData _ _ _).symm)
      (Arena.info_setData_other _ _ _ _ differs) (fun _ _ h => h) (fun _ _ h => h)

end Checker.Backs

/-- What is kept stays backed where places, members and parameters stay as they are. -/
theorem Checker.Settled.mono {c c' : Checker} (settled : c.Settled)
    (shapes : ∀ t, c'.shapes.find? t = c.shapes.find? t) (size : c.arena.size ≤ c'.arena.size)
    (info : ∀ t : TypeId, t.index < c.arena.size → c'.arena.info t = c.arena.info t)
    (structures : ∀ s x, c.structures.find? s = some x → c'.structures.find? s = some x)
    (typeParams : ∀ (s : SymbolId) (ids : List TypeId),
      c.typeParams[s]? = some ids → c'.typeParams[s]? = some ids) : c'.Settled := by
  intro t kept known some
  have backs := settled t kept ((shapes t).symm.trans known) some
  exact backs.mono size (info t backs.below) structures typeParams

/-- Members that were found and are not none are backed by what they were found from. -/
theorem Denotes.backs {c c' : Checker} {t : TypeId} {found : Shape}
    (denotes : Denotes c.arena c' t found) (kept : Checker.Extends c.arena.size c c')
    (some : found ≠ {}) : c'.Backs t found := by
  have below : t.index < c.arena.size := Nat.lt_of_not_le fun outside => some (denotes.missing outside)
  have info := kept.info t below
  refine ⟨Nat.lt_of_lt_of_le below kept.size, ?_, ?_, ?_⟩
  · intro s reserved
    exact some (denotes.placeholder s (info.symm.trans reserved))
  · intro s data
    exact denotes.object s ((Arena.data_eq info).symm.trans data)
  · intro s args data
    rcases denotes.reference s args ((Arena.data_eq info).symm.trans data) with none | known
    · exact absurd none some
    · exact known

namespace Work

/-- The members of a symbol do not become known while they are being worked out. -/
theorem find?_of_running {n : Nat} {c c' : Checker} {s : SymbolId} (work : Work n c c')
    (running : s ∈ c.structures.running) (unknown : c.structures.find? s = none) :
    s ∈ c'.structures.running ∧ c'.structures.find? s = none := by
  induction work with
  | trans _ _ first second =>
      obtain ⟨running, unknown⟩ := first running unknown
      exact second running unknown
  | @members n c c' other _ free _ shape inner =>
      have differs : s ≠ other := fun same => free (same ▸ running)
      obtain ⟨running, unknown⟩ := inner (List.mem_cons_of_mem _ running) unknown
      exact ⟨(List.mem_erase_of_ne differs).mpr running,
        (Memo.find?_leave_other _ _ _ _ differs).trans unknown⟩
  | refl | types | symbols | fillAlias | fillParam | params | giveUp => exact ⟨running, unknown⟩
  | declare _ _ _ inner | body _ inner | value _ _ _ inner | shape _ _ _ inner
  | evaluate _ _ _ inner | element _ _ _ inner => exact inner running unknown

/-- Work keeps only members that are backed, or none. -/
theorem settled {n : Nat} {c c' : Checker} (work : Work n c c') (start : c.Settled) :
    c'.Settled := by
  induction work with
  | refl => exact start
  | trans _ _ first second => exact second (first start)
  | types grown =>
      exact start.mono (fun _ => rfl) grown.size grown.info (fun _ _ h => h) (fun _ _ h => h)
  | symbols | giveUp =>
      exact start.mono (fun _ => rfl) (Nat.le_refl _) (fun _ _ => rfl) (fun _ _ h => h)
        (fun _ _ h => h)
  | @fillAlias n c filled s _ reserved info =>
      intro t kept known some
      have backs := start t kept known some
      have differs : t ≠ filled := by
        intro same
        exact backs.filled s (same ▸ reserved)
      exact backs.mono (Nat.le_of_eq (Arena.size_set _ _ _).symm)
        (Arena.info_set_other _ _ _ _ differs) (fun _ _ h => h) (fun _ _ h => h)
  | fillParam _ _ param =>
      intro t kept known some
      exact (start t kept known some).setData param
  | params unknown ids =>
      exact start.mono (fun _ => rfl) (Nat.le_refl _) (fun _ _ => rfl) (fun _ _ h => h)
        fun _ _ h => getElem?_insert_of_unknown unknown h h ids
  | @members n c c' s unknown free work shape inner =>
      have entered : Checker.Settled { c with structures := c.structures.enter s } :=
        start.mono (fun _ => rfl) (Nat.le_refl _) (fun _ _ => rfl) (fun _ _ h => h) (fun _ _ h => h)
      have absent := (work.find?_of_running List.mem_cons_self unknown).2
      refine (inner entered).mono (fun _ => rfl) (Nat.le_refl _) (fun _ _ => rfl) ?_ (fun _ _ h => h)
      intro other x found
      refine (Memo.find?_leave_other _ _ _ _ ?_).trans found
      intro same
      rw [same, absent] at found
      cases found
  | @shape n c c' t found unknown work denotes inner =>
      have entered : Checker.Settled { c with shapes := c.shapes.enter t } :=
        start.mono (fun _ => rfl) (Nat.le_refl _) (fun _ _ => rfl) (fun _ _ h => h) (fun _ _ h => h)
      have after := inner entered
      have extended := work.extends (Nat.le_refl _)
      intro other kept known some
      rcases Decidable.em (other = t) with same | differs
      · subst same
        rw [Memo.find?_leave_self, Option.some.injEq] at known
        subst known
        have backs := Denotes.backs (c := { c with shapes := c.shapes.enter other }) denotes extended some
        exact backs.mono (Nat.le_refl _) rfl (fun _ _ h => h) (fun _ _ h => h)
      · have earlier := (Memo.find?_leave_other _ _ _ _ differs).symm.trans known
        exact (after other kept earlier some).mono (Nat.le_refl _) rfl
          (fun _ _ h => h) (fun _ _ h => h)
  | declare _ _ _ inner | body _ inner | value _ _ _ inner | evaluate _ _ _ inner
  | element _ _ _ inner =>
      have after := inner (start.mono (fun _ => rfl) (Nat.le_refl _) (fun _ _ => rfl)
        (fun _ _ h => h) (fun _ _ h => h))
      exact after.mono (fun _ => rfl) (Nat.le_refl _) (fun _ _ => rfl) (fun _ _ h => h)
        (fun _ _ h => h)

end Work

/-! ### Asking again -/

namespace Checker

theorem structure_of_known (n : Nat) {s : SymbolId} {p : Program} {c : Checker} {members : Shape}
    (known : c.structures.find? s = some members) :
    ((callsTo (n + 1)).ask (.structure_ s)).outcome p c = (members, c) := by
  rw [ask_callsTo]
  simp only [step, structureOf, Check.structureOnce, Check.once, known]

theorem typeParams_of_known (n : Nat) {s : SymbolId} {p : Program} {c : Checker}
    {ids : List TypeId} (known : c.typeParams[s]? = some ids) :
    ((callsTo (n + 1)).ask (.typeParams s)).outcome p c = (ids, c) := by
  rw [ask_callsTo]
  simp only [step, typeParamsOf, Check.outcome_bind, Check.outcome_state, known]
  rfl

/-- Where nothing is being worked out, the members of a symbol are known once they were asked for. -/
theorem structure_known_of_idle (n : Nat) {s : SymbolId} (p : Program) {c : Checker}
    (idle : c.structures.running = []) :
    let r := ((callsTo (n + 1)).ask (.structure_ s)).outcome p c
    r.2.structures.find? s = some r.1 := by
  rcases structureOf_known (callsTo n) s p c with ⟨running, _⟩ | known
  · rw [idle] at running
    cases running
  · exact known

/-- An instance whose arguments are the parameters has the members of its symbol. -/
theorem instanceShape_own (n : Nat) {s : SymbolId} {args : List TypeId} (p : Program) {c : Checker}
    (idle : c.structures.running = []) (own : c.typeParams[s]? = some args) :
    let r := (instanceShape (callsTo (n + 1)) s args).outcome p c
    r.2.structures.find? s = some r.1 := by
  have known := structure_known_of_idle n (s := s) p idle
  have kept := ((callsTo (n + 1)).ask (.structure_ s)).kept p c
  have params := typeParams_of_known n (p := p) (kept.typeParams s args own)
  unfold instanceShape
  simp only [Check.outcome_bind, params, decide_true, Bool.or_true, ↓reduceIte, Check.outcome_pure]
  exact known

/-- The members of a type: those that are kept, or else those that its data denotes. -/
theorem shapeOf_cases (calls : Calls) (t : TypeId) (p : Program) (c : Checker)
    (idle : c.shapes.running = []) :
    let r := (shapeOf calls t).outcome p c
    (∃ kept, c.shapes.find? t = some kept ∧ r = (kept, c)) ∨
    (c.shapes.find? t = none ∧
      let found := (shapeOfData calls t).outcome p { c with shapes := c.shapes.enter t }
      r.1 = found.1 ∧ r.2.structures = found.2.structures) := by
  dsimp only [shapeOf, Check.shapeOnce, Check.once]
  cases known : c.shapes.find? t with
  | some kept => exact Or.inl ⟨kept, rfl, rfl⟩
  | none =>
      have free : c.shapes.isRunning t = false := by simp [Memo.isRunning, idle]
      refine Or.inr ⟨rfl, ?_⟩
      simp only [free, Bool.false_eq_true, ↓reduceIte, and_self]

end Checker

/-- What the rest of the library asks a checker. -/
inductive Question where
  | declaredType (s : SymbolId)
  | valueType (s : SymbolId)
  | evaluate (t : TypeId)
  | members (t : TypeId)
  | member (t : TypeId) (name : String)
  | callSignatures (t : TypeId)
  | constructSignatures (t : TypeId)
  | stringIndex (t : TypeId)

/-- Asks a question; the answer is kept in the state. -/
def Question.ask : Question → Check Unit
  | .declaredType s => do let _ ← Check.declaredType s
  | .valueType s => do let _ ← Check.valueType s
  | .evaluate t => do let _ ← Check.evaluate t
  | .members t => do let _ ← Check.members t
  | .member t name => do let _ ← Check.member? t name
  | .callSignatures t => do let _ ← Check.callSignatures t
  | .constructSignatures t => do let _ ← Check.constructSignatures t
  | .stringIndex t => do let _ ← Check.stringIndex? t

namespace Checker

/-- The checker of a program after questions. -/
def after (p : Program) (questions : List Question) : Checker :=
  ((questions.forM Question.ask).outcome p (ofProgram p)).2

/-- No members were kept for a type that denotes some. -/
def Stale (c : Checker) (t : TypeId) (denoted : Shape) : Prop :=
  c.shapes.find? t = some {} ∧ denoted ≠ {}

theorem settled_ofProgram (p : Program) : (ofProgram p).Settled := by
  intro t kept known
  have unknown : (ofProgram p).shapes.find? t = none := Std.HashMap.getElem?_empty
  rw [unknown] at known
  cases known

theorem settled_after (p : Program) (questions : List Question) : (after p questions).Settled :=
  ((questions.forM Question.ask).work p _).settled (settled_ofProgram p)

theorem idle_after (p : Program) (questions : List Question) :
    (after p questions).shapes.running = [] ∧ (after p questions).structures.running = [] :=
  have kept := (questions.forM Question.ask).kept p (ofProgram p)
  ⟨kept.shapes.running, kept.structures.running⟩

theorem shape_object (n : Nat) {t : TypeId} {s : Shape} (p : Program) {c : Checker}
    (idle : c.shapes.running = []) (settled : c.Settled) (data : c.arena.data t = .object s) :
    ((shapeOf (callsTo n) t).outcome p c).1 = s ↔ ¬ c.Stale t s := by
  rcases shapeOf_cases (callsTo n) t p c idle with ⟨kept, known, result⟩ | ⟨unknown, found, _⟩
  · rw [result]
    rcases Decidable.em (kept = {}) with none | some
    · subst none
      simp [Stale, known, eq_comm]
    · have same := (settled t kept known some).object s data
      subst same
      simp [Stale, known]
  · have own := (denotes_shapeOfData (callsTo n) t p { c with shapes := c.shapes.enter t }).object s data
    rw [found, own]
    simp [Stale, unknown]

theorem shape_reference (n m : Nat) {t : TypeId} {s : SymbolId} {args : List TypeId} (p : Program)
    {c : Checker} (idle : c.shapes.running = [] ∧ c.structures.running = []) (settled : c.Settled)
    (data : c.arena.data t = .reference s args) (own : c.typeParams[s]? = some args) :
    let r := (shapeOf (callsTo (n + 1)) t).outcome p c
    let members := (((callsTo (m + 1)).ask (.structure_ s)).outcome p r.2).1
    r.1 = members ↔ ¬ c.Stale t members := by
  dsimp only
  rcases shapeOf_cases (callsTo (n + 1)) t p c idle.1 with
    ⟨kept, known, result⟩ | ⟨unknown, found, structures⟩
  · rw [result]
    rcases Decidable.em (kept = {}) with none | some
    · subst none
      simp [Stale, known, eq_comm]
    · rcases (settled t kept known some).reference s args data with recorded | ⟨params, _, differ, other⟩
      · rw [structure_of_known m recorded]
        simp [Stale, known, some]
      · rw [own, Option.some.injEq] at other
        exact absurd other.symm differ
  · have recorded : ((shapeOf (callsTo (n + 1)) t).outcome p c).2.structures.find? s =
        some ((shapeOf (callsTo (n + 1)) t).outcome p c).1 := by
      rw [structures, found]
      unfold shapeOfData
      simp only [Check.outcome_bind, Check.outcome_data, data]
      exact instanceShape_own n p idle.2 own
    rw [structure_of_known m recorded]
    simp [Stale, unknown]

/-- After any questions, asking for the members of a type gives those that its data denotes, unless
none were kept for it: those of an object are its own, and those of an instance of a symbol by its
own type parameters are those of the symbol. -/
theorem shape_eq_denoted_iff (p : Program) (questions : List Question) (t : TypeId) :
    let c := after p questions
    let r := (Check.shape t).outcome p c
    (∀ s, c.arena.data t = .object s → (r.1 = s ↔ ¬ c.Stale t s)) ∧
    ∀ s args, c.arena.data t = .reference s args → c.typeParams[s]? = some args →
      let members := ((calls.ask (.structure_ s)).outcome p r.2).1
      (r.1 = members ↔ ¬ c.Stale t members) := by
  have idle := idle_after p questions
  have settled := settled_after p questions
  obtain ⟨n, deep⟩ := calls_deep
  have asked : Check.shape t = shapeOf (callsTo (n + 1)) t := by
    unfold Check.shape
    rw [deep, ask_callsTo]
    rfl
  dsimp only
  rw [asked, deep]
  refine ⟨fun s data => ?_, fun s args data own => ?_⟩
  · exact shape_object (n + 1) p idle.1 settled data
  · exact shape_reference n (n + 1) p idle settled data own

/-- An alias `A` for an object whose member `y` has the type of its member `x`, and an interface
`B`. -/
def selfIndexed : Program :=
  let number : TypeExpr := .intrinsic .number
  let ownX : TypeExpr := .indexed (.reference (.ident "A") []) (.stringLiteral "x")
  let indexed : Decl := .typeAlias ⟨"A", [],
    .members [.property "x" (some number) false false {}, .property "y" (some ownX) false false {}]⟩
  let plain : Decl := .interface ⟨"B", [], [], [.property "b" (some number) false false {}]⟩
  let item (decl : Decl) : Item := ⟨0, 0, none, {}, .exportDecl decl⟩
  { files := #[⟨⟨"/a.ts", #[], [item indexed, item plain]⟩, "/a.ts", true⟩] }

/-- The members that the alias of `selfIndexed` is written with. -/
def selfIndexedMembers : Shape :=
  { members := [⟨"x", Arena.intrinsicId .number, false, false, ""⟩, ⟨"y", Arena.anyId, false, false, ""⟩] }

set_option maxRecDepth 20000 in
theorem selfIndexed_iff :
    let c := after selfIndexed [.declaredType ⟨0⟩, .declaredType ⟨1⟩]
    let own := (Check.shape ⟨14⟩).outcome selfIndexed c
    let other := (Check.shape ⟨18⟩).outcome selfIndexed c
    let members := ((calls.ask (.structure_ ⟨1⟩)).outcome selfIndexed other.2).1
    (c.arena.data ⟨14⟩ = .object selfIndexedMembers ∧
      (own.1 = selfIndexedMembers ↔ ¬ c.Stale ⟨14⟩ selfIndexedMembers)) ∧
    (c.arena.data ⟨18⟩ = .reference ⟨1⟩ [] ∧ c.typeParams[(⟨1⟩ : SymbolId)]? = some [] ∧
      (other.1 = members ↔ ¬ c.Stale ⟨18⟩ members)) := by
  have indexed : (after selfIndexed [.declaredType ⟨0⟩, .declaredType ⟨1⟩]).arena.data ⟨14⟩ =
      .object selfIndexedMembers := by cbv
  have plain : (after selfIndexed [.declaredType ⟨0⟩, .declaredType ⟨1⟩]).arena.data ⟨18⟩ =
      .reference ⟨1⟩ [] := by cbv
  have params : (after selfIndexed [.declaredType ⟨0⟩, .declaredType ⟨1⟩]).typeParams[
      (⟨1⟩ : SymbolId)]? = some [] := by cbv
  exact ⟨⟨indexed, (shape_eq_denoted_iff selfIndexed _ ⟨14⟩).1 _ indexed⟩,
    plain, params, (shape_eq_denoted_iff selfIndexed _ ⟨18⟩).2 _ _ plain params⟩

set_option maxRecDepth 20000 in
/-- The body of the alias asks for the members of the alias while it is being read. None are kept for
it then, and none are found later, although it stands for an object with two. -/
theorem selfIndexed_members_lost :
    let c := after selfIndexed [.declaredType ⟨0⟩]
    c.arena.data ⟨14⟩ = .object selfIndexedMembers ∧
      ((Check.shape ⟨14⟩).outcome selfIndexed c).1 = {} ∧ selfIndexedMembers ≠ {} := by
  refine ⟨?_, ?_, by decide⟩
  · cbv
  · cbv

end Checker

end ApiDocs
