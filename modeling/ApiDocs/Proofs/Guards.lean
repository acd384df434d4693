import ApiDocs.Proofs.Repeat

set_option autoImplicit false

/-!
What is being worked out. Five kinds of questions are marked while they are worked out. A mark is set
only where it is not set yet, so that taking it away again leaves the marks as they were; a question
that is asked again meanwhile is answered at once and touches no mark. Whatever work is done, the
marks are the same afterwards, and none is left when nothing is asked any more.
-/

namespace ApiDocs

/-- A question that is being worked out. -/
inductive Mark where
  /-- The body of an alias is being read. -/
  | declaring (s : SymbolId)
  /-- The type of a value is being found. -/
  | resolving (s : SymbolId)
  /-- The members of an interface or class are being put together. -/
  | building (s : SymbolId)
  /-- The apparent members of a type are being found. -/
  | shaping (t : TypeId)
  | evaluating (t : TypeId)
deriving Repr, DecidableEq

namespace Checker

/-- The marks that are set. -/
def marks (c : Checker) : Finset Mark :=
  c.declaring.toFinset.image .declaring ∪ c.values.running.toFinset.image .resolving ∪
    c.structures.running.toFinset.image .building ∪ c.shapes.running.toFinset.image .shaping ∪
    c.evaluated.running.toFinset.image .evaluating

/-- Sets a mark. -/
def enter (c : Checker) : Mark → Checker
  | .declaring s => { c with declaring := s :: c.declaring }
  | .resolving s => { c with values := c.values.enter s }
  | .building s => { c with structures := c.structures.enter s }
  | .shaping t => { c with shapes := c.shapes.enter t }
  | .evaluating t => { c with evaluated := c.evaluated.enter t }

/-- Takes a mark away. -/
def leave (c : Checker) : Mark → Checker
  | .declaring s => { c with declaring := c.declaring.erase s }
  | .resolving s => { c with values := { c.values with running := c.values.running.erase s } }
  | .building s =>
      { c with structures := { c.structures with running := c.structures.running.erase s } }
  | .shaping t => { c with shapes := { c.shapes with running := c.shapes.running.erase t } }
  | .evaluating t =>
      { c with evaluated := { c.evaluated with running := c.evaluated.running.erase t } }

section

variable {c : Checker} {s : SymbolId} {t : TypeId}

@[simp] theorem declaring_mem_marks : .declaring s ∈ c.marks ↔ s ∈ c.declaring := by simp [marks]

@[simp] theorem resolving_mem_marks : .resolving s ∈ c.marks ↔ s ∈ c.values.running := by
  simp [marks]

@[simp] theorem building_mem_marks : .building s ∈ c.marks ↔ s ∈ c.structures.running := by
  simp [marks]

@[simp] theorem shaping_mem_marks : .shaping t ∈ c.marks ↔ t ∈ c.shapes.running := by simp [marks]

@[simp] theorem evaluating_mem_marks : .evaluating t ∈ c.marks ↔ t ∈ c.evaluated.running := by
  simp [marks]

end

/-- Setting a mark is putting it into the set. -/
theorem marks_enter (c : Checker) (m : Mark) : (c.enter m).marks = insert m c.marks := by
  ext other
  cases m <;> cases other <;> simp [enter, Memo.enter]

/-! ### States in which each mark is set once -/

/-- Each mark is set once, and an alias whose body is being read stands for a type already. -/
structure Ordered (c : Checker) : Prop where
  declaring : c.declaring.Nodup
  reserved : ∀ s ∈ c.declaring, ∃ t, c.declared[s]? = some t
  resolving : c.values.running.Nodup
  building : c.structures.running.Nodup
  shaping : c.shapes.running.Nodup
  evaluating : c.evaluated.running.Nodup

theorem ordered_ofProgram (p : Program) : (ofProgram p).Ordered :=
  ⟨.nil, nofun, .nil, .nil, .nil, .nil⟩

/-- Taking a mark away is taking it out of the set. -/
theorem Ordered.marks_leave {c : Checker} (ordered : c.Ordered) (m : Mark) :
    (c.leave m).marks = c.marks.erase m := by
  ext other
  cases m <;> cases other <;>
    simp [leave, ordered.declaring.mem_erase_iff, ordered.resolving.mem_erase_iff,
      ordered.building.mem_erase_iff, ordered.shaping.mem_erase_iff,
      ordered.evaluating.mem_erase_iff]

section

variable {n : Nat} {c c' : Checker} (kept : Checker.Extends n c c')

include kept

/-- Work leaves the marks as they are. -/
theorem Extends.marks : c'.marks = c.marks := by
  simp only [Checker.marks, kept.declaring, kept.values.running, kept.structures.running,
    kept.shapes.running, kept.evaluated.running]

theorem Extends.ordered (ordered : c.Ordered) : c'.Ordered where
  declaring := kept.declaring ▸ ordered.declaring
  reserved s reading := by
    rw [kept.declaring] at reading
    obtain ⟨t, known⟩ := ordered.reserved s reading
    exact ⟨t, kept.declared s t known⟩
  resolving := kept.values.running ▸ ordered.resolving
  building := kept.structures.running ▸ ordered.building
  shaping := kept.shapes.running ▸ ordered.shaping
  evaluating := kept.evaluated.running ▸ ordered.evaluating

end

/-! ### States of a run -/

/-- The work on a question starts in a state `c`: it is marked in the state `d`, which for the body
of an alias is the one after a place was reserved for it and its type parameters were read. -/
inductive Starts (p : Program) (c : Checker) : Mark → Checker → Prop where
  | declaring {α : Type} {s : SymbolId} (unknown : c.declared[s]? = none) (before : Check α) :
      Starts p c (.declaring s) (before.outcome p (Check.reserving s c)).2
  | resolving {s : SymbolId} (unknown : c.values.find? s = none)
      (free : c.values.isRunning s = false) : Starts p c (.resolving s) c
  | building {s : SymbolId} (unknown : c.structures.find? s = none)
      (free : c.structures.isRunning s = false) : Starts p c (.building s) c
  | shaping {t : TypeId} (unknown : c.shapes.find? t = none)
      (free : c.shapes.isRunning t = false) : Starts p c (.shaping t) c
  | evaluating {t : TypeId} (unknown : c.evaluated.find? t = none)
      (free : c.evaluated.isRunning t = false) : Starts p c (.evaluating t) c

/-- The states that a run goes through: any work may be done, questions are marked when their work
starts, a place is reserved for an alias, and places are filled. -/
inductive Midway (p : Program) : Checker → Prop where
  | start : Midway p (ofProgram p)
  | work {α : Type} {c : Checker} (before : Midway p c) (m : Check α) : Midway p (m.outcome p c).2
  | enter {c d : Checker} {m : Mark} (before : Midway p c) (starts : Starts p c m d) :
      Midway p (d.enter m)
  | reserve {c : Checker} {s : SymbolId} (before : Midway p c) (unknown : c.declared[s]? = none) :
      Midway p (Check.reserving s c)
  | fill {c : Checker} (before : Midway p c) (arena : Arena) : Midway p { c with arena }

theorem Ordered.reserving {c : Checker} (ordered : c.Ordered) (s : SymbolId) :
    (Check.reserving s c).Ordered where
  declaring := ordered.declaring
  reserved other reading := by
    obtain ⟨t, known⟩ := ordered.reserved other reading
    simp only [Check.reserving, Std.HashMap.getElem?_insert]
    split
    · exact ⟨_, rfl⟩
    · exact ⟨t, known⟩
  resolving := ordered.resolving
  building := ordered.building
  shaping := ordered.shaping
  evaluating := ordered.evaluating

section

variable {p : Program} {c d : Checker} {m : Mark}

/-- Where work starts on a question, the same marks are set as before, each once. -/
theorem Starts.before (starts : Starts p c m d) (ordered : c.Ordered) :
    d.Ordered ∧ d.marks = c.marks := by
  cases starts with
  | @declaring _ s _ before =>
      have kept := before.kept p (Check.reserving s c)
      exact ⟨kept.ordered (ordered.reserving s), kept.marks⟩
  | resolving | building | shaping | evaluating => exact ⟨ordered, rfl⟩

/-- The mark is not set yet. For an alias this is not looked up: had its body been read already, a
type would be known for it. -/
theorem Starts.fresh (starts : Starts p c m d) (ordered : c.Ordered) : m ∉ c.marks := by
  cases starts with
  | declaring unknown =>
      rw [declaring_mem_marks]
      intro reading
      obtain ⟨t, known⟩ := ordered.reserved _ reading
      cases unknown.symm.trans known
  | resolving _ free | building _ free | shaping _ free | evaluating _ free =>
      simpa [Memo.isRunning] using free

theorem Starts.ordered (starts : Starts p c m d) (ordered : c.Ordered) : (d.enter m).Ordered := by
  obtain ⟨inside, same⟩ := starts.before ordered
  have fresh := same ▸ starts.fresh ordered
  cases starts with
  | @declaring _ s _ before =>
      have place : (Check.reserving s c).declared[s]? = some ⟨c.arena.size⟩ :=
        Std.HashMap.getElem?_insert_self
      have there := (before.kept p (Check.reserving s c)).declared s _ place
      refine { inside with declaring := ?_, reserved := fun other reading => ?_ }
      · exact List.nodup_cons.mpr ⟨mt declaring_mem_marks.mpr fresh, inside.declaring⟩
      · rcases List.mem_cons.mp reading with rfl | outer
        · exact ⟨_, there⟩
        · exact inside.reserved other outer
  | resolving =>
      exact { inside with
        resolving := List.nodup_cons.mpr ⟨mt resolving_mem_marks.mpr fresh, inside.resolving⟩ }
  | building =>
      exact { inside with
        building := List.nodup_cons.mpr ⟨mt building_mem_marks.mpr fresh, inside.building⟩ }
  | shaping =>
      exact { inside with
        shaping := List.nodup_cons.mpr ⟨mt shaping_mem_marks.mpr fresh, inside.shaping⟩ }
  | evaluating =>
      exact { inside with
        evaluating := List.nodup_cons.mpr ⟨mt evaluating_mem_marks.mpr fresh, inside.evaluating⟩ }

theorem Midway.ordered (midway : Midway p c) : c.Ordered := by
  induction midway with
  | start => exact ordered_ofProgram p
  | work _ m before => exact (m.kept p _).ordered before
  | enter _ starts before => exact starts.ordered before
  | reserve _ _ before => exact before.reserving _
  | fill _ _ before =>
      exact ⟨before.declaring, before.reserved, before.resolving, before.building, before.shaping,
        before.evaluating⟩

/-- The marks are set, and set apart, around the work on a question: inside there is one more, and
taking it away leaves those that were set before. -/
theorem Starts.balanced {α : Type} (starts : Starts p c m d) (ordered : c.Ordered) (work : Check α) :
    let r := (work.outcome p (d.enter m)).2
    r.marks = insert m c.marks ∧ (r.leave m).marks = c.marks := by
  have kept := work.kept p (d.enter m)
  have inside : (work.outcome p (d.enter m)).2.marks = insert m c.marks := by
    rw [kept.marks, marks_enter, (starts.before ordered).2]
  refine ⟨inside, ?_⟩
  rw [(kept.ordered (starts.ordered ordered)).marks_leave, inside,
    Finset.erase_insert (starts.fresh ordered)]

end

/-! ### Questions that are asked again meanwhile -/

/-- The state after the question of a mark was asked. -/
def ask (calls : Calls) (p : Program) (c : Checker) : Mark → Checker
  | .declaring s => ((calls.ask (.declaredType s)).outcome p c).2
  | .resolving s => ((calls.ask (.valueType s)).outcome p c).2
  | .building s => ((calls.ask (.structure_ s)).outcome p c).2
  | .shaping t => ((calls.ask (.shape t)).outcome p c).2
  | .evaluating t => ((calls.ask (.evaluate t)).outcome p c).2

theorem outcome_once_running {κ α : Type} [BEq κ] [Hashable κ] {memo : Checker → Memo κ α}
    {withMemo : Checker → Memo κ α → Checker} {k : κ} {meanwhile : α} {m : Check α}
    {bracket : ∀ p c, (memo c).find? k = none → (memo c).isRunning k = false →
      let r := m.outcome p (withMemo c ((memo c).enter k))
      Work c.arena.size c (withMemo r.2 ((memo r.2).leave k r.1))} {p : Program} {c : Checker}
    (running : (memo c).isRunning k = true) :
    ((Check.once memo withMemo k meanwhile m bracket).outcome p c).2 = c := by
  unfold Check.once
  dsimp only
  split
  · rfl
  · rw [if_pos running]

theorem declaredType_unchanged {calls : Calls} {p : Program} {c : Checker} {s : SymbolId} {t : TypeId}
    (known : c.declared[s]? = some t) : ((declaredType calls s).outcome p c).2 = c := by
  unfold declaredType
  rw [Check.outcome_bind, Check.outcome_kind?]
  split
  · unfold declaredAlias
    rw [Check.outcome_bind, Check.outcome_decls]
    split
    · rfl
    · simp only [Check.declareAlias, known]
  · simp only [Check.declareAs, known]

/-- A question that is asked again while it is being worked out is answered at once. -/
theorem Ordered.ask_marked {p : Program} {c : Checker} {m : Mark} (ordered : c.Ordered) (n : Nat)
    (marked : m ∈ c.marks) : ask (callsTo n) p c m = c := by
  cases m with
  | declaring s =>
      obtain ⟨t, known⟩ := ordered.reserved s (declaring_mem_marks.mp marked)
      exact declaredType_unchanged known
  | resolving s =>
      have free : c.values.isRunning s = true :=
        List.contains_iff_mem.mpr (resolving_mem_marks.mp marked)
      rw [ask, callsTo, ask_callsWithin, step, valueType, Check.valueOnce, outcome_once_running free]
  | building s =>
      have free : c.structures.isRunning s = true :=
        List.contains_iff_mem.mpr (building_mem_marks.mp marked)
      rw [ask, callsTo, ask_callsWithin, step, structureOf, Check.structureOnce,
        outcome_once_running free]
  | shaping t =>
      have free : c.shapes.isRunning t = true :=
        List.contains_iff_mem.mpr (shaping_mem_marks.mp marked)
      rw [ask, callsTo, ask_callsWithin, step, shapeOf, Check.shapeOnce, outcome_once_running free]
  | evaluating t =>
      have free : c.evaluated.isRunning t = true :=
        List.contains_iff_mem.mpr (evaluating_mem_marks.mp marked)
      rw [ask, callsTo, ask_callsWithin, step, evaluate, Check.evaluateOnce, outcome_once_running free]

/-! ### Whole runs -/

theorem marks_ofProgram (p : Program) : (ofProgram p).marks = ∅ := by
  simp [marks, ofProgram]

theorem AtRest.marks {p : Program} {c : Checker} (rest : c.AtRest p) : c.marks = ∅ := by
  obtain ⟨reached, -⟩ := rest.later (sound_ofProgram p)
  exact reached.marks.trans (marks_ofProgram p)

/-- In every state that a run goes through, whatever question is asked or type is put in for others,
the same questions are being worked out afterwards. A question is marked only where it is not marked
yet, and when its mark is taken away again, after whatever work, those that were set before are left;
asked again meanwhile, it is answered at once. When nothing is asked any more, no mark is left. -/
theorem marks_balanced (p : Program) :
    (∀ c, Midway p c →
      (∀ (n : Nat) {α : Type} (q : Query α),
        (((callsTo n).ask q).outcome p c).2.marks = c.marks ∧
          Midway p (((callsTo n).ask q).outcome p c).2) ∧
      (∀ n map t, ((substitute (callsTo n) map t).outcome p c).2.marks = c.marks ∧
        Midway p ((substitute (callsTo n) map t).outcome p c).2) ∧
      (∀ m d, Starts p c m d → m ∉ c.marks ∧ d.marks = c.marks ∧
        ∀ {α : Type} (work : Check α), let r := (work.outcome p (d.enter m)).2
          r.marks = insert m c.marks ∧ (r.leave m).marks = c.marks) ∧
      ∀ n, ∀ m ∈ c.marks, ask (callsTo n) p c m = c) ∧
    ∀ c, AtRest p c → c.marks = ∅ := by
  refine ⟨fun c midway => ?_, fun c rest => rest.marks⟩
  have ordered := midway.ordered
  refine ⟨fun n α q => ⟨(((callsTo n).ask q).kept p c).marks, midway.work _⟩,
    fun n map t => ⟨((substitute (callsTo n) map t).kept p c).marks, midway.work _⟩,
    fun m d starts => ⟨starts.fresh ordered, (starts.before ordered).2,
      fun work => starts.balanced ordered work⟩, fun n m marked => ordered.ask_marked n marked⟩

set_option maxRecDepth 20000 in
/-- The alias of `recursive` is marked while its body is read, which asks for the alias again, and
that leaves the mark. It is gone when the type of the alias is known. -/
theorem recursive_marks :
    let reading := ((calls.ask (.typeParams ⟨0⟩)).outcome recursive
      (Check.reserving ⟨0⟩ (ofProgram recursive))).2.enter (.declaring ⟨0⟩)
    reading.marks = {.declaring ⟨0⟩} ∧ ask calls recursive reading (.declaring ⟨0⟩) = reading ∧
      (∀ e, (((calls.ask (.lower ⟨⟨0⟩, none, [], none⟩ e)).outcome recursive reading).2.leave
        (.declaring ⟨0⟩)).marks = ∅) ∧
      ((Check.declaredType ⟨0⟩).outcome recursive (ofProgram recursive)).2.marks = ∅ := by
  obtain ⟨midway, rest⟩ := marks_balanced recursive
  have starts : Starts recursive (ofProgram recursive) (.declaring ⟨0⟩) _ :=
    .declaring Std.HashMap.getElem?_empty (calls.ask (.typeParams ⟨0⟩))
  obtain ⟨-, -, balanced, -⟩ := midway _ .start
  obtain ⟨-, -, around⟩ := balanced _ _ starts
  obtain ⟨-, -, -, again⟩ := midway _ (.enter .start starts)
  have marked := (around (pure ())).1
  have known : Request.About (ofProgram recursive) (.declaredType ⟨0⟩) :=
    known_symbol_iff.mpr (by cbv)
  rw [marks_ofProgram] at marked around
  refine ⟨marked, again maxNesting _ ?_, fun e => (around _).2,
    rest _ (.ask (.refl _) (.declaredType ⟨0⟩) known)⟩
  exact marked ▸ Finset.mem_insert_self _ _

end Checker

end ApiDocs
