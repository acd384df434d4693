import ApiDocs.Syntax.Tree
import ApiDocs.Checker.Work

set_option autoImplicit false

/-!
Work on a checker. Every way to change the state stands here with the reason why it is within the
bounds of `Work`; what is put together from these is within them as well.
-/

namespace ApiDocs

/-- Work on the state of a checker, for a program. What it does to the state is within bounds by
construction. -/
structure Check (α : Type) where
  outcome : Program → Checker → α × Checker
  work : ∀ p c, Work c.arena.size c (outcome p c).2

namespace Check

section

variable {α β : Type}

theorem kept (m : Check α) (p : Program) (c : Checker) :
    Checker.Extends c.arena.size c (m.outcome p c).2 := (m.work p c).extends (Nat.le_refl _)

instance : Monad Check where
  pure a := ⟨fun _ c => (a, c), fun _ c => .refl c⟩
  bind m f := {
    outcome := fun p c =>
      match m.outcome p c with
      | (a, c) => (f a).outcome p c
    work := fun p c => (m.work p c).trans (((f _).work p _).mono (m.kept p c).size) }

instance : LawfulMonad Check :=
  LawfulMonad.mk' Check (fun _ => rfl) (fun _ _ => rfl) (fun _ _ _ => rfl)

instance : MonadReaderOf Program Check where
  read := ⟨fun p c => (p, c), fun _ c => .refl c⟩

/-- The state as it is. -/
def state : Check Checker := ⟨fun _ c => (c, c), fun _ c => .refl c⟩

/-- Work that is made only where it is done. -/
def delay (m : Unit → Check α) : Check α := ⟨fun p c => (m ()).outcome p c, (m ()).work⟩

/-- Notes that a question is given up. -/
def giveUp : Check Unit := ⟨fun _ c => ((), { c with gaveUp := true }), fun _ c => .giveUp c⟩

def run (m : Check α) (p : Program) : StateM Checker α := fun c => m.outcome p c

@[simp] theorem outcome_pure (a : α) (p : Program) (c : Checker) :
    (pure a : Check α).outcome p c = (a, c) := rfl

@[simp] theorem outcome_bind (m : Check α) (f : α → Check β) (p : Program) (c : Checker) :
    (m >>= f).outcome p c = (f (m.outcome p c).1).outcome p (m.outcome p c).2 := rfl

@[simp] theorem outcome_map (f : α → β) (m : Check α) (p : Program) (c : Checker) :
    (f <$> m).outcome p c = (f (m.outcome p c).1, (m.outcome p c).2) := rfl

@[simp] theorem outcome_state (p : Program) (c : Checker) : state.outcome p c = (c, c) := rfl

@[simp] theorem outcome_read (p : Program) (c : Checker) :
    (read : Check Program).outcome p c = (p, c) := rfl

/-- What every round of a loop keeps, the loop keeps. -/
theorem foldlM_keeps {p : Program} (keeps : β → Checker → Prop) (f : β → α → Check β)
    (list : List α)
    (round : ∀ b c, ∀ x ∈ list, keeps b c →
      keeps ((f b x).outcome p c).1 ((f b x).outcome p c).2)
    (b : β) (c : Checker) (start : keeps b c) :
    keeps ((list.foldlM f b).outcome p c).1 ((list.foldlM f b).outcome p c).2 := by
  induction list generalizing b c with
  | nil => exact start
  | cons x rest ih =>
      rw [List.foldlM_cons, outcome_bind]
      exact ih (fun b c x inside => round b c x (List.mem_cons_of_mem _ inside)) _ _
        (round b c x List.mem_cons_self start)

/-! ### Growing tables -/

def withArena (f : Arena → α × Arena) (grows : ∀ a : Arena, a.Extends (f a).2) : Check α where
  outcome _ c :=
    match f c.arena with
    | (a, arena) => (a, { c with arena })
  work _ c := .types (grows c.arena)

def withBindings (f : Program → Bindings → α × Bindings)
    (grows : ∀ p (b : Bindings), b.Extends (f p b).2) : Check α where
  outcome p c :=
    match f p c.bindings with
    | (a, bindings) => (a, { c with bindings })
  work p c := .symbols (grows p c.bindings)

/-! ### Answers that are kept -/

/-- Gives a question its answer once. `meanwhile` stands for it while it is being worked out. -/
def once {κ : Type} [BEq κ] [Hashable κ] (memo : Checker → Memo κ α)
    (withMemo : Checker → Memo κ α → Checker) (k : κ) (meanwhile : α) (m : Check α)
    (bracket : ∀ p c, (memo c).find? k = none → (memo c).isRunning k = false →
      let r := m.outcome p (withMemo c ((memo c).enter k))
      Work c.arena.size c (withMemo r.2 ((memo r.2).leave k r.1))) : Check α where
  outcome p c :=
    match (memo c).find? k with
    | some answer => (answer, c)
    | none =>
        if (memo c).isRunning k then (meanwhile, c)
        else
          match m.outcome p (withMemo c ((memo c).enter k)) with
          | (answer, c) => (answer, withMemo c ((memo c).leave k answer))
  work p c := by
    split
    · exact .refl c
    · rename_i unknown
      split
      · exact .refl c
      · rename_i free
        exact bracket p c unknown (Bool.eq_false_iff.mpr free)

def valueOnce (s : SymbolId) (m : Check TypeId) : Check TypeId :=
  once (·.values) (fun c values => { c with values }) s Arena.anyId m
    fun p c unknown _ => .value unknown (m.work p { c with values := c.values.enter s }) _

def structureOnce (s : SymbolId) (m : Check Shape) : Check Shape :=
  once (·.structures) (fun c structures => { c with structures }) s {} m
    fun p c unknown free => .members unknown (by simpa [Memo.isRunning] using free)
      (m.work p { c with structures := c.structures.enter s }) _

def shapeOnce (t : TypeId) (m : Check Shape)
    (denotes : ∀ p c, Denotes c.arena (m.outcome p c).2 t (m.outcome p c).1) : Check Shape :=
  once (·.shapes) (fun c shapes => { c with shapes }) t {} m
    fun p c unknown _ =>
      let start := { c with shapes := c.shapes.enter t }
      .shape unknown (m.work p start) (denotes p start)

def evaluateOnce (t : TypeId) (m : Check TypeId)
    (plain : ∀ p c, (c.arena.data t).isOperator = false → (m.outcome p c).1 = t) : Check TypeId :=
  once (·.evaluated) (fun c evaluated => { c with evaluated }) t t m
    fun p c unknown _ =>
      let start := { c with evaluated := c.evaluated.enter t }
      .evaluate unknown (m.work p start) (plain p start)

/-- The type of JSX elements is looked for once. -/
def elementOnce (m : Check (Option TypeId)) : Check (Option TypeId) where
  outcome p c :=
    match c.elementType with
    | some known => (known, c)
    | none =>
        match m.outcome p c with
        | (found, c) => (found, { c with elementType := some found })
  work p c := by
    split
    · exact .refl c
    · rename_i unknown
      exact .element unknown (m.work p c) _

/-! ### Declared types -/

/-- The type that a symbol stands for, unless it is known already. -/
def declareAs (s : SymbolId) (m : Check TypeId) : Check TypeId where
  outcome p c :=
    match c.declared[s]? with
    | some t => (t, c)
    | none =>
        match m.outcome p c with
        | (t, c) => (t, { c with declared := c.declared.insert s t })
  work p c := by
    split
    · exact .refl c
    · rename_i unknown
      exact .declare unknown (m.work p c) _

/-- The state in which the body of an alias is read: a place is reserved for its type, so that the
body can refer to it. -/
def reserving (s : SymbolId) (c : Checker) : Checker :=
  { c with
    arena := (c.arena.addInfo (.placeholder s)).2
    declared := c.declared.insert s ⟨c.arena.size⟩ }

/-- The type of an alias, unless it is known already. The body is given the place that is reserved
for it, and says what the place is filled with and which type the alias stands for. -/
def declareAlias (s : SymbolId) (body : TypeId → Check (TypeInfo × TypeId)) : Check TypeId where
  outcome p c :=
    match c.declared[s]? with
    | some t => (t, c)
    | none =>
        let reserved : TypeId := ⟨c.arena.size⟩
        match (body reserved).outcome p (reserving s c) with
        | ((info, t), c) =>
            (t, { c with arena := c.arena.set reserved info, declared := c.declared.insert s t })
  work p c := by
    split
    · exact .refl c
    · rename_i unknown
      have place : (reserving s c).arena.size = c.arena.size + 1 := Arena.size_addInfo _ _
      have kept : ((body ⟨c.arena.size⟩).outcome p (reserving s c)).2.arena.info ⟨c.arena.size⟩ =
          .placeholder s := by
        rw [((body _).kept p _).info ⟨c.arena.size⟩ (by rw [place]; exact Nat.lt_succ_self _)]
        exact Arena.info_addInfo_self _ _
      have start : Work c.arena.size c (reserving s c) :=
        .trans (.types (Arena.extends_addInfo c.arena (.placeholder s)))
          (.declare (c := { c with arena := (c.arena.addInfo (.placeholder s)).2 }) unknown
            (.refl _) _)
      have read := ((body ⟨c.arena.size⟩).work p (reserving s c)).mono
        (m := c.arena.size) (by rw [place]; exact Nat.le_succ _)
      exact .declare unknown
        ((start.trans read).trans (.fillAlias (Nat.le_refl _) kept _)) _

/-- The body of an alias is being read. -/
def readingBody {α : Type} (s : SymbolId) (m : Check α) : Check α where
  outcome p c :=
    match m.outcome p { c with declaring := s :: c.declaring } with
    | (a, c) => (a, { c with declaring := c.declaring.erase s })
  work p c := .body (m.work p { c with declaring := s :: c.declaring })

/-! ### Type parameters -/

/-- Notes the type parameters of a symbol, unless they are known already. -/
def rememberParams (s : SymbolId) (ids : List TypeId) : Check Unit where
  outcome _ c :=
    match c.typeParams[s]? with
    | some _ => ((), c)
    | none => ((), { c with typeParams := c.typeParams.insert s ids })
  work _ c := by
    split
    · exact .refl c
    · rename_i unknown
      exact .params unknown ids

/-- The places of type parameters that are to be filled: they were reserved since the arena had `n`
types. -/
def Reserved (n : Nat) (c : Checker) (ids : List TypeId) : Prop :=
  ∀ id ∈ ids, n ≤ id.index ∧ id.index < c.arena.size ∧ ∃ param, c.arena.data id = .typeParameter param

/-- New places for type parameters. -/
def reserveParams (a : Arena) (names : List String) : List TypeId × Arena :=
  Arena.mapIds (fun a name => a.add (.typeParameter { name })) a names

theorem length_reserveParams (a : Arena) (names : List String) :
    (reserveParams a names).1.length = names.length := by
  induction names generalizing a with
  | nil => rfl
  | cons name rest ih => exact congrArg (· + 1) (ih _)

/-- Fills the places of type parameters one by one. -/
def fillParams {α : Type} (describe : α → Check TypeParameter) (p : Program) :
    List (α × TypeId) → Checker → Checker
  | [], c => c
  | (x, id) :: rest, c =>
      match (describe x).outcome p c with
      | (param, c) => fillParams describe p rest
          { c with arena := c.arena.setData id (.typeParameter param) }

theorem Reserved.mono {n : Nat} {c c' : Checker} {ids : List TypeId} (reserved : Reserved n c ids)
    (kept : Checker.Extends c.arena.size c c') : Reserved n c' ids := by
  intro id inside
  obtain ⟨later, below, param, data⟩ := reserved id inside
  exact ⟨later, Nat.lt_of_lt_of_le below kept.size, param,
    (Arena.data_eq (kept.info id below)).trans data⟩

theorem Reserved.setData {n : Nat} {c : Checker} {ids : List TypeId} (reserved : Reserved n c ids)
    (t : TypeId) (param : TypeParameter) :
    Reserved n { c with arena := c.arena.setData t (.typeParameter param) } ids := by
  intro id inside
  obtain ⟨later, below, old, data⟩ := reserved id inside
  refine ⟨later, by rwa [Arena.size_setData], ?_⟩
  rcases Decidable.em (id = t) with same | differs
  · subst same
    exact ⟨param, Arena.data_setData_self _ _ _ below⟩
  · exact ⟨old, (Arena.data_eq (Arena.info_setData_other _ _ _ _ differs)).trans data⟩

theorem work_fillParams {α : Type} (describe : α → Check TypeParameter) (p : Program) {n : Nat}
    (places : List (α × TypeId)) (c : Checker) (start : n ≤ c.arena.size)
    (reserved : Reserved n c (places.map Prod.snd)) :
    Work n c (fillParams describe p places c) := by
  induction places generalizing c with
  | nil => exact .refl c
  | cons place rest ih =>
      obtain ⟨x, id⟩ := place
      have kept := (describe x).kept p c
      have after := reserved.mono kept
      obtain ⟨later, _, param, data⟩ := after id List.mem_cons_self
      have filled := after.setData id ((describe x).outcome p c).1
      have fill := Work.fillParam later data ((describe x).outcome p c).1
      refine (((describe x).work p c).mono start).trans (fill.trans ?_)
      refine ih _ ?_ fun other inside => filled other (List.mem_cons_of_mem _ inside)
      rw [Arena.size_setData]
      exact Nat.le_trans start kept.size

theorem extends_reserveParams (a : Arena) (names : List String) :
    a.Extends (reserveParams a names).2 :=
  Arena.extends_mapIds _ (fun a _ => Arena.extends_add a _) a names

theorem reserved_reserveParams (c : Checker) (names : List String) :
    Reserved c.arena.size { c with arena := (reserveParams c.arena names).2 }
      (reserveParams c.arena names).1 := by
  suffices h : ∀ (a : Arena), ∀ id ∈ (reserveParams a names).1, a.size ≤ id.index ∧
      id.index < (reserveParams a names).2.size ∧
      ∃ param, (reserveParams a names).2.data id = .typeParameter param from h c.arena
  induction names with
  | nil =>
      intro a id inside
      cases inside
  | cons name rest ih =>
      intro a id inside
      let next := (a.add (.typeParameter { name })).2
      have size : next.size = a.size + 1 := Arena.size_addInfo _ _
      have grown : next.Extends (reserveParams next rest).2 := extends_reserveParams next rest
      rcases List.mem_cons.mp inside with first | later
      · subst first
        have below : a.size < next.size := by omega
        refine ⟨Nat.le_refl _, Nat.lt_of_lt_of_le below grown.size, { name }, ?_⟩
        refine (Arena.data_eq (grown.info ⟨a.size⟩ below)).trans ?_
        exact congrArg TypeInfo.data (Arena.info_addInfo_self _ _)
      · obtain ⟨lower, upper, data⟩ := ih next id later
        exact ⟨by omega, upper, data⟩

/-- New types for type parameters. They exist, and are noted, before they are described, for a
description may refer to them. -/
def declareParams (params : List Syntax.TypeParam) (remember : List TypeId → Check Unit)
    (describe : List TypeId → Syntax.TypeParam → Check TypeParameter) : Check (List TypeId) where
  outcome p c :=
    match reserveParams c.arena (params.map (·.name)) with
    | (ids, arena) =>
        match (remember ids).outcome p { c with arena } with
        | (_, c) => (ids, fillParams (describe ids) p (params.zip ids) c)
  work p c := by
    let ids := (reserveParams c.arena (params.map (·.name))).1
    let start : Checker := { c with arena := (reserveParams c.arena (params.map (·.name))).2 }
    have grown := extends_reserveParams c.arena (params.map (·.name))
    have noted := (remember ids).kept p start
    have places := (reserved_reserveParams c (params.map (·.name))).mono noted
    have remembered := ((remember ids).work p start).mono grown.size
    have filled := work_fillParams (describe ids) p (params.zip ids) _
      (Nat.le_trans grown.size noted.size) fun id inside => by
        obtain ⟨⟨param, same⟩, listed, rfl⟩ := List.mem_map.mp inside
        exact places _ (List.of_mem_zip listed).2
    exact .trans (.types grown) (remembered.trans filled)

/-- Type parameters that are noted are known afterwards. -/
theorem declareParams_known (params : List Syntax.TypeParam) (s : SymbolId)
    (describe : List TypeId → Syntax.TypeParam → Check TypeParameter) (p : Program) (c : Checker)
    (unknown : c.typeParams[s]? = none) :
    let r := (declareParams params (rememberParams s) describe).outcome p c
    r.2.typeParams[s]? = some r.1 := by
  let reserved := reserveParams c.arena (params.map (·.name))
  let start : Checker := { c with arena := reserved.2 }
  let noted := ((rememberParams s reserved.1).outcome p start).2
  have known : noted.typeParams[s]? = some reserved.1 := by
    have here : start.typeParams[s]? = none := unknown
    simp only [noted, rememberParams, here]
    exact Std.HashMap.getElem?_insert_self
  have places := (reserved_reserveParams c (params.map (·.name))).mono
    ((rememberParams s reserved.1).kept p start)
  have filled := work_fillParams (describe reserved.1) p (params.zip reserved.1) noted
    (Nat.zero_le _) fun id inside => by
      obtain ⟨⟨param, same⟩, listed, rfl⟩ := List.mem_map.mp inside
      obtain ⟨_, below, data⟩ := places _ (List.of_mem_zip listed).2
      exact ⟨Nat.zero_le _, below, data⟩
  exact (filled.extends (Nat.zero_le _)).typeParams s _ known

end

end Check

end ApiDocs
