import ApiDocs.Proofs.Depth.Heights
import ApiDocs.Proofs.Nesting.Answers

set_option autoImplicit false

/-!
The depth of a tree can be kept by a counter: it is raised when a type is entered, lowered when the
type is left, and passed on unchanged by all that shows parts of a type. Exactly one function does
this, which shows what `Render.boundAt` shows and leaves the counter as it was.
-/

namespace ApiDocs.Render

/-- Work that also has a counter. -/
abbrev Counting := StateT Nat Check

namespace Counting

section

/- How a part of the type in view is shown. -/
variable (child : TypeId → Counting Bound)

def property (m : Member) : Counting Property :=
  return ⟨m.name, m.documentation, ← child m.type, m.optional, none⟩

def parameter (x : Parameter) : Counting Property :=
  return ⟨x.name, x.documentation, ← child x.type, x.optional, x.defaultValue⟩

def typeList (types : List TypeId) : Counting (Option (List Bound)) :=
  if types.isEmpty then return none else some <$> types.mapM child

def signature (s : Signature) : Counting SignatureBound := do
  let typeParameters ← typeList child s.typeParams
  let parameters ← s.params.mapM (parameter child)
  return ⟨typeParameters, parameters, ← child s.result⟩

def objectBound (t : TypeId) : Counting Bound := do
  match ← Check.callSignatures t with
  | s :: _ =>
      let s ← signature child s
      return .function s.typeParameters s.parameters s.result
  | [] =>
      let properties ← (← Check.members t).mapM (property child)
      let index ← (← Check.stringIndex? t).mapM fun i =>
        return (⟨i.keyName, ← child i.type⟩ : IndexEntry)
      return .object properties index

def named (t : TypeId) : Counting Bound := do
  let name := (← Check.state).typeName t
  let parts ← namedParts t
  let parameters ← typeList child parts.args
  let path := parts.symbol.bind ((← Check.state).bindings.originPath? (← (read : Check Program)))
  return .named name parameters parts.key (path.bind Origin.importedFrom)

def unionMembers (members : List TypeId) : Counting (List Bound) :=
  members.foldlM (fun sofar m => do
    if isBooleanLiteral (← Check.data m) && endsInBooleanLiteral sofar then
      return sofar.dropLast ++ [Bound.plain "boolean"]
    else return sofar ++ [← child m]) []

end

section

variable (serialize : Bool → TypeId → Counting Bound)

/-- Shows a type that was entered. -/
def inner (preferNamed : Bool) (t : TypeId) : Counting Bound := do
  let child := serialize true
  if preferNamed && (← Check.alias? t).isSome then named child t
  else
    let worked : Counting Bound := do
      let value ← Check.evaluate t
      if value = t then named child t else serialize preferNamed value
    match ← Check.data t with
    | .object shape =>
        if shape.call.isEmpty && !shape.construct.isEmpty then named child t
        else objectBound child t
    | .keyOf _ => worked
    | .indexedAccess _ _ => worked
    | .mapped _ => worked
    | .intersection members => return .intersection (← members.mapM child)
    | .union members =>
        if ← Check.isBoolean t then named child t
        else return .union (← unionMembers child members)
    | .tuple items => return .tuple (← items.mapM child)
    | .booleanLiteral value => return .booleanLiteral (if value then "true" else "false")
    | .numberLiteral text => return .numberLiteral text
    | .stringLiteral value => return .stringLiteral value
    | _ => named child t

/-- The counter above which no type is entered. -/
def limit : Nat := 32

/-- Enters a type, shows it and leaves it, unless the counter is above the limit. -/
def step (preferNamed : Bool) (t : TypeId) : Counting Bound := do
  if limit < (← get) then return Bound.plain ((← Check.state).typeName t)
  else
    modify (· + 1)
    let shown ← inner serialize preferNamed t
    modify (· - 1)
    return shown

/-- The type that an alias or interface declares. The members of an interface are shown without
entering it. -/
def declared (t : TypeId) : Counting Bound := do
  let kind ← match ← Check.data t with
    | .reference symbol _ => (Check.kind? symbol : Check _)
    | _ => pure none
  if kind = some .interface then objectBound (serialize true) t else serialize false t

end

/-! ### Counters that come back -/

/-- Work that leaves the counter at `d`, and is the given work otherwise. -/
def Tracks {α : Type} (d : Nat) (x : Counting α) (m : Check α) : Prop :=
  x.run d = (fun a => (a, d)) <$> m

section

variable {α β : Type} {d : Nat}

theorem tracks_pure (a : α) : Tracks d (pure a) (pure a) := by
  simp [Tracks]

theorem tracks_lift (m : Check α) : Tracks d (liftM m) m := by
  simp [Tracks]

theorem Tracks.bind {x : Counting α} {m : Check α} {f : α → Counting β} {g : α → Check β}
    (first : Tracks d x m) (next : ∀ a, Tracks d (f a) (g a)) : Tracks d (x >>= f) (m >>= g) := by
  unfold Tracks at first next ⊢
  simp [StateT.run_bind, first, next, map_bind]

theorem Tracks.lift_bind {m : Check α} {f : α → Counting β} {g : α → Check β}
    (next : ∀ a, Tracks d (f a) (g a)) : Tracks d (liftM m >>= f) (m >>= g) :=
  (tracks_lift m).bind next

theorem Tracks.map {x : Counting α} {m : Check α} (first : Tracks d x m) (f : α → β) :
    Tracks d (f <$> x) (f <$> m) := by
  rw [← bind_pure_comp, ← bind_pure_comp]
  exact first.bind fun a => tracks_pure (f a)

theorem Tracks.mapM {f : α → Counting β} {g : α → Check β} (each : ∀ x, Tracks d (f x) (g x))
    (list : List α) : Tracks d (list.mapM f) (list.mapM g) := by
  induction list with
  | nil => exact tracks_pure []
  | cons x rest ih =>
      rw [List.mapM_cons, List.mapM_cons]
      exact (each x).bind fun b => ih.bind fun bs => tracks_pure (b :: bs)

theorem Tracks.mapM_option {f : α → Counting β} {g : α → Check β} (each : ∀ x, Tracks d (f x) (g x))
    (o : Option α) : Tracks d (o.mapM f) (o.mapM g) := by
  cases o with
  | none => exact tracks_pure none
  | some x => exact (each x).map some

theorem Tracks.foldlM {f : β → α → Counting β} {g : β → α → Check β}
    (each : ∀ b x, Tracks d (f b x) (g b x)) (list : List α) (b : β) :
    Tracks d (list.foldlM f b) (list.foldlM g b) := by
  induction list generalizing b with
  | nil => exact tracks_pure b
  | cons x rest ih =>
      rw [List.foldlM_cons, List.foldlM_cons]
      exact (each b x).bind fun next => ih next

end

section

variable {d : Nat} {child : TypeId → Counting Bound} {shown : TypeId → Check Bound}
  (tracks : ∀ t, Tracks d (child t) (shown t))
include tracks

theorem tracks_typeList (types : List TypeId) :
    Tracks d (typeList child types) (Render.typeList shown types) := by
  unfold typeList Render.typeList
  split
  · exact tracks_pure none
  · exact (Tracks.mapM tracks types).map some

theorem tracks_named (t : TypeId) : Tracks d (named child t) (Render.named shown t) := by
  refine .lift_bind fun before => .lift_bind fun parts => ?_
  refine (tracks_typeList tracks parts.args).bind fun parameters => ?_
  exact .lift_bind fun state => .lift_bind fun program => tracks_pure _

theorem tracks_property (m : Member) : Tracks d (property child m) (Render.property shown m) :=
  (tracks m.type).bind fun _ => tracks_pure _

theorem tracks_parameter (x : Parameter) : Tracks d (parameter child x) (Render.parameter shown x) :=
  (tracks x.type).bind fun _ => tracks_pure _

theorem tracks_signature (s : Signature) :
    Tracks d (signature child s) (Render.signature shown s) := by
  refine (tracks_typeList tracks s.typeParams).bind fun typeParameters => ?_
  refine (Tracks.mapM (tracks_parameter tracks) s.params).bind fun parameters => ?_
  exact (tracks s.result).bind fun result => tracks_pure _

theorem tracks_objectBound (t : TypeId) :
    Tracks d (objectBound child t) (Render.objectBound shown t) := by
  refine .lift_bind fun signatures => ?_
  cases signatures with
  | cons s rest => exact (tracks_signature tracks s).bind fun s => tracks_pure _
  | nil =>
      refine .lift_bind fun members => (Tracks.mapM (tracks_property tracks) members).bind
        fun properties => ?_
      refine .lift_bind fun index => ?_
      refine (Tracks.mapM_option (fun i => ?_) index).bind fun index => tracks_pure _
      exact (tracks i.type).bind fun _ => tracks_pure _

theorem tracks_unionMembers (members : List TypeId) :
    Tracks d (unionMembers child members) (Render.unionMembers shown members) := by
  refine Tracks.foldlM (fun sofar t => .lift_bind fun data => ?_) members []
  split
  · exact tracks_pure _
  · exact (tracks t).bind fun b => tracks_pure _

end

/-! ### Entering and leaving -/

section

variable {serialize : Bool → TypeId → Counting Bound} {d n : Nat}

/-- Showing a type that was entered leaves the counter if showing its parts does. -/
theorem tracks_inner (below : ∀ prefer t, Tracks d (serialize prefer t) (boundAt n prefer t))
    (preferNamed : Bool) (t : TypeId) :
    Tracks d (inner serialize preferNamed t) (boundAt (n + 1) preferNamed t) := by
  have child := below true
  have byName := tracks_named child
  unfold inner boundAt
  refine .lift_bind fun written => ?_
  split
  · exact byName t
  · refine .lift_bind fun data => ?_
    have worked : Tracks d
        (liftM (Check.evaluate t) >>= fun value =>
          if value = t then named (serialize true) t else serialize preferNamed value)
        (Check.evaluate t >>= fun value =>
          if value = t then Render.named (boundAt n true) t else boundAt n preferNamed value) := by
      refine .lift_bind fun value => ?_
      split
      · exact byName t
      · exact below preferNamed value
    cases data with
    | object shape =>
        dsimp only
        split
        · exact byName t
        · exact tracks_objectBound child t
    | keyOf => exact worked
    | indexedAccess => exact worked
    | mapped => exact worked
    | intersection members => exact (Tracks.mapM child members).bind fun bounds => tracks_pure _
    | tuple items => exact (Tracks.mapM child items).bind fun bounds => tracks_pure _
    | union members =>
        refine .lift_bind fun isBoolean => ?_
        split
        · exact byName t
        · exact (tracks_unionMembers child members).bind fun bounds => tracks_pure _
    | booleanLiteral | numberLiteral | stringLiteral => exact tracks_pure _
    | _ => exact byName t

/-- A type that is entered is shown one level deeper, and the counter comes back when it is left. -/
theorem tracks_step_of_le (room : d ≤ limit)
    (below : ∀ prefer t, Tracks (d + 1) (serialize prefer t) (boundAt n prefer t))
    (preferNamed : Bool) (t : TypeId) :
    Tracks d (step serialize preferNamed t) (boundAt (n + 1) preferNamed t) := by
  have entered := tracks_inner below preferNamed t
  unfold Tracks at entered ⊢
  simp [step, Nat.not_lt.mpr room, entered]

theorem tracks_step_of_lt (full : limit < d) (preferNamed : Bool) (t : TypeId) :
    Tracks d (step serialize preferNamed t) (boundAt 0 preferNamed t) := by
  simp [Tracks, step, full, boundAt]

end

/-- Shows a type down to the depth that the counter leaves. -/
def counted (preferNamed : Bool) (t : TypeId) : Counting Bound :=
  fun d => (fun b => (b, d)) <$> boundAt (maxDepth - d) preferNamed t

theorem tracks_counted (d : Nat) (preferNamed : Bool) (t : TypeId) :
    Tracks d (counted preferNamed t) (boundAt (maxDepth - d) preferNamed t) := rfl

/-- There is one way to show types with a counter that is raised and lowered. -/
theorem step_fixed_iff {serialize : Bool → TypeId → Counting Bound} :
    (∀ prefer t, serialize prefer t = step serialize prefer t) ↔ serialize = counted := by
  constructor
  · intro fixed
    -- from the limit down: a type that is entered has less room than the one it is part of
    have tracks : ∀ n d, maxDepth - d = n → ∀ prefer t,
        Tracks d (serialize prefer t) (boundAt n prefer t) := by
      intro n
      induction n with
      | zero =>
          intro d full prefer t
          rw [fixed]
          exact tracks_step_of_lt (by simp only [maxDepth, Checker.maxDepth, limit] at *; omega)
            prefer t
      | succ n ih =>
          intro d room prefer t
          rw [fixed]
          apply tracks_step_of_le
          · simp only [maxDepth, Checker.maxDepth, limit] at *
            omega
          · exact ih (d + 1) (by omega)
    funext prefer t d
    exact tracks _ d rfl prefer t
  · rintro rfl prefer t
    funext d
    by_cases full : limit < d
    · have none : maxDepth - d = 0 := by
        simp only [maxDepth, Checker.maxDepth, limit] at *
        omega
      have shown : Tracks d (step counted prefer t) (boundAt 0 prefer t) :=
        tracks_step_of_lt full prefer t
      rw [← none] at shown
      exact (tracks_counted d prefer t).trans shown.symm
    · have some : maxDepth - d = (maxDepth - (d + 1)) + 1 := by
        simp only [maxDepth, Checker.maxDepth, limit] at *
        omega
      have shown := tracks_step_of_le (Nat.le_of_not_lt full) (tracks_counted (d + 1)) prefer t
      rw [← some] at shown
      exact (tracks_counted d prefer t).trans shown.symm

theorem tracks_declared (t : TypeId) : Tracks 0 (declared counted t) (declaredBound t) := by
  have shown : ∀ kind : Option SymbolKind, Tracks 0
      (if kind = some .interface then objectBound (counted true) t else counted false t)
      (if kind = some .interface then Render.objectBound bound t else boundAt maxDepth false t) := by
    intro kind
    split
    · exact tracks_objectBound (tracks_counted 0 true) t
    · exact tracks_counted 0 false t
  refine .lift_bind fun data => ?_
  cases data with
  | reference symbol args => exact .lift_bind fun kind => shown kind
  | _ => exact shown none

/-- Whatever state a checker is in, a type is shown as a tree of height at most 34 where it is used,
and of height at most 35 where it is declared. With a counter that is raised and lowered there is one
way to show types; it leaves every counter as it was, and starting from a fresh counter it shows the
same. So no tree in the documentation of a program is higher than 35. What the checker answers for it,
it answers however much deeper questions may nest, unless it has given one up. -/
theorem shown_height_le (p : Program) (c : Checker) (t : TypeId) :
    (((bound t).outcome p c).1.height ≤ 34 ∧ ((declaredBound t).outcome p c).1.height ≤ 35) ∧
    (∀ serialize, (∀ prefer t, serialize prefer t = step serialize prefer t) ↔ serialize = counted) ∧
    (∀ prefer d, (((counted prefer t).run d).outcome p c).1.2 = d) ∧
    ((counted true t).run 0 = (fun b => (b, 0)) <$> bound t ∧
      (declared counted t).run 0 = (fun b => (b, 0)) <$> declaredBound t) ∧
    (∀ name outDir packagePath, ((Package.empty name outDir).addProgram packagePath p).Shows
      fun body => ∀ b ∈ body.nodes, b.height ≤ 35) ∧
    ∀ {α : Type} (q : Query α) n, Checker.maxNesting ≤ n →
      ((Checker.calls.ask q).outcome p c).2.gaveUp = false →
      ((Checker.callsTo n).ask q).outcome p c = (Checker.calls.ask q).outcome p c := by
  refine ⟨⟨low_bound t p c, low_declaredBound t p c⟩, fun serialize => step_fixed_iff,
    fun prefer d => ?_, ⟨tracks_counted 0 true t, tracks_declared t⟩,
    Package.low_addProgram p, fun q _ deeper done => Checker.ask_of_deeper deeper q done⟩
  rw [tracks_counted d prefer t, Check.outcome_map]

end Counting

end ApiDocs.Render
