import ApiDocs.Proofs.Mapped.Instance

set_option autoImplicit false

/-!
The properties of a component whose type is read-only. The name `Readonly` is looked through: the
properties of `Readonly<w>` are those of `w` if `w` has no name of its own. If it has one, they are
those of the type that the name was declared as, so that the arguments which `w` gives to the name
are lost.
-/

namespace ApiDocs

open Check Checker Syntax

/-- In the state `c`, `r` is a mapped type under the name that is looked through, with `w` as its
first argument. -/
structure Checker.Wraps (c : Checker) (r w : TypeId) : Prop where
  data : ∃ m, c.arena.data r = .mapped m
  name : ∃ s rest, c.arena.alias? r = some ⟨s, w :: rest⟩ ∧
    c.bindings.nameOf s = Render.readonlyName

variable {p : Program} {c c' : Checker} {r w : TypeId}

/-- Names are those of symbols that are there, for the others have none. -/
theorem Checker.Later.nameOf (later : c.Later c') {s : SymbolId} {name : String}
    (named : c.bindings.nameOf s = name) (some : name ≠ "") : c'.bindings.nameOf s = name := by
  unfold Bindings.nameOf at named ⊢
  cases found : c.bindings.symbol? s with
  | none =>
      rw [found] at named
      exact absurd named.symm some
  | some x =>
      rw [found] at named
      rw [later.bindings.symbol s x found]
      exact named

theorem Checker.Wraps.later (wraps : c.Wraps r w) (later : c.Later c') : c'.Wraps r w := by
  obtain ⟨m, data⟩ := wraps.data
  obtain ⟨s, rest, written, named⟩ := wraps.name
  have info := later.info r (Arena.lt_size_of_data data nofun)
  exact ⟨⟨m, (congrArg TypeInfo.data info).trans data⟩,
    ⟨s, rest, (congrArg TypeInfo.writtenAs info).trans written, later.nameOf named (by decide)⟩⟩

namespace Render

/-! ### Looking through the name -/

/-- What is looked at in place of a read-only `w`. -/
def unwrapped (w : TypeId) : Check TypeId := do
  match ← Check.alias? w with
  | some inner => Check.declaredType inner.symbol
  | none => return w

theorem readonlyOf?_wraps (wraps : c.Wraps r w) :
    (readonlyOf? r).outcome p c = (some <$> unwrapped w).outcome p c := by
  obtain ⟨s, rest, written, named⟩ := wraps.name
  unfold readonlyOf?
  rw [outcome_bind, outcome_alias?, written]
  dsimp only
  rw [outcome_bind, outcome_nameOf, named, if_pos rfl]
  rfl

/-- Looking through the name takes one level of depth. -/
theorem propsAt_wraps (wraps : c.Wraps r w) (n : Nat) :
    (propsAt (n + 1) r).outcome p c = (unwrapped w >>= propsAt n).outcome p c := by
  obtain ⟨m, data⟩ := wraps.data
  unfold propsAt
  rw [outcome_bind, outcome_isBoolean, outcome_bind, outcome_data, data]
  dsimp only [parts?]
  rw [outcome_bind, readonlyOf?_wraps wraps]
  rfl

/-- The properties of `r`, one level deeper, are those of `w` if `w` has no name, and else those of
the type that its name is declared as. -/
structure SeesThrough (p : Program) (c : Checker) (r w : TypeId) : Prop where
  unnamed : ∀ n, c.arena.alias? w = none →
    (propsAt (n + 1) r).outcome p c = (propsAt n w).outcome p c
  named : ∀ n a, c.arena.alias? w = some a →
    (propsAt (n + 1) r).outcome p c = (Check.declaredType a.symbol >>= propsAt n).outcome p c

theorem seesThrough_wraps (wraps : c.Wraps r w) : SeesThrough p c r w where
  unnamed n none := by
    rw [propsAt_wraps wraps, outcome_bind, unwrapped, outcome_bind, outcome_alias?, none]
    rfl
  named n a some := by
    rw [propsAt_wraps wraps, outcome_bind, unwrapped, outcome_bind, outcome_alias?, some]
    rfl

/-! ### Read-only types -/

/-- Substitution in a read-only type gives a read-only type. -/
theorem wraps_substituteAt (calls : Calls) {map : Substitution} {q : TypeId} (wraps : c.Wraps r q)
    (apart : map.lookup r = none) (put : map.lookup q = some w) (n : Nat) :
    let made := (substituteAt calls (n + 1) map r).outcome p c
    made.2.Wraps made.1 w := by
  obtain ⟨m, data⟩ := wraps.data
  obtain ⟨s, rest, written, named⟩ := wraps.name
  have info : c.arena.info r = ⟨.mapped m, some ⟨s, q :: rest⟩⟩ := by
    rw [← data, ← written]
    rfl
  obtain ⟨-, made⟩ := info_substituteAt_mapped calls (p := p) n apart info
  have args : ∃ more, (((q :: rest).mapM (substituteAt calls n map)).outcome p c).1 = w :: more := by
    rw [List.mapM_cons, bind_of_outcome (substituteAt_key calls n put), outcome_bind]
    exact ⟨_, rfl⟩
  obtain ⟨more, args⟩ := args
  have later : c.Later ((substituteAt calls (n + 1) map r).outcome p c).2 := Check.kept _ p c
  refine ⟨⟨_, congrArg TypeInfo.data made⟩, s, more, ?_, later.nameOf named (by decide)⟩
  exact (congrArg TypeInfo.writtenAs made).trans (by rw [args])

theorem wraps_aliasInstance (calls : Calls) {s : SymbolId} {param : TypeId} {m : MappedType}
    (reads : ReadsMapped calls p c s param m) (named : c.bindings.nameOf s = readonlyName)
    (free : s ∉ c.declaring) (w : TypeId) :
    let made := (aliasInstance calls s [w]).outcome p c
    made.2.Wraps made.1 w := by
  obtain ⟨-, -, made⟩ := info_aliasInstance_mapped calls reads free w
  have later : c.Later ((aliasInstance calls s [w]).outcome p c).2 := Check.kept _ p c
  exact ⟨⟨_, congrArg TypeInfo.data made⟩, s, [], congrArg TypeInfo.writtenAs made,
    later.nameOf named (by decide)⟩

/-- The properties of `Readonly<w>` are those of `w` if `w` has no name, and those of the declared
type of its name else. This is so in all later states, and also for what comes of `Readonly<w>` when
another type is put in for `w`, as it is for the properties of a component that are declared once for
all their types. -/
theorem props_readonly (p : Program) (c : Checker) {s : SymbolId} {param : TypeId} {m : MappedType}
    (reads : ReadsMapped calls p c s param m) (named : c.bindings.nameOf s = readonlyName)
    (free : s ∉ c.declaring) (w : TypeId) :
    let made := (aliasInstance calls s [w]).outcome p c
    ∀ later, made.2.Later later → SeesThrough p later made.1 w ∧
      ∀ n map image, map.lookup made.1 = none → map.lookup w = some image →
        let put := (substituteAt calls (n + 1) map made.1).outcome p later
        ∀ c', put.2.Later c' → SeesThrough p c' put.1 image := by
  intro made later after
  have wraps : later.Wraps made.1 w := (wraps_aliasInstance calls reads named free w).later after
  refine ⟨seesThrough_wraps wraps, fun n map image apart found c' rest => ?_⟩
  exact seesThrough_wraps ((wraps_substituteAt calls wraps apart found n).later rest)

/-- An alias for read-only types, and an alias for an object with a member of any type. -/
def boxes : Program :=
  let item (decl : Decl) : Item := ⟨0, 0, none, {}, .exportDecl decl⟩
  let t : TypeExpr := .reference (.ident "T") []
  let keyed : TypeExpr := .mapped "P" (.keyOf t) (some (.indexed t (.reference (.ident "P") [])))
    none (some .add)
  let value : TypeMember := .property "v" (some t) false false {}
  { files := #[⟨⟨"/a.ts", #[], [item (.typeAlias ⟨"Readonly", [⟨"T", none, none⟩], keyed⟩),
      item (.typeAlias ⟨"Box", [⟨"T", none, none⟩], .members [value]⟩)]⟩, "/a.ts", true⟩] }

/-- A box of strings, in the state in which it was made. -/
def boxed : TypeId × Checker :=
  (aliasInstance calls ⟨1⟩ [Arena.intrinsicId .string]).outcome boxes (ofProgram boxes)

set_option maxRecDepth 20000 in
/-- What the alias for read-only types is read as, in the state in which the box was made. -/
theorem boxed_alias :
    let read := (readAlias calls ⟨0⟩).outcome boxes boxed.2
    read.1.2 = [⟨20⟩] ∧
      read.2.arena.info read.1.1 =
        ⟨.mapped ⟨⟨21⟩, ⟨22⟩, ⟨23⟩, none, some .add⟩, some ⟨⟨0⟩, [⟨20⟩]⟩⟩ ∧
      read.2.arena.info ⟨20⟩ = ⟨.typeParameter ⟨"T", none, none⟩, none⟩ ∧
      boxed.2.bindings.nameOf ⟨0⟩ = readonlyName ∧ boxed.2.declaring = [] := by
  cbv

set_option maxRecDepth 20000 in
/-- A read-only box of strings is seen as the box that was declared. -/
theorem boxed_seen_through :
    let made := (aliasInstance calls ⟨0⟩ [boxed.1]).outcome boxes boxed.2
    boxed.2.bindings.nameOf ⟨0⟩ = readonlyName ∧ SeesThrough boxes made.2 made.1 boxed.1 := by
  obtain ⟨params, info, isParam, named, idle⟩ := boxed_alias
  have reads : ReadsMapped calls boxes boxed.2 ⟨0⟩ ⟨20⟩ ⟨⟨21⟩, ⟨22⟩, ⟨23⟩, none, some .add⟩ :=
    ⟨params, info, _, isParam⟩
  exact ⟨named, (props_readonly boxes boxed.2 reads named (by simp [idle]) boxed.1 _ (.refl _)).1⟩

set_option maxRecDepth 20000 in
/-- The box holds strings, and the read-only box is shown as holding any type `T`. -/
theorem boxed_argument_lost :
    let made := (aliasInstance calls ⟨0⟩ [boxed.1]).outcome boxes boxed.2
    ((props boxed.1).outcome boxes made.2).1.map (fun x => (x.name, x.type)) =
        [("v", .named "string" none none none)] ∧
      ((props made.1).outcome boxes made.2).1.map (fun x => (x.name, x.type)) =
        [("v", .named "T" none none none)] := by
  cbv

end Render

end ApiDocs
