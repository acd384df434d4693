import ApiDocs.Proofs.Arena.Unions
import ApiDocs.Proofs.Mapped.Members
import ApiDocs.Proofs.Members.Shown

set_option autoImplicit false

/-!
Mapped types over the keys of an object type. The aliases `Partial`, `Required` and `Readonly` are
meant to give the members of their argument with one flag changed. They give members of the same names
and types, but in the order of the keys, with the other flag cleared and without documentation. So they
do what they are meant to exactly where nothing of that can be seen.
-/

namespace ApiDocs

/-! ### States at rest -/

theorem Request.neat_ask {α : Type} (q : Request α) : Check.Neat q.ask := by
  cases q with
  | declaredType => exact Check.neat_declaredType
  | valueType => exact Check.neat_valueType
  | typeParams => exact Check.neat_typeParams
  | evaluate => exact Check.neat_evaluate
  | members => exact Check.neat_members
  | member => exact Check.neat_member?
  | callSignatures => exact Check.neat_callSignatures
  | constructSignatures => exact Check.neat_constructSignatures
  | stringIndex => exact Check.neat_stringIndex?
  | elementType => exact Checker.neat_elementType?
  | bound t => exact (Render.shows_bound t).neat
  | declaredBound t => exact (Render.shows_declaredBound t).neat

namespace Checker

open Check

variable {n : Nat} {p : Program} {c : Checker}

theorem AtRest.distinct (rest : c.AtRest p) : c.Distinct := by
  unfold AtRest at rest
  generalize start : ofProgram p = first at rest
  induction rest with
  | refl => exact start ▸ distinct_ofProgram p
  | ask _ q _ ih => exact (q.neat_ask.ensures p _ (ih start)).1

theorem regular_ofProgram (p : Program) : (ofProgram p).Regular where
  unnamed k t found := (Arena.tidy_initial.indexed k t).mp found
  plain t r found := by
    have none : (ofProgram p).evaluated.find? t = none := Std.HashMap.getElem?_empty
    rw [none] at found
    cases found

theorem AtRest.regular (rest : c.AtRest p) : c.Regular := by
  unfold AtRest at rest
  generalize start : ofProgram p = first at rest
  induction rest with
  | refl => exact start ▸ regular_ofProgram p
  | ask _ q _ ih => exact (q.ask.work p _).regular (Nat.le_refl _) (ih start)

/-- Nothing is being worked out. -/
structure Idle (c : Checker) : Prop where
  evaluated : c.evaluated.running = []
  shapes : c.shapes.running = []

theorem Idle.outcome {α : Type} (idle : c.Idle) (m : Check α) (p : Program) :
    (m.outcome p c).2.Idle :=
  ⟨(m.kept p c).evaluated.running.trans idle.evaluated,
    (m.kept p c).shapes.running.trans idle.shapes⟩

theorem Ready.rebase {m : Nat} (ready : Ready m p c) (idle : c.Idle) (le : n ≤ c.arena.size) :
    Ready n p c where
  sound := ready.sound
  regular := ready.regular
  start := ready.start
  base := le
  evaluating t running := by
    rw [idle.evaluated] at running
    cases running
  listing t running := by
    rw [idle.shapes] at running
    cases running

theorem AtRest.idle (rest : c.AtRest p) : c.Idle ∧ c.declaring = [] := by
  obtain ⟨reached, -⟩ := rest.later (sound_ofProgram p)
  exact ⟨⟨reached.evaluated.running, reached.shapes.running⟩, reached.declaring⟩

theorem AtRest.ready (rest : c.AtRest p) : Ready c.arena.size p c := by
  obtain ⟨reached, sound⟩ := rest.later (sound_ofProgram p)
  have start : ∀ t : TypeId, t.index < 14 → c.arena.info t = Arena.initial.info t := fun t small =>
    reached.info t (Nat.lt_of_lt_of_le small (sound_ofProgram p).base)
  obtain ⟨idle, -⟩ := rest.idle
  refine ⟨sound, rest.regular, start, Nat.le_refl _, fun t running => ?_, fun t running => ?_⟩
  · rw [idle.evaluated] at running
    cases running
  · rw [idle.shapes] at running
    cases running

/-! ### Instances at object types -/

section

variable {s : SymbolId} {param source : TypeId} {m : MappedType}

instance safe_readAlias {calls : Calls} [SafeCalls p calls] [c.Started] [Known c s] :
    Safe p c (readAlias calls s) := by
  unfold readAlias
  exact .bind fun _ _ _ _ => .bind fun _ _ _ _ => inferInstance

/-- An instance is a type that nothing is known about yet. -/
theorem fresh_aliasInstance {calls : Calls} [SafeCalls p calls] (ready : Ready n p c) [Known c s]
    (reads : ReadsMapped calls p c s param m) (free : s ∉ c.declaring) (source : TypeId)
    [Known c source] :
    let made := (aliasInstance calls s [source]).outcome p c
    made.2.Fresh made.1 := by
  have := ready.started
  let read := (readAlias calls s).outcome p c
  have after : Ready n p read.2 := ready.outcome inferInstance
  have later : c.Before read.2 := (readAlias calls s).before p c
  obtain ⟨-, known⟩ := (inferInstance : Safe p c (readAlias calls s)).outcome c (.refl c) ready.sound
  have := after.started
  have first : Known read.2 read.1.1 := inferInstance
  have second : Known read.2 read.1.2 := inferInstance
  rw [show read.1.2 = [param] from reads.params] at second
  have := second.mem List.mem_cons_self
  have put : Ready n p ((substituteAt calls maxDepth [(param, source)] read.1.1).outcome p read.2).2 :=
    after.outcome inferInstance
  rw [aliasInstance_mapped calls reads free source]
  exact put.fresh _

/-- What an instance at an object type is: a new mapped type from `n` on, over the keys of the members
that the object type is known to have. -/
structure InstanceOf (n : Nat) (p : Program) (c : Checker) (source : TypeId) (m : MappedType)
    (t : TypeId) (shape : Shape) : Prop where
  ready : Ready n p c
  above : n ≤ t.index
  data : c.arena.data t = .mapped m
  found : c.shapes.find? source = some shape
  maps : shape.OnlyNames → Mapping n c source shape m
  keys : shape.OnlyNames → KeysOf c shape.members m.constraint

variable (k : Nat)

theorem instanceOf_aliasInstance (ready : Ready n p c) (idle : c.Idle) [Known c s]
    (reads : ReadsMapped (callsTo (k + 2)) p c s param m) (free : s ∉ c.declaring)
    (maps : OfKeys ((readAlias (callsTo (k + 2)) s).outcome p c).2 param m)
    (object : Source n c source) (unbound : ¬ c.arena.Occurs m.param source) :
    let made := (aliasInstance (callsTo (k + 2)) s [source]).outcome p c
    ∃ base keys template shape,
      InstanceOf base p made.2 source { m with constraint := keys, template } made.1 shape := by
  have := ready.started
  have known : Known c source := known_type_iff.mpr object.inside
  -- first the alias is read, then the constraint is worked out, and then the template is made
  let read := (readAlias (callsTo (k + 2)) s).outcome p c
  have since₁ : Since n c read.2 := .outcome n _ p c
  have ready₁ : Ready n p read.2 := ready.outcome inferInstance
  let keys := (substituteAt (callsTo (k + 2)) 32 [(param, source)] m.constraint).outcome p read.2
  have since₂ : Since n read.2 keys.2 := .outcome n _ p read.2
  obtain ⟨ready₂, shape, found, listed⟩ := ends_constraint k 31 ready₁ maps (object.later since₁)
    read.2 (.refl n _) ready₁
  let template := (substituteAt (callsTo (k + 2)) 32 [(param, source)] m.template).outcome p keys.2
  have since₃ : Since n keys.2 template.2 := .outcome n _ p keys.2
  obtain ⟨ready₃, access⟩ := ends_template k 31 ready₂ (maps.later since₂)
    ((object.later since₁).later since₂) keys.2 (.refl n _) ready₂
  have same : [(param, source)].filter (fun entry => decide (entry.1 ≠ m.param)) = [(param, source)] := by
    simp [maps.differ]
  obtain ⟨since₄, above, info⟩ := info_aliasInstance_mapped (callsTo (k + 2)) reads free source
  rw [same] at since₄ above info
  have since : Since n c template.2 := (since₁.trans since₂).trans since₃
  have start : Ready template.2.arena.size p
      ((aliasInstance (callsTo (k + 2)) s [source]).outcome p c).2 :=
    (ready.outcome inferInstance).rebase (idle.outcome _ p) (since₄ 0).before.size
  have whole : Since n c _ := since.trans (since₄ n)
  have later : Since n read.2 _ := (since₂.trans since₃).trans (since₄ n)
  have members : ∀ q ∈ shape.members, q.type.index < template.2.arena.size := by
    intro q inside
    have known : Known keys.2 shape := (ready₂.sound.holds.shapes source shape found).2
    have all : Known keys.2 shape.members := inferInstance
    have := all.mem inside
    exact since₃.inside (known_type_iff.mp inferInstance)
  refine ⟨template.2.arena.size, keys.1, template.1, shape, start, above,
    congrArg TypeInfo.data info, ?_, fun only => ?_, fun only => ?_⟩
  · exact (since₄ n).shapes _ _ object.below (since₃.shapes _ _ object.below found)
  · exact {
      object := ⟨since.inside object.inside, (object.later whole).object⟩
      template := (since₄ n).info_eq access nofun
      isKey := maps.isKey.imp fun _ info => later.info_eq info nofun
      free := fun occurs => unbound (whole.occurs ready.sound known occurs)
      found := (since₄ n).shapes _ _ object.below (since₃.shapes _ _ object.below found)
      below := members
      distinct := only.distinct }
  · exact ((listed only).later since₃).later (since₄ 0)

/-- The members of an instance at an object type without index signatures. -/
theorem shape_aliasInstance {calls : Calls} (deep : calls = callsTo (k + 2 + 2)) (ready : Ready n p c)
    (idle : c.Idle) [Known c s] (reads : ReadsMapped calls p c s param m) (free : s ∉ c.declaring)
    (maps : OfKeys ((readAlias calls s).outcome p c).2 param m) (object : Source n c source)
    (unbound : ¬ c.arena.Occurs m.param source) {made : TypeId × Checker}
    (isMade : (aliasInstance calls s [source]).outcome p c = made) {found : Shape × Checker}
    (isFound : (calls.ask (.shape made.1)).outcome p made.2 = found) :
    ∃ shape, found.2.shapes.find? source = some shape ∧ (shape.OnlyNames →
      found.1.members = (found.2.inKeyOrder shape.members).map (found.2.keyMember m) ∧
        ∀ q ∈ shape.members, found.2.Worked q.type) := by
  subst deep
  have known : Known c source := known_type_iff.mpr object.inside
  have inst := instanceOf_aliasInstance (k + 2) ready idle reads free maps object unbound
  have fresh := fresh_aliasInstance ready reads free source
  rw [isMade] at inst fresh
  obtain ⟨base, keys, template, shape, is⟩ := inst
  have since : Since c.arena.size c made.2 := isMade ▸ .outcome _ _ p c
  have after : Since made.2.arena.size made.2 found.2 := isFound ▸ .outcome _ _ p made.2
  refine ⟨shape, after.shapes _ _ (since.inside object.inside) is.found, fun only => ?_⟩
  have shapes := shape_mapped k is.ready fresh is.above is.data (is.maps only) (is.keys only)
  rw [isFound] at shapes
  exact shapes.imp_right And.left

end

/-! ### Members that were meant -/

section

variable (p : Program) (c : Checker)

/-- What a type comes to, asked for in the state `c`. -/
def valueOf (t : TypeId) : TypeId := ((Check.evaluate t).outcome p c).1

/-- The member that a mapped type is meant to make of a member: its type is worked out, and the
flags that the mapped type changes are changed. -/
def meantMember (m : MappedType) (q : Member) : Member :=
  { q with
    type := valueOf p c q.type
    optional := applyModifier m.optional q.optional
    readonly := applyModifier m.readonly q.readonly }

/-- The member that it makes of the name alone. -/
def namedMember (m : MappedType) (q : Member) : Member :=
  ⟨q.name, valueOf p c q.type, applyModifier m.optional false, applyModifier m.readonly false, ""⟩

/-- A member of which nothing but its name and type can be seen behind a mapped type. -/
structure Plain (m : MappedType) (q : Member) : Prop where
  documentation : q.documentation = ""
  optional : m.optional = none → q.optional = false
  readonly : m.readonly = none → q.readonly = false

variable {p c}

theorem applyModifier_eq_iff (modifier : Option Modifier) (flag : Bool) :
    applyModifier modifier false = applyModifier modifier flag ↔ (modifier = none → flag = false) := by
  rcases modifier with _ | _ | _ <;> simp [applyModifier, eq_comm]

theorem namedMember_eq_iff (m : MappedType) (q : Member) :
    namedMember p c m q = meantMember p c m q ↔ Plain m q := by
  unfold namedMember meantMember
  rw [Member.mk.injEq, applyModifier_eq_iff, applyModifier_eq_iff]
  exact ⟨fun ⟨_, _, optional, readonly, documentation⟩ => ⟨documentation.symm, optional, readonly⟩,
    fun plain => ⟨rfl, rfl, plain.optional, plain.readonly, plain.documentation.symm⟩⟩

/-- The literals of the names were made in the order of the members. -/
def KeyOrdered (c : Checker) (members : List Member) : Prop :=
  members.Pairwise fun x y => (c.arena.literal x.name).index ≤ (c.arena.literal y.name).index

theorem inKeyOrder_sorted (members : List Member) : c.KeyOrdered (c.inKeyOrder members) := by
  have sorted := @List.pairwise_mergeSort Member
    (fun x y => (c.arena.literal x.name).index ≤ (c.arena.literal y.name).index)
    (fun x y z first second => by simp only [decide_eq_true_eq] at *; omega)
    (fun x y => by simp only [Bool.or_eq_true, decide_eq_true_eq]; omega) members
  exact sorted.imp fun le => by simpa using le

theorem inKeyOrder_eq {members : List Member} (sorted : c.KeyOrdered members) :
    c.inKeyOrder members = members :=
  List.mergeSort_of_pairwise (sorted.imp fun le => by simpa using le)

/-- The order is one of the names. -/
theorem KeyOrdered.of_names {members others : List Member} (sorted : c.KeyOrdered members)
    (names : members.map (·.name) = others.map (·.name)) : c.KeyOrdered others := by
  let before (x y : String) : Prop := (c.arena.literal x).index ≤ (c.arena.literal y).index
  have mapped : (members.map (·.name)).Pairwise before := List.pairwise_map.mpr sorted
  rw [names] at mapped
  exact (List.pairwise_map (R := before)).mp mapped

/-- The members that are made are those that were meant if these are in the order of the keys, and
nothing of them is lost. -/
theorem map_namedMember_eq_iff (m : MappedType) (members : List Member) :
    (c.inKeyOrder members).map (namedMember p c m) = members.map (meantMember p c m) ↔
      c.KeyOrdered members ∧ ∀ q ∈ members, Plain m q := by
  constructor
  · intro same
    have names : (c.inKeyOrder members).map (·.name) = members.map (·.name) := by
      have names := congrArg (List.map (·.name)) same
      rwa [List.map_map, List.map_map] at names
    have sorted := (inKeyOrder_sorted members).of_names names
    rw [inKeyOrder_eq sorted] at same
    exact ⟨sorted, fun q inside => (namedMember_eq_iff m q).mp (List.map_inj_left.mp same q inside)⟩
  · rintro ⟨sorted, plain⟩
    rw [inKeyOrder_eq sorted]
    exact List.map_congr_left fun q inside => (namedMember_eq_iff m q).mpr (plain q inside)

end

/-! ### Homomorphic aliases -/

theorem calls_deeper : ∃ k, calls = callsTo (k + 2 + 2) := ⟨maxNesting - 4, rfl⟩

theorem valueOf_eq {t : TypeId} (worked : c.Worked t) : valueOf p c t = c.comesTo t := by
  obtain ⟨k, deep⟩ := calls_deeper
  unfold valueOf Check.evaluate
  rw [deep, ask_evaluate_of_known (k + 3) worked]

theorem shape_of_known {t : TypeId} {shape : Shape} (known : c.shapes.find? t = some shape) :
    ((Check.shape t).outcome p c).1 = shape := by
  obtain ⟨k, deep⟩ := calls_deeper
  unfold Check.shape
  rw [deep, ask_shape_of_known (k + 3) known]

theorem namedMember_eq {m : MappedType} {q : Member} (worked : c.Worked q.type) :
    namedMember p c m q = c.keyMember m q := by
  unfold namedMember
  rw [valueOf_eq worked]
  rfl

/-- The members of an instance are made of the names of the members of the object type. -/
theorem members_aliasInstance (rest : c.AtRest p) {s : SymbolId} [Known c s] {param source : TypeId}
    {m : MappedType} (reads : ReadsMapped calls p c s param m)
    (maps : OfKeys ((readAlias calls s).outcome p c).2 param m)
    (object : (c.arena.data source).hasMembers = true) (unbound : ¬ c.arena.Occurs m.param source)
    (made : TypeId × Checker) (isMade : (aliasInstance calls s [source]).outcome p c = made)
    (found : List Member × Checker) (isFound : (Check.members made.1).outcome p made.2 = found)
    (own : Shape) (isOwn : ((Check.shape source).outcome p found.2).1 = own)
    (noString : own.stringIndex = none) (noNumber : own.numberIndex = none) :
    found.1 = (found.2.inKeyOrder own.members).map (namedMember p found.2 m) := by
  obtain ⟨idle, undeclared⟩ := rest.idle
  have free : s ∉ c.declaring := by simp [undeclared]
  have inside : source.index < c.arena.size := by
    refine Arena.lt_size_of_data (a := c.arena) rfl fun any => ?_
    rw [any] at object
    cases object
  obtain ⟨k, deep⟩ := calls_deeper
  obtain ⟨shape, listed, members⟩ := shape_aliasInstance k deep rest.ready idle reads free maps
    ⟨inside, object⟩ unbound isMade rfl
  have distinct : found.2.Distinct := by
    have made : made.2.Distinct := isMade ▸ (Check.Neat.ensures p c rest.distinct).1
    exact isFound ▸ (Check.Neat.ensures p _ made).1
  have answer : (Check.members made.1).outcome p made.2 =
      (((calls.ask (.shape made.1)).outcome p made.2).1.members,
        ((calls.ask (.shape made.1)).outcome p made.2).2) := rfl
  rw [isFound] at answer
  generalize (calls.ask (.shape made.1)).outcome p made.2 = result at answer listed members
  subst answer
  have same : own = shape := isOwn.symm.trans (shape_of_known listed)
  subst same
  obtain ⟨named, worked⟩ := members ⟨noString, noNumber, distinct.shapes _ _ listed⟩
  refine named.trans (List.map_congr_left fun q listed => (namedMember_eq (worked q ?_)).symm)
  exact (inKeyOrder_perm _ _).mem_iff.mp listed

/-- A mapped type over the keys of an object type has the members that it is meant to have just if
they are in the order of the keys, without documentation, and without the flags that it does not
change. -/
theorem members_mapped (p : Program) (c : Checker) (rest : c.AtRest p) {s : SymbolId}
    (known : Known c s) {param source : TypeId} {m : MappedType}
    (reads : ReadsMapped calls p c s param m)
    (maps : OfKeys ((readAlias calls s).outcome p c).2 param m)
    (object : (c.arena.data source).hasMembers = true) (unbound : ¬ c.arena.Occurs m.param source) :
    let made := (aliasInstance calls s [source]).outcome p c
    let found := (Check.members made.1).outcome p made.2
    let own := ((Check.shape source).outcome p found.2).1
    own.stringIndex = none → own.numberIndex = none →
      found.1 = (found.2.inKeyOrder own.members).map (namedMember p found.2 m) ∧
        (found.1 = own.members.map (meantMember p found.2 m) ↔
          found.2.KeyOrdered own.members ∧ ∀ q ∈ own.members, Plain m q) := by
  intro made found own noString noNumber
  have named := members_aliasInstance rest reads maps object unbound made rfl found rfl own rfl noString
    noNumber
  refine ⟨named, ?_⟩
  rw [named]
  exact map_namedMember_eq_iff m own.members

open Syntax in
/-- The alias for read-only types, an interface with a member `b` that need not be there and a
member `a`, and an alias for the names `a` and `b`. -/
def shelves : Program :=
  let item (decl : Decl) : Item := ⟨0, 0, none, {}, .exportDecl decl⟩
  let t : TypeExpr := .reference (.ident "T") []
  let keyed : TypeExpr := .mapped "P" (.keyOf t) (some (.indexed t (.reference (.ident "P") [])))
    none (some .add)
  let b : TypeMember := .property "b" (some (.intrinsic .string)) true false { description := some "second" }
  let a : TypeMember := .property "a" (some (.intrinsic .number)) false false { description := some "first" }
  { files := #[⟨⟨"/a.ts", #[], [item (.typeAlias ⟨"Readonly", [⟨"T", none, none⟩], keyed⟩),
      item (.interface ⟨"Shelf", [], [], [b, a]⟩),
      item (.typeAlias ⟨"Names", [], .union [.stringLiteral "a", .stringLiteral "b"]⟩)]⟩, "/a.ts", true⟩] }

/-- The state after the names and the interface were read. -/
def shelved : Checker :=
  let first := ((Request.declaredType ⟨2⟩).ask.outcome shelves (ofProgram shelves)).2
  ((Request.declaredType ⟨1⟩).ask.outcome shelves first).2

set_option maxRecDepth 20000 in
/-- The symbols are there when they are asked for. What the alias is read as, what the interface is,
and that it has no index signatures. -/
theorem shelved_read :
    let first := ((Request.declaredType ⟨2⟩).ask.outcome shelves (ofProgram shelves)).2
    let read := (readAlias calls ⟨0⟩).outcome shelves shelved
    let made := (aliasInstance calls ⟨0⟩ [⟨18⟩]).outcome shelves shelved
    let found := (Check.members made.1).outcome shelves made.2
    let own := ((Check.shape ⟨18⟩).outcome shelves found.2).1
    (((ofProgram shelves).bindings.symbol? ⟨2⟩).isSome ∧ (first.bindings.symbol? ⟨1⟩).isSome ∧
      (shelved.bindings.symbol? ⟨0⟩).isSome) ∧
    (read.1.2 = [⟨20⟩] ∧ read.2.arena.info read.1.1 =
        ⟨.mapped ⟨⟨21⟩, ⟨22⟩, ⟨23⟩, none, some .add⟩, some ⟨⟨0⟩, [⟨20⟩]⟩⟩ ∧
      read.2.arena.info ⟨20⟩ = ⟨.typeParameter ⟨"T", none, none⟩, none⟩ ∧
      read.2.arena.info ⟨21⟩ = ⟨.typeParameter ⟨"P", none, none⟩, none⟩ ∧
      read.2.arena.info ⟨22⟩ = ⟨.keyOf ⟨20⟩, none⟩ ∧
      read.2.arena.info ⟨23⟩ = ⟨.indexedAccess ⟨20⟩ ⟨21⟩, none⟩) ∧
    ((shelved.arena.data ⟨18⟩).hasMembers = true ∧ (shelved.arena.info ⟨18⟩).parts = []) ∧
    own.stringIndex = none ∧ own.numberIndex = none := by
  cbv

set_option maxRecDepth 20000 in
/-- What becomes of the members of the interface when it is made read-only. -/
theorem shelved_members :
    let made := (aliasInstance calls ⟨0⟩ [⟨18⟩]).outcome shelves shelved
    let found := (Check.members made.1).outcome shelves made.2
    let own := ((Check.shape ⟨18⟩).outcome shelves found.2).1
    let m : MappedType := ⟨⟨21⟩, ⟨22⟩, ⟨23⟩, none, some .add⟩
    found.1 = (found.2.inKeyOrder own.members).map (namedMember shelves found.2 m) ∧
      (found.1 = own.members.map (meantMember shelves found.2 m) ↔
        found.2.KeyOrdered own.members ∧ ∀ q ∈ own.members, Plain m q) := by
  obtain ⟨⟨first, second, third⟩, ⟨params, info, isParam, isKey, constraint, template⟩,
    ⟨object, noParts⟩, noString, noNumber⟩ := shelved_read
  have rest : shelved.AtRest shelves :=
    .ask (.ask (.refl _) (.declaredType ⟨2⟩) (known_symbol_iff.mpr first)) (.declaredType ⟨1⟩)
      (known_symbol_iff.mpr second)
  exact members_mapped shelves shelved rest (known_symbol_iff.mpr third) ⟨params, info, _, isParam⟩
    ⟨constraint, template, ⟨_, isParam⟩, ⟨_, isKey⟩, by decide⟩ object
    (Arena.not_occurs_of_no_parts noParts (by decide)) noString noNumber

set_option maxRecDepth 20000 in
/-- Made read-only, the members change places, `b` has to be there, and what they are documented with
is lost. -/
theorem shelved_members_changed :
    let made := (aliasInstance calls ⟨0⟩ [⟨18⟩]).outcome shelves shelved
    let found := (Check.members made.1).outcome shelves made.2
    let own := ((Check.shape ⟨18⟩).outcome shelves found.2).1
    own.members = [⟨"b", Arena.intrinsicId .string, true, false, "second"⟩,
        ⟨"a", Arena.intrinsicId .number, false, false, "first"⟩] ∧
      found.1 = [⟨"a", Arena.intrinsicId .number, false, true, ""⟩,
        ⟨"b", Arena.intrinsicId .string, false, true, ""⟩] := by
  cbv

end Checker

end ApiDocs
