import ApiDocs.Proofs.Nesting.Answers
import ApiDocs.Proofs.Nesting.Unfolding
import ApiDocs.Render

set_option autoImplicit false

/-!
Questions that nest without end. A generic alias that stands for the intersection of objects with
itself has no members that could be listed: those of an instance are those of a new instance, and those
of the new one are those of the next. However deep questions may nest, one is given up.
-/

namespace ApiDocs.Checker

open Check Syntax

variable {k : Nat} {p : Program} {c c' : Checker} {s : SymbolId} {t param own arg x u : TypeId}
  {others : List TypeId}

theorem gaveUp_bind {α β : Type} {m : Check α} {f : α → Check β}
    (first : (m.outcome p c).2.gaveUp = true) : ((m >>= f).outcome p c).2.gaveUp = true :=
  ((f _).kept p _).gaveUp first

/-- Listing the members of an object lists nothing for another type. -/
theorem unlisted_object (object : c.ObjectAt t) (differs : u ≠ t) (unlisted : c.Unlisted u) :
    Unlisted (((callsTo k).ask (.shape t)).outcome p c).2 u := by
  have asked : (callsTo k).ask (.shape t) =
      shapeOnce t (shapeOfData (callsWithin k) t) (denotes_shapeOfData (callsWithin k) t) := rfl
  rw [asked]
  by_cases unknown : c.shapes.find? t = none
  · by_cases running : t ∈ c.shapes.running
    · have busy : c.shapes.isRunning t = true := by simpa [Memo.isRunning] using running
      simp only [shapeOnce, once, unknown, busy, ↓reduceIte]
      exact unlisted
    · obtain ⟨shape, data⟩ := object
      let entered : Checker := { c with shapes := c.shapes.enter t }
      have done : (shapeOfData (callsWithin k) t).outcome p entered = (shape, entered) := by
        unfold shapeOfData
        rw [outcome_bind, outcome_data, show entered.arena.data t = _ from data]
        rfl
      rw [shapeOnce_fresh unknown running]
      have shapes := congrArg (fun r : Shape × Checker => r.2.shapes.leave t r.1) done
      have idle : ((c.shapes.enter t).leave t shape).running = c.shapes.running :=
        List.erase_cons_head t c.shapes.running
      refine ⟨?_, ?_⟩
      · exact (congrArg (Memo.find? · u) shapes).trans
          ((Memo.find?_leave_other _ _ _ _ differs).trans unlisted.1)
      · rw [show (_ : Memo TypeId Shape).running = c.shapes.running from
          (congrArg Memo.running shapes).trans idle]
        exact unlisted.2
  · obtain ⟨shape, found⟩ := Option.ne_none_iff_exists'.mp unknown
    rw [shapeOnce, once_of_known found]
    exact unlisted

theorem shapes_intersectShape (merged part : Shape) :
    ((intersectShape merged part).outcome p c).2.shapes = c.shapes := by
  unfold intersectShape
  rw [outcome_bind]
  refine foldlM_keeps (fun _ c' => c'.shapes = c.shapes) intersectMember part.members
    (fun members c' m _ same => ?_) merged.members c rfl
  unfold intersectMember
  split
  · exact same
  · exact same

/-- Whatever the alias is left alone for, listing its members gives a question up. -/
def GivesUp (k : Nat) (p : Program) (s : SymbolId) (t param own arg : TypeId)
    (others : List TypeId) : Prop :=
  ∀ c x u, Ready 0 p c → UnfoldsItself c s t param own arg others → LeftAlone c s param x u →
    c.Unlisted u → (((callsTo k).ask (.shape u)).outcome p c).2.gaveUp = true

/-- What is being listed has nothing to do with the alias. -/
theorem UnfoldsItself.entered (unfolds : UnfoldsItself c s t param own arg others)
    (shapes : Memo TypeId Shape) :
    UnfoldsItself { c with shapes } s t param own arg others := { unfolds with }

theorem LeftAlone.entered (left : LeftAlone c s param x u) (shapes : Memo TypeId Shape) :
    LeftAlone { c with shapes } s param x u := { left with }

/-- Objects are listed before the alias left alone, and leave it to be listed. -/
theorem gaveUp_members (gives : GivesUp k p s t param own arg others) {list : List TypeId}
    {u : TypeId}
    {merged : Shape} (ready : Ready 0 p c) (unfolds : UnfoldsItself c s t param own arg others)
    (objects : ∀ o ∈ list, c.ObjectAt o) (left : LeftAlone c s param x u) (unlisted : c.Unlisted u)
    (known : Known c merged) :
    (((list ++ [u]).foldlM (fun (merged : Shape) m => do
      intersectShape merged (← (callsTo k).ask (.shape m))) merged).outcome p c).2.gaveUp = true := by
  induction list generalizing c merged with
  | nil =>
      rw [List.nil_append, List.foldlM_cons]
      exact gaveUp_bind (gaveUp_bind (gives c x u ready unfolds left unlisted))
  | cons o rest ih =>
      have object := objects o List.mem_cons_self
      let m : Check Shape := do intersectShape merged (← (callsTo k).ask (.shape o))
      let listed := ((callsTo k).ask (.shape o)).outcome p c
      have started := ready.started
      have inside : Known c o := by
        obtain ⟨shape, data⟩ := object
        exact known_type_iff.mpr (Arena.lt_size_of_data data nofun)
      have safe : Safe p c m := .bind fun part c₁ before known => inferInstance
      have later : c.Later (m.outcome p c).2 := m.kept p c
      have differs : u ≠ o := by
        rintro rfl
        obtain ⟨args, info⟩ := left.info
        obtain ⟨shape, data⟩ := object
        rw [Arena.data, info] at data
        cases data
      have silent : (m.outcome p c).2.shapes = listed.2.shapes :=
        shapes_intersectShape merged listed.1
      have unlisted₁ : (m.outcome p c).2.Unlisted u := by
        have after : listed.2.Unlisted u := unlisted_object object differs unlisted
        exact ⟨silent ▸ after.1, silent ▸ after.2⟩
      rw [List.cons_append, List.foldlM_cons, outcome_bind]
      exact ih (ready.outcome safe) (unfolds.later later)
        (fun q listed => (objects q (List.mem_cons_of_mem o listed)).later later) (left.later later)
        unlisted₁
        (safe.outcome c (.refl c) ready.sound).2

/-- The members of a type that ends in the alias left alone. -/
theorem gaveUp_endsIn (gives : GivesUp k p s t param own arg others) {last : TypeId}
    (ready : Ready 0 p c)
    (unfolds : UnfoldsItself c s t param own arg others) (ends : EndsIn c s param last u)
    (unlisted : c.Unlisted u) : (((callsTo (k + 1)).ask (.shape u)).outcome p c).2.gaveUp = true := by
  obtain ⟨list, objects, data⟩ := ends.data
  obtain ⟨x, left⟩ := ends.left
  obtain ⟨args, info⟩ := left.info
  have inside : u.index < c.arena.size := Arena.lt_size_of_data data nofun
  let entered : Checker := { c with shapes := c.shapes.enter u }
  have differs : last ≠ u := by
    rintro rfl
    rw [Arena.data, info] at data
    cases data
  have free : entered.Unlisted last := by
    refine ⟨ends.unlisted.1, fun running => ?_⟩
    exact (List.mem_cons.mp running).elim differs ends.unlisted.2
  have empty : Known entered ({} : Shape) := inferInstance
  have members : ((shapeOfData (callsTo k) u).outcome p entered).2.gaveUp = true := by
    unfold shapeOfData
    rw [outcome_bind, outcome_data, show entered.arena.data u = _ from data]
    exact gaveUp_members gives (ready.enterShape inside (Nat.zero_le _)) (unfolds.entered _)
      objects (left.entered _) free empty
  rw [ask_shape k, shapeOnce_fresh unlisted.1 unlisted.2]
  exact members

/-- To list the members of a type that was left alone, the alias is put to its arguments first. -/
theorem shapeOfData_leftAlone {calls : Calls} {args : List TypeId} (free : s ∉ c.declaring)
    (info : c.arena.info u = ⟨.nominal s args, some ⟨s, [x]⟩⟩) :
    (shapeOfData calls u).outcome p c = (do
      let expanded ← aliasInstance calls s [x]
      let found ← deferredAlias? expanded
      if expanded = u || found.isSome then return {}
      else calls.ask (.shape expanded) : Check Shape).outcome
        p c := by
  have deferred : (deferredAlias? u).outcome p c = (some ⟨s, [x]⟩, c) := by
    have idle : c.declaring.contains s = false := by simpa using free
    unfold deferredAlias?
    rw [outcome_bind, outcome_data, Arena.data, info]
    dsimp only
    rw [outcome_bind, outcome_alias?, Arena.alias?, info]
    dsimp only
    rw [outcome_bind, outcome_state, idle]
    simp
  unfold shapeOfData
  rw [outcome_bind, outcome_data, Arena.data, info]
  dsimp only
  rw [bind_of_outcome deferred]

/-- Its members are those of what the alias comes to, if that is an intersection. -/
theorem shapeOfData_instance {calls : Calls} {args members : List TypeId} {v : TypeId}
    (free : s ∉ c.declaring) (info : c.arena.info u = ⟨.nominal s args, some ⟨s, [x]⟩⟩)
    (made : (aliasInstance calls s [x]).outcome p c = (v, c')) (differs : v ≠ u)
    (data : c'.arena.data v = .intersection members) :
    (shapeOfData calls u).outcome p c = (calls.ask (.shape v)).outcome p c' := by
  have plain : (deferredAlias? v).outcome p c' = (none, c') := by
    unfold deferredAlias?
    rw [outcome_bind, outcome_data, data]
    rfl
  rw [shapeOfData_leftAlone free info, bind_of_outcome made, bind_of_outcome plain, if_neg]
  simp [differs]

/-- The members of the alias left alone are those of an instance that ends in it. -/
theorem gaveUp_step (gives : GivesUp k p s t param own arg others) :
    GivesUp (k + 2) p s t param own arg others := by
  intro c x u ready unfolds left unlisted
  obtain ⟨args, info⟩ := left.info
  have inside : u.index < c.arena.size := inside_of_info info nofun
  let entered : Checker := { c with shapes := c.shapes.enter u }
  have start : Ready 0 p entered := ready.enterShape inside (Nat.zero_le _)
  have within : UnfoldsItself entered s t param own arg others := unfolds.entered _
  have := start.started
  have symbol : Known entered s := within.known
  have argument : Known entered [x] := known_list_iff.mpr fun y listed =>
    known_type_iff.mpr (List.mem_singleton.mp listed ▸ left.inside)
  have safe : Safe p entered (aliasInstance (callsTo (k + 1)) s [x]) := inferInstance
  have ready₁ := start.outcome safe
  have later : Later entered ((aliasInstance (callsTo (k + 1)) s [x]).outcome p entered).2 :=
    Check.kept _ p entered
  obtain ⟨⟨last, ends⟩, free⟩ := endsIn_aliasInstance (p := p) (k := k) start within left.inside
    left.other
  generalize made : (aliasInstance (callsTo (k + 1)) s [x]).outcome p entered = r
    at ready₁ later ends free
  obtain ⟨v, c₁⟩ := r
  obtain ⟨list, -, data⟩ := ends.data
  have differs : v ≠ u := by
    rintro rfl
    rw [Arena.data, later.info v inside, show entered.arena.info v = _ from info] at data
    cases data
  rw [ask_shape (k + 1), shapeOnce_fresh unlisted.1 unlisted.2,
    shapeOfData_instance within.free info made differs data]
  exact gaveUp_endsIn gives ready₁ (within.later later) ends free

theorem gaveUp_start : GivesUp 0 p s t param own arg others := by
  intro c x u ready unfolds left unlisted
  obtain ⟨args, info⟩ := left.info
  let entered : Checker := { c with shapes := c.shapes.enter u }
  have within : UnfoldsItself entered s t param own arg others := unfolds.entered _
  have first : ((aliasInstance (callsWithin 0) s [x]).outcome p entered).2.gaveUp = true :=
    gaveUp_bind rfl
  have members : ((shapeOfData (callsWithin 0) u).outcome p entered).2.gaveUp = true := by
    rw [shapeOfData_leftAlone within.free info]
    exact gaveUp_bind first
  have asked : (callsTo 0).ask (.shape u) =
      shapeOnce u (shapeOfData (callsWithin 0) u) (denotes_shapeOfData (callsWithin 0) u) := rfl
  rw [asked, shapeOnce_fresh unlisted.1 unlisted.2]
  exact members

/-- However deep questions may nest, one is given up when the members of the alias left alone are
listed. -/
theorem gaveUp_leftAlone (k : Nat) : GivesUp k p s t param own arg others := by
  have even (k : Nat) : GivesUp (2 * k) p s t param own arg others := by
    induction k with
    | zero => exact gaveUp_start
    | succ k ih => exact gaveUp_step ih
  intro c x u ready unfolds left unlisted
  refine Bool.of_not_eq_false fun done => ?_
  have deeper := even k c x u ready unfolds left unlisted
  rw [ask_of_deeper (by omega : k ≤ 2 * k) _ done, done] at deeper
  cases deeper

/-! ### Interfaces that extend the alias -/

theorem gaveUp_structureOnce {i : SymbolId} {m : Check Shape} (unknown : c.structures.find? i = none)
    (unasked : i ∉ c.structures.running)
    (inside : (m.outcome p { c with structures := c.structures.enter i }).2.gaveUp = true) :
    ((structureOnce i m).outcome p c).2.gaveUp = true := by
  have idle : c.structures.isRunning i = false := by simpa [Memo.isRunning] using unasked
  simp only [structureOnce, once, unknown, idle, Bool.false_eq_true, ↓reduceIte]
  exact inside

theorem Ready.enterStructure {n : Nat} (ready : Ready n p c) (i : SymbolId) :
    Ready n p { c with structures := c.structures.enter i } := by
  have tabled : Tabled p c { c with structures := c.structures.enter i } :=
    tabled_beside ready.sound { ready.sound.holds with } rfl rfl (fun _ => rfl) fun _ => rfl
  exact ⟨tabled.sound, ⟨ready.regular.unnamed, ready.regular.plain⟩, ready.start, ready.base,
    ready.evaluating, ready.listing⟩

/-- An interface that was read. It declares no members, and extends a symbol with a keyword as its
argument. -/
structure OnlyExtends (c : Checker) (i : SymbolId) (iface : TypeId) (s : SymbolId)
    (keyword : Intrinsic) :
    Prop where
  kind : c.bindings.kind? i = some .interface
  declared : c.declared[i]? = some iface
  params : c.typeParams[i]? = some []
  data : c.arena.data iface = .reference i []
  written : ∃ file name base text,
    (c.bindings.decls i).filterMap interfaceDecl? =
      [(file, ⟨name, [], [⟨.ident base, text, [.intrinsic keyword]⟩], []⟩)] ∧
    c.bindings.lookup file (c.bindings.parent? i) .type base = some s

variable {i : SymbolId} {iface : TypeId} {keyword : Intrinsic}

/-- The base is an instance of the alias. -/
theorem lowerHeritage_instance {scope : TypeScope} {base text : String}
    (found : c.bindings.lookup scope.file scope.inside .type base = some s)
    (kind : c.bindings.kind? s = some .typeAlias) :
    (lowerHeritage (callsTo (k + 1)) scope ⟨.ident base, text, [.intrinsic keyword]⟩).outcome p c =
      (aliasInstance (callsTo (k + 1)) s [Arena.intrinsicId keyword]).outcome p c := by
  have plain : (typeTarget? s).outcome p c = (some s, c) := by
    unfold typeTarget?
    rw [outcome_bind, outcome_kind?, kind]
    rfl
  have resolved : (resolveExpr scope (.ident base) .type).outcome p c = (some s, c) := by
    show (lookup scope .type base).outcome p c = _
    rw [← found]
    rfl
  have args : (lowerArgs (callsTo (k + 1)) scope [.intrinsic keyword]).outcome p c =
      ([Arena.intrinsicId keyword], c) := rfl
  unfold lowerHeritage
  rw [bind_of_outcome args, bind_of_outcome resolved]
  dsimp only
  unfold typeReference
  rw [bind_of_outcome plain]
  dsimp only
  rw [outcome_bind, outcome_kind?, kind]

/-- The members of the base are listed for those of the interface. -/
theorem gaveUp_interfaceShape (ready : Ready 0 p c)
    (unfolds : UnfoldsItself c s t param own arg others) (only : OnlyExtends c i iface s keyword) :
    ((interfaceShape (callsTo (k + 1)) i).outcome p c).2.gaveUp = true := by
  obtain ⟨file, name, base, text, decls, found⟩ := only.written
  let scope : TypeScope := { file, inside := c.bindings.parent? i, this := some iface }
  have params := typeParams_of_known (p := p) k only.params
  have declared : ((callsTo (k + 1)).ask (.declaredType i)).outcome p c = (iface, c) := by
    change (declaredType (callsTo k) i).outcome p c = _
    unfold declaredType
    rw [outcome_bind, outcome_kind?, only.kind]
    simp only [declareAs, only.declared]
  have inside : (Arena.intrinsicId keyword).index < c.arena.size :=
    Arena.index_intrinsicId_lt ready.sound.houses keyword
  have other : Arena.intrinsicId keyword ≠ param := by
    rintro rfl
    obtain ⟨y, isParam⟩ := unfolds.isParam
    have keyword := ready.keywords keyword
    rw [Arena.data, isParam] at keyword
    cases keyword
  have := ready.started
  have : Known c s := unfolds.known
  have : Known c [Arena.intrinsicId keyword] := inferInstance
  have safe : Safe p c (aliasInstance (callsTo (k + 1)) s [Arena.intrinsicId keyword]) :=
    inferInstance
  have ready₁ := ready.outcome safe
  have later := (aliasInstance (callsTo (k + 1)) s [Arena.intrinsicId keyword]).kept p c
  obtain ⟨⟨last, ends⟩, free⟩ := endsIn_aliasInstance (p := p) (k := k) ready unfolds inside other
  have members := gaveUp_endsIn (gaveUp_leftAlone k) ready₁ (unfolds.later later) ends free
  have lowered : (lowerHeritage (callsTo (k + 1)) scope
      ⟨.ident base, text, [.intrinsic keyword]⟩).outcome p c =
      _ := lowerHeritage_instance found unfolds.kind
  generalize (aliasInstance (callsTo (k + 1)) s [Arena.intrinsicId keyword]).outcome p c = r
    at members lowered
  obtain ⟨v, c₁⟩ := r
  have opened : (interfaceShape (callsTo (k + 1)) i).outcome p c =
      ((callsTo (k + 1)).ask (.shape v) >>= fun base =>
        return (mergeDeclaration {} {}).inherit base : Check Shape).outcome p c₁ := by
    unfold interfaceShape
    rw [bind_of_outcome params, bind_of_outcome declared, outcome_bind, outcome_decls, decls]
    simp only [List.mapM_cons, List.mapM_nil, bind_assoc, pure_bind]
    rw [outcome_bind, outcome_scopeIn]
    simp only [List.foldlM_cons, List.foldlM_nil, pure_bind, bind_pure, lowerMembers,
      TypeScope.withParams, List.map_nil, List.zip_nil_left, List.reverse_nil, List.nil_append]
    rw [bind_of_outcome lowered]
  exact (congrArg (fun r : Shape × Checker => r.2.gaveUp) opened).trans (gaveUp_bind members)

theorem gaveUp_structure (ready : Ready 0 p c) (unfolds : UnfoldsItself c s t param own arg others)
    (only : OnlyExtends c i iface s keyword) (unknown : c.structures.find? i = none)
    (unasked : i ∉ c.structures.running) :
    (((callsTo (k + 2)).ask (.structure_ i)).outcome p c).2.gaveUp = true := by
  have asked : (callsTo (k + 2)).ask (.structure_ i) = structureOf (callsTo (k + 1)) i :=
    ask_callsTo _ _
  rw [asked]
  refine gaveUp_structureOnce unknown unasked ?_
  simp only [outcome_bind, outcome_kind?, only.kind]
  exact gaveUp_interfaceShape (ready.enterStructure i) { unfolds with } { only with }

/-- However deep questions may nest, one is given up when the members of an interface are listed that
extends the alias. -/
theorem gaveUp_interface (n : Nat) (ready : Ready 0 p c)
    (unfolds : UnfoldsItself c s t param own arg others) (only : OnlyExtends c i iface s keyword)
    (unlisted : c.Unlisted iface) (unknown : c.structures.find? i = none)
    (unasked : i ∉ c.structures.running) :
    (((callsTo n).ask (.shape iface)).outcome p c).2.gaveUp = true := by
  have deep (k : Nat) : (((callsTo (k + 3)).ask (.shape iface)).outcome p c).2.gaveUp = true := by
    have inside : iface.index < c.arena.size := Arena.lt_size_of_data only.data nofun
    let entered : Checker := { c with shapes := c.shapes.enter iface }
    have members : (((callsTo (k + 2)).ask (.structure_ i)).outcome p entered).2.gaveUp = true :=
      gaveUp_structure (ready.enterShape inside (Nat.zero_le _)) (unfolds.entered _) { only with }
        unknown unasked
    rw [ask_shape (k + 2), shapeOnce_fresh unlisted.1 unlisted.2]
    dsimp only
    unfold shapeOfData
    rw [outcome_bind, outcome_data, show entered.arena.data iface = _ from only.data]
    exact gaveUp_bind members
  refine Bool.of_not_eq_false fun done => ?_
  have deeper := deep n
  rw [ask_of_deeper (by omega : n ≤ n + 3) _ done, done] at deeper
  cases deeper

/-- A type is shown as an interface by its members, and those of this one are never done. -/
theorem gaveUp_declaredBound (ready : Ready 0 p c)
    (unfolds : UnfoldsItself c s t param own arg others)
    (only : OnlyExtends c i iface s keyword) (unlisted : c.Unlisted iface)
    (unknown : c.structures.find? i = none) (unasked : i ∉ c.structures.running) :
    ((Render.declaredBound iface).outcome p c).2.gaveUp = true := by
  have asked : ((callSignatures iface).outcome p c).2.gaveUp = true :=
    gaveUp_bind (gaveUp_interface maxNesting ready unfolds only unlisted unknown unasked)
  have opened : (Render.declaredBound iface).outcome p c =
      (Render.objectBound Render.bound iface).outcome p c := by
    unfold Render.declaredBound
    rw [outcome_bind, outcome_data, only.data]
    dsimp only
    rw [outcome_bind, outcome_kind?, only.kind, if_pos rfl]
  exact (congrArg (fun r : Bound × Checker => r.2.gaveUp) opened).trans (gaveUp_bind asked)

/-- The program `type F<T> = { a: T } & F<T[]>` with `interface I extends F<string> {}`. -/
def endless : Program :=
  let decl : AliasDecl := ⟨"F", [⟨"T", none, none⟩], .intersection
    [.members [.property "a" (some (nameExpr "T")) false false {}],
      .reference (.ident "F") [.array (nameExpr "T")]]⟩
  let extending : InterfaceDecl := ⟨"I", [], [⟨.ident "F", "F", [.intrinsic .string]⟩], []⟩
  { files := #[⟨⟨"/a.ts", #[], [⟨0, 0, none, {}, .exportDecl (.typeAlias decl)⟩,
      ⟨0, 0, none, {}, .exportDecl (.interface extending)⟩]⟩, "/a.ts", true⟩] }

/-- The state after both were read. -/
def endlessRead : Checker :=
  ((Request.declaredType ⟨1⟩).ask.outcome endless
    ((Request.declaredType ⟨0⟩).ask.outcome endless (ofProgram endless)).2).2

set_option maxRecDepth 20000 in
/-- Both are there when they are asked for, and how they were read. -/
theorem endless_read :
    let first := ((Request.declaredType ⟨0⟩).ask.outcome endless (ofProgram endless)).2
    let c := endlessRead
    ((ofProgram endless).bindings.symbol? ⟨0⟩).isSome ∧ (first.bindings.symbol? ⟨1⟩).isSome ∧
    (c.bindings.kind? ⟨0⟩ = some .typeAlias ∧
      ((c.bindings.decls ⟨0⟩).findSome? aliasDecl?).isSome = true ∧
      c.declaring = [] ∧ c.declared[(⟨0⟩ : SymbolId)]? = some ⟨14⟩ ∧
      c.typeParams[(⟨0⟩ : SymbolId)]? = some [⟨15⟩]) ∧
    (c.arena.info ⟨14⟩ = ⟨.intersection [⟨16⟩, ⟨18⟩], some ⟨⟨0⟩, [⟨15⟩]⟩⟩ ∧
      c.arena.info ⟨15⟩ = ⟨.typeParameter { name := "T" }, none⟩ ∧
      c.arena.data ⟨16⟩ = .object { members := [⟨"a", ⟨15⟩, false, false, ""⟩] } ∧
      c.arena.data ⟨17⟩ = .unresolved "Array" [⟨15⟩] ∧
      c.arena.info ⟨18⟩ = ⟨.nominal ⟨0⟩ [⟨17⟩], some ⟨⟨0⟩, [⟨17⟩]⟩⟩) ∧
    (c.bindings.kind? ⟨1⟩ = some .interface ∧ c.declared[(⟨1⟩ : SymbolId)]? = some ⟨20⟩ ∧
      c.typeParams[(⟨1⟩ : SymbolId)]? = some [] ∧ c.arena.data ⟨20⟩ = .reference ⟨1⟩ [] ∧
      (c.bindings.decls ⟨1⟩).filterMap interfaceDecl? =
        [(⟨0⟩, ⟨"I", [], [⟨.ident "F", "F", [.intrinsic .string]⟩], []⟩)] ∧
      c.bindings.lookup ⟨0⟩ (c.bindings.parent? ⟨1⟩) .type "F" = some ⟨0⟩) ∧
    (c.shapes.find? ⟨20⟩ = none ∧ c.shapes.running = []) ∧
    (c.structures.find? ⟨1⟩ = none ∧ c.structures.running = []) ∧ c.gaveUp = false := by
  cbv

/-- No depth is enough to show the interface, though no question was given up before: its base is an
instance of the alias, the last part of which is another instance. -/
theorem endless_declaredBound :
    endlessRead.AtRest endless ∧ endlessRead.gaveUp = false ∧
    (∀ n, (((callsTo n).ask (.shape ⟨20⟩)).outcome endless endlessRead).2.gaveUp = true) ∧
    ((Render.declaredBound ⟨20⟩).outcome endless endlessRead).2.gaveUp = true := by
  obtain ⟨alias_, interface_, ⟨kind, declares, idle, declared, params⟩,
    ⟨body, param, object, argument, own⟩,
    ⟨kind₁, declared₁, params₁, data₁, written, found⟩, ⟨unlisted, listing⟩, ⟨unknown, asked⟩,
    quiet⟩ :=
    endless_read
  have rest : endlessRead.AtRest endless :=
    .ask (.ask (.refl _) (.declaredType ⟨0⟩) (known_symbol_iff.mpr alias_)) (.declaredType ⟨1⟩)
      (known_symbol_iff.mpr interface_)
  have ready : Ready 0 endless endlessRead := { rest.ready with
    base := Nat.zero_le _
    evaluating := fun t running => ⟨Nat.zero_le _, (rest.ready.evaluating t running).2⟩
    listing := fun t running => ⟨Nat.zero_le _, (rest.ready.listing t running).2⟩ }
  have unfolds : UnfoldsItself endlessRead ⟨0⟩ ⟨14⟩ ⟨15⟩ ⟨18⟩ ⟨17⟩ [⟨16⟩] := {
    kind, declares, declared, params
    free := idle ▸ List.not_mem_nil
    isParam := ⟨_, param⟩
    body
    nonempty := List.cons_ne_nil _ _
    objects := fun o listed => List.mem_singleton.mp listed ▸ ⟨_, object⟩
    itself := own
    argument := ⟨_, .unresolved "Array", argument⟩ }
  have only : OnlyExtends endlessRead ⟨1⟩ ⟨20⟩ ⟨0⟩ .string :=
    ⟨kind₁, declared₁, params₁, data₁, _, _, _, _, written, found⟩
  have free : endlessRead.Unlisted ⟨20⟩ := ⟨unlisted, listing ▸ List.not_mem_nil⟩
  have unasked : (⟨1⟩ : SymbolId) ∉ endlessRead.structures.running := asked ▸ List.not_mem_nil
  exact ⟨rest, quiet, fun n => gaveUp_interface n ready unfolds only free unknown unasked,
    gaveUp_declaredBound ready unfolds only free unknown unasked⟩

end ApiDocs.Checker
