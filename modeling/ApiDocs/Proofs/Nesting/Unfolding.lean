import ApiDocs.Proofs.Alias.Expansion

set_option autoImplicit false

/-!
Generic aliases that stand for the intersection of objects with themselves. Inside of its own body the
alias is left alone. Where an argument is put in, the objects become other objects, and the alias left
alone becomes a new type: the alias left alone for the argument with the new one in it.
-/

namespace ApiDocs

/-! ### Substitution that keeps the form of a type -/

/-- Types that are made again of their parts, and of nothing else. -/
def TypeData.keepsForm : TypeData → Bool
  | .union _ => false
  | .intersection _ => false
  | .keyOf _ => false
  | .indexedAccess _ _ => false
  | .mapped _ => false
  | _ => true

theorem TypeData.not_isOperator {data : TypeData} (form : data.keepsForm = true) :
    data.isOperator = false := by
  cases data <;> first | rfl | cases form

namespace Arena

/-- Types that are no intersections are members themselves, each once. -/
theorem flattenIntersection_plain {a : Arena} {members : List TypeId}
    (plain : ∀ m ∈ members, ∀ inner, a.data m ≠ .intersection inner) :
    a.flattenIntersection members = members.foldl addDistinct [] := by
  unfold flattenIntersection
  congr 1
  induction members with
  | nil => rfl
  | cons m rest ih =>
      rw [List.flatMap_cons, ih fun q listed => plain q (List.mem_cons_of_mem m listed)]
      split
      · rename_i inner data
        exact absurd data (plain m List.mem_cons_self inner)
      · rfl

end Arena

namespace Checker

open Check

variable {k : Nat} {p : Program} {c c' : Checker}

theorem keepsForm_mapParts (f : Substitution → TypeId → Check TypeId) (map : Substitution)
    (data : TypeData) (p : Program) (c : Checker) :
    ((mapParts f map data).outcome p c).1.keepsForm = data.keepsForm := by
  cases data <;> rfl

theorem evaluateData_plain_outcome {calls : Calls} {t : TypeId}
    (plain : (c.arena.data t).isOperator = false) :
    (evaluateData calls t).outcome p c = (t, c) := by
  unfold evaluateData
  rw [outcome_bind, outcome_data]
  cases data : c.arena.data t with
  | keyOf | indexedAccess | mapped =>
      rw [data] at plain
      cases plain
  | _ => rfl

/-- A type that is no operator stands for itself. To find that out, no members are listed. -/
theorem ask_evaluate_plain {t : TypeId} (regular : c.Regular)
    (plain : (c.arena.data t).isOperator = false) :
    let r := ((callsTo k).ask (.evaluate t)).outcome p c
    r.1 = t ∧ r.2.shapes = c.shapes := by
  have asked : (callsTo k).ask (.evaluate t) =
      evaluateOnce t (evaluateData (callsWithin k) t) (evaluateData_plain _ t) := rfl
  rw [asked]
  refine ⟨evaluateOnce_plain regular plain, ?_⟩
  by_cases unknown : c.evaluated.find? t = none
  · by_cases running : t ∈ c.evaluated.running
    · have busy : c.evaluated.isRunning t = true := by simpa [Memo.isRunning] using running
      simp only [evaluateOnce, once, unknown, busy, ↓reduceIte]
    · let entered : Checker := { c with evaluated := c.evaluated.enter t }
      have done : (evaluateData (callsWithin k) t).outcome p entered = (t, entered) :=
        evaluateData_plain_outcome plain
      rw [evaluateOnce_fresh unknown running]
      exact congrArg (fun r : TypeId × Checker => r.2.shapes) done
  · obtain ⟨r, found⟩ := Option.ne_none_iff_exists'.mp unknown
    rw [evaluateOnce, once_of_known found]

/-- A type that was just made, and is no operator, is worked out. -/
theorem evaluate_new (regular : c.Regular) {info : TypeInfo} (plain : info.data.isOperator = false) :
    let made : Checker := { c with arena := (c.arena.addInfo info).2 }
    let r := ((callsTo k).ask (.evaluate ⟨c.arena.size⟩)).outcome p made
    r.1 = ⟨c.arena.size⟩ ∧ r.2.shapes = c.shapes ∧ r.2.arena.info ⟨c.arena.size⟩ = info := by
  intro made r
  have added : Work 0 c made := .types (c.arena.extends_addInfo info)
  have here : made.arena.info ⟨c.arena.size⟩ = info := Arena.info_addInfo_self _ _
  obtain ⟨own, silent⟩ := ask_evaluate_plain (k := k) (p := p) (added.regular (Nat.zero_le _) regular)
    (by rw [Arena.data, here]; exact plain : (made.arena.data ⟨c.arena.size⟩).isOperator = false)
  have inside : (⟨c.arena.size⟩ : TypeId).index < made.arena.size := by
    rw [Arena.size_addInfo]
    exact Nat.lt_succ_self _
  have kept := ((callsTo k).ask (.evaluate ⟨c.arena.size⟩)).kept p made
  exact ⟨own, silent, (kept.info _ inside).trans here⟩

/-- A type that keeps its form is made as it is, and as a new type under a name. -/
theorem rebuild_named (regular : c.Regular) {data : TypeData} (form : data.keepsForm = true)
    (ref : AliasRef) :
    let r := (rebuild (callsTo k) data (some ref)).outcome p c
    r.1 = ⟨c.arena.size⟩ ∧ r.2.shapes = c.shapes ∧ r.2.arena.info r.1 = ⟨data, some ref⟩ := by
  let made : Checker := { c with arena := (c.arena.addInfo ⟨data, some ref⟩).2 }
  let asked := ((callsTo k).ask (.evaluate ⟨c.arena.size⟩)).outcome p made
  have opened : (rebuild (callsTo k) data (some ref)).outcome p c = (⟨c.arena.size⟩, asked.2) := by
    cases data with
    | union | intersection | keyOf | indexedAccess | mapped => cases form
    | _ => rfl
  obtain ⟨-, silent, info⟩ := evaluate_new (k := k) (p := p) regular
    (TypeData.not_isOperator form : (TypeInfo.mk data (some ref)).data.isOperator = false)
  rw [opened]
  exact ⟨rfl, silent, info⟩

theorem data_rebuild (regular : c.Regular) {data : TypeData} (form : data.keepsForm = true)
    (writtenAs : Option AliasRef) :
    let r := (rebuild (callsTo k) data writtenAs).outcome p c
    r.2.arena.data r.1 = data := by
  cases writtenAs with
  | some ref => exact congrArg TypeInfo.data (rebuild_named regular form ref).2.2
  | none =>
      let made : Checker := { c with arena := (c.arena.addInfo ⟨data, none⟩).2 }
      let asked := ((callsTo k).ask (.evaluate ⟨c.arena.size⟩)).outcome p made
      have opened : (∃ s args, data = .reference s args) ∨
          (rebuild (callsTo k) data none).outcome p c = asked := by
        cases data with
        | union | intersection | keyOf | indexedAccess | mapped => cases form
        | reference s args => exact .inl ⟨s, args, rfl⟩
        | _ => exact .inr rfl
      obtain ⟨s, args, rfl⟩ | opened := opened
      · exact Arena.data_intern regular.keyed (.reference s args)
      · obtain ⟨own, -, info⟩ := evaluate_new (k := k) (p := p) regular
          (TypeData.not_isOperator form : (TypeInfo.mk data none).data.isOperator = false)
        dsimp only
        rw [opened, show asked.1 = ⟨c.arena.size⟩ from own]
        exact congrArg TypeInfo.data info

/-- Substitution keeps the form of a type; the parts are those that substitution gives. -/
theorem data_substituteAt {j : Nat} {map : Substitution} {t : TypeId} (apart : map.lookup t = none)
    (inside : t.index < c.arena.size) (form : (c.arena.data t).keepsForm = true)
    (regular : c.Regular) :
    let r := (substituteAt (callsTo k) (j + 1) map t).outcome p c
    ∃ c₁, r.2.arena.data r.1 =
      ((mapParts (substituteAt (callsTo k) j) map (c.arena.data t)).outcome p c₁).1 := by
  let f := substituteAt (callsTo k) j
  let written := ((c.arena.info t).writtenAs.mapM fun a =>
    (return { a with args := ← a.args.mapM (f map) } : Check AliasRef)).outcome p c
  let parts := (mapParts f map (c.arena.data t)).outcome p written.2
  have whole : (substituteAt (callsTo k) (j + 1) map t).outcome p c =
      (if parts.1 = c.arena.data t ∧ written.1 = (c.arena.info t).writtenAs then pure t
        else rebuild (callsTo k) parts.1 written.1).outcome p parts.2 := by
    unfold substituteAt
    rw [apart]
    rfl
  refine ⟨written.2, ?_⟩
  rw [whole]
  split
  · rename_i same
    have first : c.Later written.2 := Check.kept _ p c
    have later : c.Later parts.2 := first.trans (Check.kept _ p written.2)
    exact (Arena.data_eq (later.info t inside)).trans same.1.symm
  · have regular : parts.2.Regular :=
      (Check.work _ p written.2).regular (Nat.le_refl _)
      ((Check.work _ p c).regular (Nat.le_refl _) regular)
    exact data_rebuild regular ((keepsForm_mapParts f map _ p written.2).trans form) _

/-- A type with a name is made again under it, if substitution changes what it is written with. -/
theorem substituteAt_named {calls : Calls} {j : Nat} {map : Substitution} {t : TypeId}
    {data made : TypeData}
    {s : SymbolId} {args written : List TypeId} {c₁ c₂ : Checker} (apart : map.lookup t = none)
    (info : c.arena.info t = ⟨data, some ⟨s, args⟩⟩)
    (first : (args.mapM (substituteAt calls j map)).outcome p c = (written, c₁))
    (parts : (mapParts (substituteAt calls j) map data).outcome p c₁ = (made, c₂))
    (changed : written ≠ args) :
    (substituteAt calls (j + 1) map t).outcome p c =
      (rebuild calls made (some ⟨s, written⟩)).outcome p c₂ := by
  have named : ((some (AliasRef.mk s args)).mapM fun a =>
      (return { a with args := ← a.args.mapM (substituteAt calls j map) } :
        Check AliasRef)).outcome p c =
        (some ⟨s, written⟩, c₁) := by
    change ((fun args => some (AliasRef.mk s args)) <$>
      args.mapM (substituteAt calls j map)).outcome p c = _
    rw [outcome_map, first]
  unfold substituteAt
  rw [apart]
  dsimp only
  rw [outcome_bind, outcome_info, info]
  dsimp only
  rw [bind_of_outcome named, bind_of_outcome parts, if_neg]
  rintro ⟨-, same⟩
  exact changed (congrArg AliasRef.args (Option.some.inj same))

/-! ### Aliases that stand for themselves -/

/-- Types that are written with one type: a reference, or a name that stands for nothing known. -/
inductive WrittenWith : (List TypeId → TypeData) → Prop where
  | reference (s : SymbolId) : WrittenWith (.reference s)
  | unresolved (name : String) : WrittenWith (.unresolved name)

variable {s : SymbolId} {t param own arg x u : TypeId} {others : List TypeId}

def ObjectAt (c : Checker) (t : TypeId) : Prop := ∃ shape, c.arena.data t = .object shape

theorem ObjectAt.inside (object : c.ObjectAt t) : t.index < c.arena.size := by
  obtain ⟨shape, data⟩ := object
  exact Arena.lt_size_of_data data fun same => by cases same

theorem ObjectAt.later (object : c.ObjectAt t) (later : c.Later c') : c'.ObjectAt t := by
  have inside := object.inside
  obtain ⟨shape, data⟩ := object
  exact ⟨shape, (Arena.data_eq (later.info t inside)).trans data⟩

/-- A generic alias that was read. It stands for the intersection of objects with itself, for an
argument that its type parameter is written in. -/
structure UnfoldsItself (c : Checker) (s : SymbolId) (t param own arg : TypeId)
    (others : List TypeId) :
    Prop where
  kind : c.bindings.kind? s = some .typeAlias
  declares : ((c.bindings.decls s).findSome? aliasDecl?).isSome = true
  free : s ∉ c.declaring
  declared : c.declared[s]? = some t
  params : c.typeParams[s]? = some [param]
  isParam : ∃ y, c.arena.info param = ⟨.typeParameter y, none⟩
  body : c.arena.info t = ⟨.intersection (others ++ [own]), some ⟨s, [param]⟩⟩
  nonempty : others ≠ []
  objects : ∀ o ∈ others, c.ObjectAt o
  itself : c.arena.info own = ⟨.nominal s [arg], some ⟨s, [arg]⟩⟩
  argument : ∃ wrap, WrittenWith wrap ∧ c.arena.data arg = wrap [param]

/-- The alias for an argument other than its parameter, left alone until its members are needed. -/
structure LeftAlone (c : Checker) (s : SymbolId) (param x u : TypeId) : Prop where
  info : ∃ args, c.arena.info u = ⟨.nominal s args, some ⟨s, [x]⟩⟩
  inside : x.index < c.arena.size
  other : x ≠ param

theorem WrittenWith.keepsForm {wrap : List TypeId → TypeData} (wraps : WrittenWith wrap)
    (args : List TypeId) :
    (wrap args).keepsForm = true := by
  cases wraps <;> rfl

theorem WrittenWith.inside {wrap : List TypeId → TypeData} (wraps : WrittenWith wrap)
    {args : List TypeId} (data : c.arena.data u = wrap args) : u.index < c.arena.size := by
  refine Arena.lt_size_of_data data ?_
  cases wraps <;> exact nofun

theorem UnfoldsItself.known (unfolds : UnfoldsItself c s t param own arg others) : Known c s := by
  obtain ⟨symbol, found, -⟩ := Option.map_eq_some_iff.mp unfolds.kind
  exact known_symbol_iff.mpr (Option.isSome_iff_exists.mpr ⟨symbol, found⟩)

theorem WrittenWith.injective {wrap : List TypeId → TypeData} (wraps : WrittenWith wrap)
    {t u : TypeId} (same : wrap [t] = wrap [u]) : t = u := by
  cases wraps <;> cases same <;> rfl

theorem WrittenWith.ne_parameter {wrap : List TypeId → TypeData} (wraps : WrittenWith wrap)
    (args : List TypeId) : (wrap args).isParameter = false := by
  cases wraps <;> rfl

theorem LeftAlone.later (left : LeftAlone c s param x u) (later : c.Later c') :
    LeftAlone c' s param x u := by
  obtain ⟨args, info⟩ := left.info
  exact ⟨⟨args, (later.info u (inside_of_info info nofun)).trans info⟩,
    Nat.lt_of_lt_of_le left.inside later.size, left.other⟩

theorem UnfoldsItself.later (unfolds : UnfoldsItself c s t param own arg others)
    (later : c.Later c') :
    UnfoldsItself c' s t param own arg others := by
  obtain ⟨symbol, found, -⟩ := Option.map_eq_some_iff.mp unfolds.kind
  have same : c'.bindings.symbol? s = c.bindings.symbol? s :=
    (later.bindings.symbol s symbol found).trans found.symm
  have decls : c'.bindings.decls s = c.bindings.decls s :=
    congrArg (fun x => (Option.map Symbol.decls x).getD []) same
  have stays {t : TypeId} {info : TypeInfo} (here : c.arena.info t = info)
      (some : info.data ≠ .intrinsic .any) : c'.arena.info t = info :=
    (later.info t (inside_of_info here some)).trans here
  obtain ⟨wrap, wraps, data⟩ := unfolds.argument
  obtain ⟨y, isParam⟩ := unfolds.isParam
  exact {
    kind := (congrArg (Option.map Symbol.kind) same).trans unfolds.kind
    declares := decls ▸ unfolds.declares
    free := later.declaring ▸ unfolds.free
    declared := later.declared s t unfolds.declared
    params := later.typeParams s _ unfolds.params
    isParam := ⟨y, stays isParam nofun⟩
    body := stays unfolds.body nofun
    nonempty := unfolds.nonempty
    objects := fun o listed => (unfolds.objects o listed).later later
    itself := stays unfolds.itself nofun
    argument := ⟨wrap, wraps, (Arena.data_eq (later.info arg (wraps.inside data))).trans data⟩ }

/-! ### One instance -/

theorem UnfoldsItself.param_inside (unfolds : UnfoldsItself c s t param own arg others) :
    param.index < c.arena.size := by
  obtain ⟨y, isParam⟩ := unfolds.isParam
  exact inside_of_info isParam fun same => by cases same

/-- The alias is put to an argument that is there. -/
theorem UnfoldsItself.entries (unfolds : UnfoldsItself c s t param own arg others)
    (inside : x.index < c.arena.size) : Known c [(param, x)] := by
  refine known_list_iff.mpr fun entry listed => ?_
  rw [List.mem_singleton.mp listed]
  exact known_prod_iff.mpr ⟨known_type_iff.mpr unfolds.param_inside, known_type_iff.mpr inside⟩

/-- Nothing but type parameters is looked up. -/
theorem UnfoldsItself.lookup (unfolds : UnfoldsItself c s t param own arg others)
    (differs : (c.arena.data u).isParameter = false) : [(param, x)].lookup u = none := by
  obtain ⟨y, isParam⟩ := unfolds.isParam
  have apart : u ≠ param := by
    rintro rfl
    rw [Arena.data, isParam] at differs
    cases differs
  simp [List.lookup, beq_eq_false_iff_ne.mpr apart]

/-- The argument is put in for the parameter where it is written. -/
theorem data_wrapped {wrap : List TypeId → TypeData} (wraps : WrittenWith wrap) (regular : c.Regular)
    (unfolds : UnfoldsItself c s t param own arg others) (data : c.arena.data arg = wrap [param])
    (j : Nat) :
    let r := (substituteAt (callsTo k) (j + 1) [(param, x)] arg).outcome p c
    r.2.arena.data r.1 = wrap [x] := by
  have apart : [(param, x)].lookup arg = none := unfolds.lookup (data ▸ wraps.ne_parameter _)
  obtain ⟨c₁, same⟩ := data_substituteAt (k := k) (p := p) (j := j) apart (wraps.inside data)
    (data ▸ wraps.keepsForm _) regular
  have put : ((mapParts (substituteAt (callsTo k) j) [(param, x)] (wrap [param])).outcome p c₁).1 =
      wrap [x] := by
    have key : (substituteAt (callsTo k) j [(param, x)] param).outcome p c₁ = (x, c₁) :=
      substituteAt_key _ j List.lookup_cons_self
    cases wraps <;>
      simp only [mapParts, List.mapM_cons, List.mapM_nil, bind_assoc, pure_bind, bind_of_outcome key,
        outcome_pure]
  exact same.trans (data ▸ put)

/-- Objects stay objects. -/
theorem object_substituteAt (j : Nat) {map : Substitution} {o : TypeId} (regular : c.Regular)
    (apart : map.lookup o = none) (object : c.ObjectAt o) :
    let r := (substituteAt (callsTo k) j map o).outcome p c
    r.2.ObjectAt r.1 := by
  have inside := object.inside
  obtain ⟨shape, data⟩ := object
  cases j with
  | zero =>
      have same : (substituteAt (callsTo k) 0 map o).outcome p c = (o, c) := by
        rw [substituteAt, apart]
        rfl
      exact ⟨shape, by rw [same]; exact data⟩
  | succ j =>
      obtain ⟨c₁, put⟩ := data_substituteAt (k := k) (p := p) (j := j) apart inside
        (by rw [data]; rfl) regular
      rw [data] at put
      exact ⟨_, put⟩

theorem objects_substituteAt (j : Nat) {map : Substitution} (regular : c.Regular)
    (apart : ∀ o ∈ others, map.lookup o = none) (objects : ∀ o ∈ others, c.ObjectAt o)
    {members : List TypeId}
    (made : (others.mapM (substituteAt (callsTo k) j map)).outcome p c = (members, c')) :
    members.length = others.length ∧ ∀ o ∈ members, c'.ObjectAt o := by
  induction others generalizing c members with
  | nil =>
      cases made
      exact ⟨rfl, nofun⟩
  | cons o rest ih =>
      have object := object_substituteAt (k := k) (p := p) j regular (apart o List.mem_cons_self)
        (objects o List.mem_cons_self)
      rw [List.mapM_cons, outcome_bind] at made
      generalize first : (substituteAt (callsTo k) j map o).outcome p c = r at made object
      obtain ⟨q, c₁⟩ := r
      have after : c.Later c₁ := by
        have kept := (substituteAt (callsTo k) j map o).kept p c
        rwa [first] at kept
      have regular₁ : c₁.Regular := by
        have kept := ((substituteAt (callsTo k) j map o).work p c).regular (Nat.le_refl _) regular
        rwa [first] at kept
      generalize next : (rest.mapM (substituteAt (callsTo k) j map)).outcome p c₁ = r
      obtain ⟨list, c₂⟩ := r
      rw [bind_of_outcome next] at made
      cases made
      obtain ⟨length, made⟩ := ih regular₁ (fun q listed => apart q (List.mem_cons_of_mem o listed))
        (fun q listed => (objects q (List.mem_cons_of_mem o listed)).later after) next
      refine ⟨congrArg (· + 1) length, fun m listed => ?_⟩
      rcases List.mem_cons.mp listed with rfl | listed
      · have later := (rest.mapM (substituteAt (callsTo k) j map)).kept p c₁
        rw [next] at later
        exact object.later later
      · exact made m listed

/-- A type that nothing is listed for. -/
def Unlisted (c : Checker) (t : TypeId) : Prop := c.shapes.find? t = none ∧ t ∉ c.shapes.running

/-- The alias itself is left alone again, for the argument with the new one in it. -/
theorem leftAlone_substituteAt (ready : Ready 0 p c)
    (unfolds : UnfoldsItself c s t param own arg others)
    (inside : x.index < c.arena.size) (other : x ≠ param) {j : Nat} {made : TypeId}
    (put : (substituteAt (callsTo k) (j + 2) [(param, x)] own).outcome p c = (made, c')) :
    (∃ x', LeftAlone c' s param x' made) ∧ c'.Unlisted made := by
  let f := substituteAt (callsTo k) (j + 1) [(param, x)]
  obtain ⟨wrap, wraps, data⟩ := unfolds.argument
  have := ready.started
  have := unfolds.entries inside
  have : Known c arg := known_type_iff.mpr (wraps.inside data)
  have safe : Safe p c (f arg) := inferInstance
  have wrapped : _ = wrap [x] := data_wrapped (k := k) (p := p) wraps ready.regular unfolds data j
  have ready₁ := ready.outcome safe
  have later := (f arg).kept p c
  have before := (f arg).before p c
  generalize first : (f arg).outcome p c = r at wrapped ready₁ later before
  obtain ⟨image, c₁⟩ := r
  have ready₂ := ready₁.outcome (safe_later : Safe p c₁ (f arg))
  have later₁ := (f arg).kept p c₁
  generalize second : (f arg).outcome p c₁ = r at ready₂ later₁
  obtain ⟨again, c₂⟩ := r
  -- what the argument becomes is neither the argument nor the parameter
  have changed : image ≠ arg := by
    rintro rfl
    rw [Arena.data_eq (later.info image (wraps.inside data)), data] at wrapped
    exact other (wraps.injective wrapped).symm
  have moved : image ≠ param := by
    rintro rfl
    obtain ⟨y, isParam⟩ := unfolds.isParam
    rw [Arena.data, later.info image unfolds.param_inside, isParam] at wrapped
    have plain := wraps.ne_parameter [x]
    rw [← wrapped] at plain
    cases plain
  have args : ([arg].mapM f).outcome p c = ([image], c₁) := by
    rw [List.mapM_cons, bind_of_outcome first]
    rfl
  have parts :
      (mapParts (substituteAt (callsTo k) (j + 1)) [(param, x)] (.nominal s [arg])).outcome p c₁ =
      (.nominal s [again], c₂) := by
    simp only [mapParts, List.mapM_cons, List.mapM_nil, bind_assoc, pure_bind]
    rw [bind_of_outcome second]
    rfl
  have named := substituteAt_named (unfolds.lookup (by rw [Arena.data, unfolds.itself]; rfl))
    unfolds.itself
    args parts fun same => changed (List.cons.inj same).1
  have grown := (rebuild (callsTo k) (.nominal s [again]) (some ⟨s, [image]⟩)).kept p c₂
  obtain ⟨fresh, silent, info⟩ := rebuild_named (k := k) (p := p) ready₂.regular
    (rfl : (TypeData.nominal s [again]).keepsForm = true) ⟨s, [image]⟩
  rw [← named, put] at grown fresh silent info
  have unlisted := ready₂.fresh c₂.arena
  refine ⟨⟨image, ⟨_, info⟩, ?_, moved⟩, ?_⟩
  · exact Nat.lt_of_lt_of_le (wraps.inside wrapped) (Nat.le_trans later₁.size grown.size)
  · rw [show made = _ from fresh]
    exact ⟨silent ▸ unlisted.shapes, silent ▸ unlisted.listing⟩

/-- Objects and a type that was left alone stay beside each other, in this order. -/
theorem intersection_leftAlone (nonempty : others ≠ []) (objects : ∀ o ∈ others, c.ObjectAt o)
    (left : LeftAlone c s param x own) :
    ∃ list, (∀ o ∈ list, c.ObjectAt o) ∧
      c.arena.intersection (others ++ [own]) = c.arena.add (.intersection (list ++ [own])) := by
  obtain ⟨args, info⟩ := left.info
  have data : c.arena.data own = .nominal s args := congrArg TypeInfo.data info
  have plain : ∀ m ∈ others ++ [own], (∀ inner, c.arena.data m ≠ .intersection inner) ∧
      c.arena.intrinsic? m = none := by
    intro m listed
    unfold Arena.intrinsic?
    rcases List.mem_append.mp listed with object | last
    · obtain ⟨shape, data⟩ := objects m object
      simp [data]
    · rw [List.mem_singleton.mp last, data]
      simp
  let list := others.foldl Arena.addDistinct []
  have listed : ∀ o ∈ list, o ∈ others := fun o here =>
    (Arena.mem_foldl_addDistinct.mp here).resolve_left List.not_mem_nil
  have flat : c.arena.flattenIntersection (others ++ [own]) = list ++ [own] := by
    have apart : own ∉ list := by
      intro here
      obtain ⟨shape, object⟩ := objects own (listed own here)
      cases data.symm.trans object
    rw [Arena.flattenIntersection_plain fun m listed => (plain m listed).1, List.foldl_append]
    show Arena.addDistinct list own = _
    simp [Arena.addDistinct, apart]
  have several : list ≠ [] := by
    obtain ⟨o, here⟩ := List.exists_mem_of_ne_nil _ nonempty
    exact List.ne_nil_of_mem (Arena.mem_foldl_addDistinct.mpr (.inr here))
  have kinds : ∀ i, (list ++ [own]).any (c.arena.intrinsic? · = some i) = false := by
    intro i
    refine List.any_eq_false.mpr fun m here => ?_
    have from_ : m ∈ others ++ [own] :=
      (List.mem_append.mp here).elim (fun o => List.mem_append_left _ (listed m o))
      (List.mem_append_right _)
    simp [(plain m from_).2]
  refine ⟨list, fun o here => objects o (listed o here), ?_⟩
  unfold Arena.intersection
  dsimp only
  rw [flat, kinds, kinds, if_neg Bool.false_ne_true, if_neg Bool.false_ne_true]
  obtain ⟨first, rest, same⟩ := List.exists_cons_of_ne_nil several
  rw [same]
  cases rest <;> rfl

/-- A type that is an intersection of objects and, as its last member, of the alias left alone, which
nothing is listed for. -/
structure EndsIn (c : Checker) (s : SymbolId) (param own u : TypeId) : Prop where
  data : ∃ list, (∀ o ∈ list, c.ObjectAt o) ∧ c.arena.data u = .intersection (list ++ [own])
  left : ∃ x, LeftAlone c s param x own
  unlisted : c.Unlisted own

theorem endsIn_rebuild (regular : c.Regular) (nonempty : others ≠ [])
    (objects : ∀ o ∈ others, c.ObjectAt o)
    (left : LeftAlone c s param x own) (unlisted : c.Unlisted own) (ref : AliasRef) :
    let r := (rebuild (callsTo k) (.intersection (others ++ [own])) (some ref)).outcome p c
    EndsIn r.2 s param own r.1 := by
  obtain ⟨list, kept, same⟩ := intersection_leftAlone nonempty objects left
  let data : TypeData := .intersection (list ++ [own])
  let joined : Checker := { c with arena := (c.arena.add data).2 }
  let made : Checker := { joined with arena := (joined.arena.addInfo ⟨data, some ref⟩).2 }
  let asked := ((callsTo k).ask (.evaluate ⟨joined.arena.size⟩)).outcome p made
  have first : (Check.intersection (others ++ [own])).outcome p c = (⟨c.arena.size⟩, joined) := by
    have made : (Check.intersection (others ++ [own])).outcome p c =
        ((c.arena.intersection (others ++ [own])).1,
          { c with arena := (c.arena.intersection (others ++ [own])).2 }) := rfl
    rw [made, same]
    rfl
  have normal : joined.arena.data ⟨c.arena.size⟩ = data :=
    congrArg TypeInfo.data (Arena.info_addInfo_self _ _)
  have opened : (rebuild (callsTo k) (.intersection (others ++ [own])) (some ref)).outcome p c =
      (⟨joined.arena.size⟩, asked.2) := by
    unfold rebuild
    dsimp only
    rw [bind_of_outcome first, outcome_bind, outcome_data, normal]
    rfl
  have later : c.Later asked.2 := by
    have grown := (rebuild (callsTo k) (.intersection (others ++ [own])) (some ref)).kept p c
    rwa [opened] at grown
  have added : Work 0 c joined := .types (c.arena.extends_add data)
  obtain ⟨-, silent, info⟩ := evaluate_new (k := k) (p := p) (added.regular (Nat.zero_le _) regular)
    (rfl : (TypeInfo.mk data (some ref)).data.isOperator = false)
  have silent : asked.2.shapes = c.shapes := silent
  rw [opened]
  refine ⟨⟨list, fun o listed => (kept o listed).later later, ?_⟩, ⟨x, left.later later⟩, ?_⟩
  · exact congrArg TypeInfo.data info
  · exact ⟨silent ▸ unlisted.1, silent ▸ unlisted.2⟩

/-- What the alias stands for with an argument put in. -/
theorem endsIn_substituteAt (ready : Ready 0 p c) (unfolds : UnfoldsItself c s t param own arg others)
    (inside : x.index < c.arena.size) (other : x ≠ param) (j : Nat) :
    let r := (substituteAt (callsTo k) (j + 3) [(param, x)] t).outcome p c
    ∃ own', EndsIn r.2 s param own' r.1 := by
  let f := substituteAt (callsTo k) (j + 2) [(param, x)]
  have := ready.started
  have := unfolds.entries inside
  have : Known c others := known_list_iff.mpr fun o listed =>
    known_type_iff.mpr (unfolds.objects o listed).inside
  have safe : Safe p c (others.mapM f) := inferInstance
  have ready₁ := ready.outcome safe
  have later := (others.mapM f).kept p c
  generalize first : (others.mapM f).outcome p c = r at ready₁ later
  obtain ⟨members, c₁⟩ := r
  -- the others are made first, so that nothing is listed between the last one and the whole
  have kept := (f own).kept p c₁
  have regular := ((f own).work p c₁).regular (Nat.le_refl _) ready₁.regular
  generalize last : (f own).outcome p c₁ = r at kept regular
  obtain ⟨own', c₂⟩ := r
  obtain ⟨⟨x', left⟩, unlisted⟩ := leftAlone_substituteAt ready₁ (unfolds.later later)
    (Nat.lt_of_lt_of_le inside later.size) other last
  obtain ⟨length, objects⟩ := objects_substituteAt (j + 2) ready.regular
    (fun o listed => by
      obtain ⟨shape, data⟩ := unfolds.objects o listed
      exact unfolds.lookup (by rw [data]; rfl))
    unfolds.objects first
  have nonempty : members ≠ [] := by
    rintro rfl
    exact unfolds.nonempty (List.eq_nil_of_length_eq_zero length.symm)
  have args : ([param].mapM f).outcome p c = ([x], c) := by
    have key : (f param).outcome p c = (x, c) := substituteAt_key _ (j + 2) List.lookup_cons_self
    rw [List.mapM_cons, bind_of_outcome key]
    rfl
  have parts : (mapParts (substituteAt (callsTo k) (j + 2)) [(param, x)]
      (.intersection (others ++ [own]))).outcome p c = (.intersection (members ++ [own']), c₂) := by
    simp only [mapParts]
    rw [List.mapM_append]
    simp only [List.mapM_cons, List.mapM_nil, bind_assoc, pure_bind]
    rw [bind_of_outcome first, bind_of_outcome last]
    rfl
  have named := substituteAt_named (unfolds.lookup (by rw [Arena.data, unfolds.body]; rfl))
    unfolds.body
    args parts fun same => other (List.cons.inj same).1
  rw [named]
  exact ⟨own', endsIn_rebuild regular nonempty (fun o listed => (objects o listed).later kept) left
    unlisted
    ⟨s, [x]⟩⟩

/-- The alias is known. -/
theorem ask_declaredType_known (unfolds : UnfoldsItself c s t param own arg others) :
    ((callsTo k).ask (.declaredType s)).outcome p c = (t, c) := by
  obtain ⟨⟨file, decl⟩, declares⟩ := Option.isSome_iff_exists.mp unfolds.declares
  change (declaredType (callsWithin k) s).outcome p c = _
  unfold declaredType
  rw [outcome_bind, outcome_kind?, unfolds.kind]
  dsimp only
  unfold declaredAlias
  rw [outcome_bind, outcome_decls, declares]
  simp only [declareAlias, unfolds.declared]

/-- An instance is a new type that ends in the alias left alone. -/
theorem endsIn_aliasInstance (ready : Ready 0 p c)
    (unfolds : UnfoldsItself c s t param own arg others)
    (inside : x.index < c.arena.size) (other : x ≠ param) :
    let r := (aliasInstance (callsTo (k + 1)) s [x]).outcome p c
    (∃ own', EndsIn r.2 s param own' r.1) ∧ r.2.Unlisted r.1 := by
  let calls := callsTo (k + 1)
  have reads : (readAlias calls s).outcome p c = ((t, [param]), c) := by
    unfold readAlias
    rw [bind_of_outcome (ask_declaredType_known unfolds),
      bind_of_outcome (typeParams_of_known k unfolds.params)]
    rfl
  have length : [x].length = [param].length := rfl
  have named := aliasInstance_named calls (congrArg (·.1.2) reads) (List.cons_ne_nil _ _) length
    (by rw [reads]; exact unfolds.body) unfolds.free
  rw [reads, show [param].zip [x] = [(param, x)] from rfl] at named
  dsimp only at named
  have := ready.started
  have := unfolds.entries inside
  have : Known c t := known_type_iff.mpr (inside_of_info unfolds.body nofun)
  have safe : Safe p c (substituteAt calls maxDepth [(param, x)] t) := inferInstance
  have ready₁ := ready.outcome safe
  obtain ⟨own', ends⟩ := endsIn_substituteAt (p := p) (k := k + 1) ready unfolds inside other 30
  generalize put : (substituteAt calls maxDepth [(param, x)] t).outcome p c = r at named ready₁
  rw [show 30 + 3 = maxDepth from rfl, put] at ends
  obtain ⟨image, c₁⟩ := r
  let info : TypeInfo := ⟨c₁.arena.data image, some ⟨s, [x]⟩⟩
  have later := (Check.addInfo info).kept p c₁
  have fresh := ready₁.fresh (c₁.arena.addInfo info).2
  obtain ⟨list, objects, data⟩ := ends.data
  rw [named]
  refine ⟨⟨own', ⟨list, fun o listed => (objects o listed).later later, ?_⟩, ?_, ends.unlisted⟩,
    fresh.shapes, fresh.listing⟩
  · exact (congrArg TypeInfo.data (Arena.info_addInfo_self _ _)).trans data
  · exact ends.left.imp fun _ left => left.later later

end Checker

end ApiDocs
