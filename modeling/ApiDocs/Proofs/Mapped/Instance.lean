import ApiDocs.Proofs.Mapped.Runs

set_option autoImplicit false

/-!
Instances of an alias that stands for a mapped type. Whatever is put in for its parameter, the
instance is a mapped type under the name of the alias with that argument.
-/

namespace ApiDocs.Checker

open Check

variable (calls : Calls) {p : Program} {c : Checker}

/-- What an alias is read as: the type that it stands for, and its type parameters. -/
def readAlias (s : SymbolId) : Check (TypeId × List TypeId) := do
  let declared ← calls.ask (.declaredType s)
  let params ← calls.ask (.typeParams s)
  return (declared, params)

/-- The alias `s`, read at `c`, has the one type parameter `param` and stands for the mapped type
`m`. -/
structure ReadsMapped (p : Program) (c : Checker) (s : SymbolId) (param : TypeId) (m : MappedType) :
    Prop where
  params : ((readAlias calls s).outcome p c).1.2 = [param]
  info : ((readAlias calls s).outcome p c).2.arena.info ((readAlias calls s).outcome p c).1.1 =
    ⟨.mapped m, some ⟨s, [param]⟩⟩
  isParam : ∃ x, ((readAlias calls s).outcome p c).2.arena.info param = ⟨.typeParameter x, none⟩

/-! ### Substitution -/

theorem substituteAt_key (n : Nat) {map : Substitution} {key image : TypeId}
    (found : map.lookup key = some image) :
    (substituteAt calls n map key).outcome p c = (image, c) := by
  cases n with
  | zero => simp only [substituteAt, found, Option.getD_some, outcome_pure]
  | succ n => simp only [substituteAt, found, outcome_pure]

/-- A type with a name that is neither a union nor an intersection is made as it is, whatever it
comes to. -/
theorem info_rebuild_named {data : TypeData} (union : ∀ types, data ≠ .union types)
    (intersection : ∀ types, data ≠ .intersection types) (ref : AliasRef) (p : Program) (c : Checker) :
    let r := (rebuild calls data (some ref)).outcome p c
    r.2.arena.info r.1 = ⟨data, some ref⟩ := by
  let made : Checker := { c with arena := (c.arena.addInfo ⟨data, some ref⟩).2 }
  have opened : (rebuild calls data (some ref)).outcome p c =
      (⟨c.arena.size⟩, ((calls.ask (.evaluate ⟨c.arena.size⟩)).outcome p made).2) := by
    cases data with
    | union types => exact absurd rfl (union types)
    | intersection types => exact absurd rfl (intersection types)
    | _ => rfl
  have there : (⟨c.arena.size⟩ : TypeId).index < made.arena.size := by
    rw [Arena.size_addInfo]
    exact Nat.lt_succ_self _
  have kept := (calls.ask (.evaluate ⟨c.arena.size⟩)).kept p made
  dsimp only
  rw [opened]
  exact (kept.info _ there).trans (Arena.info_addInfo_self _ _)

/-- Substitution in a mapped type with a name: in the arguments of the name, in the constraint, and
in the template apart from the bound parameter. -/
theorem info_substituteAt_mapped (n : Nat) {map : Substitution} {t : TypeId} {m : MappedType}
    {ref : AliasRef} (apart : map.lookup t = none) (info : c.arena.info t = ⟨.mapped m, some ref⟩) :
    let args := (ref.args.mapM (substituteAt calls n map)).outcome p c
    let constraint := (substituteAt calls n map m.constraint).outcome p args.2
    let template := (substituteAt calls n (map.filter (·.1 ≠ m.param)) m.template).outcome p
      constraint.2
    let r := (substituteAt calls (n + 1) map t).outcome p c
    (∀ below, Since below template.2 r.2) ∧
      r.2.arena.info r.1 = ⟨.mapped { m with constraint := constraint.1, template := template.1 },
        some ⟨ref.symbol, args.1⟩⟩ := by
  intro args constraint template
  let data : TypeData := .mapped { m with constraint := constraint.1, template := template.1 }
  let written : AliasRef := ⟨ref.symbol, args.1⟩
  have whole : (substituteAt calls (n + 1) map t).outcome p c =
      (if data = .mapped m ∧ some written = some ref then pure t
        else rebuild calls data (some written)).outcome p template.2 := by
    unfold substituteAt
    rw [apart]
    dsimp only
    rw [outcome_bind, outcome_info, info]
    rfl
  have there : t.index < c.arena.size :=
    inside_of_info info nofun
  have later : c.Later template.2 :=
    (Later.trans (Check.kept _ p c) (Check.kept _ p args.2)).trans (Check.kept _ p constraint.2)
  dsimp only
  rw [whole]
  split
  · rename_i same
    refine ⟨fun below => .refl below _, (later.info t there).trans ?_⟩
    rw [info, ← same.1, ← same.2]
  · exact ⟨fun below => .outcome below _ p _, info_rebuild_named calls (by exact nofun) (by exact nofun) _ p _⟩

/-! ### Instances -/

/-- As many arguments as there are parameters stay as they are. -/
theorem fillTypeArgs_full {params args : List TypeId} (length : args.length = params.length) :
    fillTypeArgs calls params args = pure args := by
  unfold fillTypeArgs
  dsimp only
  rw [List.take_of_length_le (by omega), List.drop_of_length_le (by omega)]
  rfl

/-- The name of the alias is put on what substitution for its parameters gives. -/
theorem aliasInstance_named {s : SymbolId} {ids args : List TypeId} {ref : AliasRef} {data : TypeData}
    (params : ((readAlias calls s).outcome p c).1.2 = ids) (generic : ids ≠ [])
    (length : args.length = ids.length)
    (info : ((readAlias calls s).outcome p c).2.arena.info ((readAlias calls s).outcome p c).1.1 =
      ⟨data, some ref⟩) (free : s ∉ c.declaring) :
    let read := (readAlias calls s).outcome p c
    let put := (substituteAt calls maxDepth (ids.zip args) read.1.1).outcome p read.2
    (aliasInstance calls s args).outcome p c =
      (Check.addInfo ⟨put.2.arena.data put.1, some ⟨s, args⟩⟩).outcome p put.2 := by
  intro read put
  have idle : read.2.declaring.contains s = false := by
    rw [((readAlias calls s).kept p c).declaring]
    simpa using free
  have there : read.1.1.index < read.2.arena.size := by
    refine Nat.lt_of_not_le fun beyond => ?_
    rw [Arena.info_of_size_le _ _ beyond] at info
    cases info
  have named : put.2.arena.alias? read.1.1 = some ref := by
    have kept := (substituteAt calls maxDepth (ids.zip args) read.1.1).kept p read.2
    exact congrArg TypeInfo.writtenAs ((kept.info _ there).trans info)
  have mapped : (ids.zip args).isEmpty = false := by
    cases ids with
    | nil => exact absurd rfl generic
    | cons =>
        cases args with
        | nil => cases length
        | cons => rfl
  have put_eq : (substitute calls (ids.zip args) read.1.1).outcome p read.2 = put := by
    rw [substitute, mapped]
    rfl
  have opened : (aliasInstance calls s args).outcome p c =
      (if read.1.2.isEmpty then pure read.1.1 else do
        let args ← fillTypeArgs calls read.1.2 args
        if (← Check.state).declaring.contains s then deferredAliasInstance s args
        else
          let instance_ ← substitute calls (read.1.2.zip args) read.1.1
          if (← Check.alias? read.1.1).isNone then return instance_
          else Check.addInfo ⟨← Check.data instance_, some ⟨s, args⟩⟩).outcome p read.2 := rfl
  rw [opened, show read.1.2 = ids from params, if_neg (by simpa using generic), fillTypeArgs_full calls length,
    pure_bind, outcome_bind, outcome_state, idle, if_neg Bool.false_ne_true, bind_of_outcome put_eq,
    outcome_bind, outcome_alias?, named]
  rfl

theorem aliasInstance_mapped {s : SymbolId} {param : TypeId} {m : MappedType}
    (reads : ReadsMapped calls p c s param m) (free : s ∉ c.declaring) (w : TypeId) :
    let read := (readAlias calls s).outcome p c
    let put := (substituteAt calls maxDepth [(param, w)] read.1.1).outcome p read.2
    (aliasInstance calls s [w]).outcome p c =
      (Check.addInfo ⟨put.2.arena.data put.1, some ⟨s, [w]⟩⟩).outcome p put.2 := by
  have length : [w].length = [param].length := rfl
  have named := aliasInstance_named calls reads.params (List.cons_ne_nil _ _) length reads.info free
  rwa [show [param].zip [w] = [(param, w)] from rfl] at named

/-- The type of an alias for a mapped type is no type parameter. -/
theorem ReadsMapped.lookup {s : SymbolId} {param : TypeId} {m : MappedType}
    (reads : ReadsMapped calls p c s param m) (w : TypeId) :
    [(param, w)].lookup ((readAlias calls s).outcome p c).1.1 = none := by
  obtain ⟨x, isParam⟩ := reads.isParam
  have differs : ((readAlias calls s).outcome p c).1.1 ≠ param := by
    intro same
    rw [← same, reads.info] at isParam
    cases isParam
  simp [List.lookup, beq_eq_false_iff_ne.mpr differs]

/-- The instance at `w` is a new mapped type, with `w` put into the constraint first and into the
template next. -/
theorem info_aliasInstance_mapped {s : SymbolId} {param : TypeId} {m : MappedType}
    (reads : ReadsMapped calls p c s param m) (free : s ∉ c.declaring) (w : TypeId) :
    let put := substituteAt calls (maxDepth - 1)
    let read := (readAlias calls s).outcome p c
    let constraint := (put [(param, w)] m.constraint).outcome p read.2
    let template := (put ([(param, w)].filter (·.1 ≠ m.param)) m.template).outcome p constraint.2
    let made := (aliasInstance calls s [w]).outcome p c
    (∀ below, Since below template.2 made.2) ∧ template.2.arena.size ≤ made.1.index ∧
      made.2.arena.info made.1 = ⟨.mapped { m with constraint := constraint.1, template := template.1 },
        some ⟨s, [w]⟩⟩ := by
  intro put read constraint template made
  have own : ([param].mapM (put [(param, w)])).outcome p read.2 = ([w], read.2) := by
    rw [List.mapM_cons, bind_of_outcome (substituteAt_key calls _ List.lookup_cons_self)]
    rfl
  obtain ⟨since, info⟩ := info_substituteAt_mapped calls (p := p) (maxDepth - 1) (reads.lookup calls w)
    reads.info
  dsimp only at since info
  rw [own] at since info
  simp only [made, aliasInstance_mapped calls reads free w]
  refine ⟨fun below => (since below).trans (.outcome below _ p _), (since 0).before.size,
    (Arena.info_addInfo_self _ _).trans ?_⟩
  exact congrArg (TypeInfo.mk · _) (congrArg TypeInfo.data info)

end ApiDocs.Checker
