import ApiDocs.Proofs.Arity.Reading
import ApiDocs.Proofs.Arity.Library
import ApiDocs.Proofs.Mapped.Keys
import ApiDocs.Proofs.Namespaces.Declared

set_option autoImplicit false

/-!
Type arguments in the programs that are built. Whatever a checker is asked, an instance and the name
of an alias have an argument for each type parameter, so that arguments are never put in for some of
the parameters only.
-/

namespace ApiDocs

open Syntax Check

/-! ### Aliases -/

namespace Bindings

/-- Only symbols of kinds that merge have several declarations. -/
def Lone (b : Bindings) : Prop :=
  ∀ s x, b.symbol? s = some x → x.kind.merges = false → ∃ d, x.decls = [d]

theorem lone_addSymbol {b : Bindings} (lone : b.Lone) {new : Symbol}
    (single : ∃ d, new.decls = [d]) : (b.addSymbol new).2.Lone := by
  intro s x found plain
  rw [symbol?_addSymbol] at found
  split at found
  · cases found
    exact single
  · exact lone s x found plain

theorem lone_declare {b : Bindings} (lone : b.Lone) (site : Site) (spaces : List Space)
    (name : String) (doc : DocComment) (node : DeclNode) :
    (b.declare site spaces name node.kind doc node).2.Lone := by
  intro s x found plain
  cases merging : b.merging? site spaces name node.kind with
  | some changed =>
      obtain ⟨-, merges, kind⟩ := merging?_eq_some merging
      rw [declare_merging merging, symbol?_modify] at found
      split at found
      · rename_i here
        obtain rfl : changed = s := congrArg SymbolId.mk here
        obtain ⟨old, before, rfl⟩ := Option.map_eq_some_iff.mp found
        rw [kind?_of_symbol? before] at kind
        cases merges.symm.trans (Option.some.inj kind ▸ plain)
      · exact lone s x found plain
  | none =>
      rw [declare_new doc node merging] at found
      obtain ⟨y, members, before, rfl⟩ := symbol?_of_modifyTable _ _ found
      exact lone_addSymbol lone ⟨_, rfl⟩ s y before plain

theorem Binds.lone {n : Nat} {b b' : Bindings} (binds : Binds n b b') (lone : b.Lone) :
    b'.Lone := by
  induction binds with
  | refl | exports | star | openFile => exact lone
  | trans _ _ first second => exact second (first lone)
  | declare => exact lone_declare lone _ _ _ _ _
  | redirect => exact lone_addSymbol lone ⟨_, rfl⟩

/-- An alias has the type parameters of its only declaration. -/
theorem arity_alias (p : Program) {s : SymbolId} {file : FileId} {decl : AliasDecl}
    (declares : ((ofProgram p).decls s).findSome? Checker.aliasDecl? = some (file, decl)) :
    (ofProgram p).arity s = decl.typeParams.length := by
  have placed := (binds_ofProgram p).placed placed_empty
  have lone : (ofProgram p).Lone := (binds_ofProgram p).lone fun _ _ found => by cases found
  cases found : (ofProgram p).symbol? s with
  | none => simp [decls, found] at declares
  | some x =>
      have own : (ofProgram p).decls s = x.decls := by simp [decls, found]
      rw [own] at declares
      obtain ⟨d, inside, written⟩ := List.exists_of_findSome?_eq_some declares
      have kind := (placed.declared s x found).2 d inside
      unfold Checker.aliasDecl? at written
      split at written
      · rename_i node
        cases written
        rw [node] at kind
        obtain ⟨only, single⟩ := lone s x found (kind ▸ rfl)
        rw [single] at inside
        cases List.mem_singleton.mp inside
        rw [arity, own, single, List.find?_cons, node]
        cases empty : decl.typeParams <;> simp [Checker.writtenTypeParams, node, empty]
      · cases written

end Bindings

/-! ### Substitutions -/

/-- Ways to put type arguments in for parameters that make a difference only where there are too few
or too many of them. -/
structure Pairing where
  pair : List TypeId → List TypeId → Substitution
  zips : ∀ params args, params.length = args.length → pair params args = params.zip args

namespace Checker

/-- The members of an instance, with some pairing of parameters and arguments. -/
def instanceShapeBy (pairing : Pairing) (calls : Calls) (s : SymbolId) (args : List TypeId) :
    Check Shape := do
  let shape ← calls.ask (.structure_ s)
  let params ← calls.ask (.typeParams s)
  if params.isEmpty || params = args then return shape
  else substituteShape calls (pairing.pair params args) shape

/-- The body of an alias with arguments put in, with some pairing of parameters and arguments. -/
def aliasInstanceBy (pairing : Pairing) (calls : Calls) (s : SymbolId) (args : List TypeId) :
    Check TypeId := do
  let declared ← calls.ask (.declaredType s)
  let params ← calls.ask (.typeParams s)
  if params.isEmpty then return declared
  else
    let args ← fillTypeArgs calls params args
    if (← Check.state).declaring.contains s then deferredAliasInstance s args
    else
      let instance_ ← substitute calls (pairing.pair params args) declared
      if (← Check.alias? declared).isNone then return instance_
      else Check.addInfo ⟨← Check.data instance_, some ⟨s, args⟩⟩

variable {b : Bindings} {calls : Calls}

/-- The members of an instance in a matched state are put together from all its arguments. -/
theorem instanceShapeBy_eq [matching : MatchingCalls b calls] (pairing : Pairing) {p : Program}
    {c : Checker} (matched : c.Matched b) {s : SymbolId} {args : List TypeId} (takes : b.Takes s args) :
    (instanceShapeBy pairing calls s args).outcome p c =
      (instanceShape calls s args).outcome p c := by
  have after := ((matching.ask (.structure_ s)).upholds p c matched).1
  have declared : Upholds b (calls.ask (.typeParams s)) _ := upholds_typeParams s
  have known := (declared p _ after).2 takes.declared
  unfold instanceShapeBy instanceShape
  simp only [outcome_bind]
  split
  · rfl
  · rename_i several
    rw [Bool.or_eq_true, List.isEmpty_iff, not_or] at several
    rw [pairing.zips _ _ ((known.resolve_left several.1).trans takes.length.symm)]

/-- An alias is expanded with all its arguments, in any state. -/
theorem aliasInstanceBy_eq (pairing : Pairing) (calls : Calls) (s : SymbolId) (args : List TypeId)
    (p : Program) (c : Checker) :
    (aliasInstanceBy pairing calls s args).outcome p c =
      (aliasInstance calls s args).outcome p c := by
  unfold aliasInstanceBy aliasInstance
  simp only [outcome_bind]
  split
  · rfl
  · simp only [outcome_bind]
    rw [pairing.zips _ _ (length_fillTypeArgs calls _ _ _ _).symm]

/-- The type parameters that a checker tells of a symbol of the program are those that it is declared
with. -/
theorem length_typeParams [b.Standard] {p : Program} {c : Checker} (matched : c.Matched b)
    {s : SymbolId} (declared : (b.symbol? s).isSome = true) :
    ((Check.typeParams s).outcome p c).1.length = b.arity s := by
  obtain ⟨n, deep⟩ := calls_deep
  have answered : Check.typeParams s = typeParamsOf (callsTo (n + 1)) s := by
    rw [Check.typeParams, deep, ask_callsTo]
    rfl
  rw [answered]
  exact (upholds_typeParamsOf s p c matched).2 declared

/-! ### States -/

/-- The states that a checker can get into: questions at any depth, and look-ups that follow imports
and exports. -/
inductive Visited (p : Program) : Checker → Prop where
  | start : Visited p (ofProgram p)
  | ask {α : Type} {c : Checker} (before : Visited p c) (n : Nat) (q : Query α) :
      Visited p (((callsTo n).ask q).outcome p c).2
  | elementType {c : Checker} (before : Visited p c) : Visited p (Check.elementType?.outcome p c).2
  | resolveAlias {c : Checker} (before : Visited p c) (s : SymbolId) (space : Space) :
      Visited p ((Check.resolveAlias s space).outcome p c).2
  | exportOf {c : Checker} (before : Visited p c) (file : FileId) (space : Space) (name : String) :
      Visited p ((Check.exportOf file space name).outcome p c).2
  | member {c : Checker} (before : Visited p c) (s : SymbolId) (space : Space) (name : String) :
      Visited p ((Check.member s space name).outcome p c).2

theorem matched_ofProgram (p : Program) : (ofProgram p).Matched (Bindings.ofProgram p) where
  bindings := .refl _
  arena := Arena.matched_initial
  params s ids known := by simp [ofProgram] at known

theorem Visited.matched {p : Program} [(Bindings.ofProgram p).Standard] {c : Checker}
    (visited : Visited p c) : c.Matched (Bindings.ofProgram p) := by
  have keeps : ∀ {α : Type} (m : Check α) [matching : Matching (Bindings.ofProgram p) m] c,
      c.Matched (Bindings.ofProgram p) → (m.outcome p c).2.Matched (Bindings.ofProgram p) :=
    fun _ matching c start => (matching.upholds p c start).1
  induction visited with
  | start => exact matched_ofProgram p
  | ask _ n q ih => exact keeps _ _ ih
  | elementType _ ih =>
      have : Matching (Bindings.ofProgram p) Check.elementType? := matching_elementType?
      exact keeps _ _ ih
  | resolveAlias _ s space ih => exact keeps _ _ ih
  | exportOf _ file space name ih => exact keeps _ _ ih
  | member _ s space name ih => exact keeps _ _ ih

/-- There are as many type arguments as type parameters: in instances, in the names of aliases, and
wherever arguments are put in for parameters. -/
structure Fitting (p : Program) (c : Checker) : Prop where
  instances : ∀ t s args, c.arena.data t = .reference s args →
    args.length = ((Check.typeParams s).outcome p c).1.length
  aliases : ∀ t ref, c.arena.alias? t = some ref →
    ref.args.length = ((Check.typeParams ref.symbol).outcome p c).1.length ∧
      ∀ file decl, (c.bindings.decls ref.symbol).findSome? aliasDecl? = some (file, decl) →
        ref.args.length = decl.typeParams.length
  members : ∀ pairing n t s args, c.arena.data t = .reference s args →
    (instanceShapeBy pairing (callsTo n) s args).outcome p c =
      (instanceShape (callsTo n) s args).outcome p c
  expansions : ∀ pairing n s args, (aliasInstanceBy pairing (callsTo n) s args).outcome p c =
    (aliasInstance (callsTo n) s args).outcome p c

theorem Matched.fitting {p : Program} [(Bindings.ofProgram p).Standard] {c : Checker}
    (matched : c.Matched (Bindings.ofProgram p)) : c.Fitting p where
  instances t s args data := by
    have takes : (Bindings.ofProgram p).Takes s args := by
      have here := (matched.arena t).data
      rwa [show (c.arena.info t).data = .reference s args from data] at here
    exact takes.length.trans (length_typeParams matched takes.declared).symm
  aliases t ref written := by
    have takes := (matched.arena t).writtenAs ref written
    refine ⟨takes.length.trans (length_typeParams matched takes.declared).symm,
      fun file decl declares => ?_⟩
    rw [matched.bindings.decls takes.declared] at declares
    exact takes.length.trans (Bindings.arity_alias p declares)
  members pairing n t s args data := by
    have takes : (Bindings.ofProgram p).Takes s args := by
      have here := (matched.arena t).data
      rwa [show (c.arena.info t).data = .reference s args from data] at here
    exact instanceShapeBy_eq pairing matched takes
  expansions pairing n s args := aliasInstanceBy_eq pairing (callsTo n) s args p c

/-- Where arrays are known, the type `string[]` is an instance with one argument. -/
theorem visited_array {p : Program} {s : SymbolId}
    (known : (Bindings.ofProgram p).global.get? .type "Array" = some s) :
    ∃ c t, Visited p c ∧ c.arena.data t = .reference s [Arena.intrinsicId .string] := by
  let q : Query TypeId := .lower ⟨⟨0⟩, none, [], none⟩ (.array (.intrinsic .string))
  have made : ((callsTo 2).ask q).outcome p (ofProgram p) =
      (Check.reference s [Arena.intrinsicId .string]).outcome p (ofProgram p) := by
    have found : (Check.global? .type "Array").outcome p (ofProgram p) = (some s, ofProgram p) :=
      congrArg (·, ofProgram p) known
    simp only [q, ask_callsTo, step, lower, arrayOf, globalGeneric, outcome_bind, outcome_pure, found]
  have visited : Visited p (((callsTo 2).ask q).outcome p (ofProgram p)).2 := .ask .start 2 q
  rw [made] at visited
  exact ⟨_, _, visited, Arena.data_intern (fun k t => (Arena.regular_initial.indexed k t).mp)
    (.reference s [Arena.intrinsicId .string])⟩

/-- In a program that is built, every state that a checker gets into is matched. From a matched state a
question leads to matched states, however deep it nests, and in all of them arguments and parameters
fit. -/
theorem arguments_fit (tree : FileTree) (roots : List SourceText) :
    let p := Program.build tree roots
    (∀ c : Checker, Visited p c → c.Matched (Bindings.ofProgram p)) ∧
      ∀ c : Checker, c.Matched (Bindings.ofProgram p) → c.Fitting p ∧
        ∀ (n : Nat) {α : Type} (q : Query α),
          (((callsTo n).ask q).outcome p c).2.Matched (Bindings.ofProgram p) := by
  refine ⟨fun c visited => visited.matched, fun c matched => ⟨matched.fitting, fun n α q => ?_⟩⟩
  exact ((matching_callsTo.ask q).upholds _ c matched).1

/-- Even a program without files of its own has arrays, and `string[]` has one argument. -/
theorem array_arguments_fit :
    let p := Program.build .empty []
    ∃ (c : Checker) (t : TypeId) (s : SymbolId), Visited p c ∧
      c.arena.data t = .reference s [Arena.intrinsicId .string] ∧
        ((Check.typeParams s).outcome p c).1.length = 1 ∧ c.Fitting p := by
  have arrays : (Bindings.ofProgram (Program.build .empty [])).globalArity? "Array" = some 1 :=
    Bindings.globalArity?_build (by decide)
  obtain ⟨s, known, -⟩ := Option.bind_eq_some_iff.mp arrays
  obtain ⟨c, t, visited, data⟩ := visited_array known
  obtain ⟨matched, fit⟩ := arguments_fit .empty []
  have fitting := (fit c (matched c visited)).1
  exact ⟨c, t, s, visited, data, (fitting.instances t s _ data).symm, fitting⟩

end Checker

end ApiDocs
