import ApiDocs.Checker
import ApiDocs.Proofs.Arena.Normal
import ApiDocs.Proofs.Safety.Rules

set_option autoImplicit false

/-!
Arguments for type parameters. A state is matched if whatever stands in it with type arguments, an
instance of a declared symbol or the alias that a type was written as, has as many of them as the
symbol has type parameters. The rules below say how work that is put together from parts keeps states
matched if its parts do, and that every way to change the state keeps it so as long as what goes into
it is matched.
-/

namespace ApiDocs

open Syntax Checker

/-- How many type parameters a symbol is declared with: those of its first declaration that has
any. -/
def Bindings.arity (b : Bindings) (s : SymbolId) : Nat :=
  match (b.decls s).find? fun d => !(writtenTypeParams d.node).isEmpty with
  | some d => (writtenTypeParams d.node).length
  | none => 0

/-- A symbol of a program, with an argument for each of its type parameters. -/
structure Bindings.Takes (b : Bindings) (s : SymbolId) (args : List TypeId) : Prop where
  declared : (b.symbol? s).isSome = true
  length : args.length = b.arity s

def TypeData.Matched (b : Bindings) : TypeData → Prop
  | .reference s args => b.Takes s args
  | _ => True

/-- Whether a type is an instance or not, and whether it was written as an alias or not, there is an
argument for each type parameter. -/
structure TypeInfo.Matched (b : Bindings) (info : TypeInfo) : Prop where
  data : info.data.Matched b
  writtenAs : ∀ ref ∈ info.writtenAs, b.Takes ref.symbol ref.args

def Arena.Matched (b : Bindings) (a : Arena) : Prop := ∀ t, (a.info t).Matched b

/-- The state of a checker for a program with the symbols `b`: all types are matched, and a symbol is
known to have the type parameters that it is declared with. -/
structure Checker.Matched (b : Bindings) (c : Checker) : Prop where
  bindings : b.Extends c.bindings
  arena : c.arena.Matched b
  params : ∀ s ids, c.typeParams[s]? = some ids → (b.symbol? s).isSome = true → ids.length = b.arity s

/-! ### Symbols -/

namespace Bindings.Extends

variable {b b' : Bindings} (grown : b.Extends b') {s : SymbolId}
include grown

/-- Only packages without typings and whole modules get symbols later. -/
theorem declared {kind : SymbolKind} (found : b'.kind? s = some kind) (plain : kind ≠ .external)
    (single : kind ≠ .moduleNamespace) : (b.symbol? s).isSome = true := by
  obtain ⟨x, there, rfl⟩ := Option.map_eq_some_iff.mp found
  rcases grown.fresh s x there with old | external | module
  · exact Option.isSome_iff_exists.mpr ⟨x, old⟩
  · exact absurd external plain
  · exact absurd module single

theorem decls (declared : (b.symbol? s).isSome = true) : b'.decls s = b.decls s := by
  obtain ⟨x, there⟩ := Option.isSome_iff_exists.mp declared
  rw [Bindings.decls, Bindings.decls, grown.symbol s x there, there]

end Bindings.Extends

/-! ### Types -/

namespace Arena

variable {b : Bindings} {a : Arena}

theorem matched_any : TypeInfo.Matched b ⟨.intrinsic .any, none⟩ := ⟨trivial, nofun⟩

theorem Matched.addInfo (matched : a.Matched b) {info : TypeInfo} (new : info.Matched b) :
    (a.addInfo info).2.Matched b := by
  intro t
  rw [info_addInfo]
  split
  · exact new
  · exact matched t

theorem Matched.add (matched : a.Matched b) {data : TypeData} (new : data.Matched b) :
    (a.add data).2.Matched b := matched.addInfo ⟨new, nofun⟩

theorem Matched.intern (matched : a.Matched b) {k : InternKey} (new : k.data.Matched b) :
    (a.intern k k.data).2.Matched b := by
  rcases intern_cases a k with ⟨t, -, found⟩ | ⟨-, made⟩
  · rw [found]
    exact matched
  · rw [made]
    exact matched.add new

theorem unionKey?_union {members : List TypeId} {k : InternKey} (key : a.unionKey? members = some k) :
    ∃ normal, k = .union normal := by
  unfold unionKey? at key
  dsimp only at key
  split at key
  · cases key
  · split at key
    · exact ⟨_, (Option.some.inj key).symm⟩
    · cases key

theorem Matched.union (matched : a.Matched b) (members : List TypeId) :
    (a.union members).2.Matched b := by
  rcases union_cases a members with ⟨t, -, -, same⟩ | ⟨k, key, made⟩
  · rw [same]
    exact matched
  · obtain ⟨normal, rfl⟩ := unionKey?_union key
    rw [made]
    exact matched.intern trivial

theorem Matched.intersection (matched : a.Matched b) (members : List TypeId) :
    (a.intersection members).2.Matched b := by
  rcases intersection_cases a members with ⟨t, -, same⟩ | ⟨-, -, made⟩
  · rw [same]
    exact matched
  · rw [made]
    exact matched.add trivial

theorem Matched.widen (matched : a.Matched b) (t : TypeId) : (a.widen t).2.Matched b := by
  refine (widenTo_keeps (Matched b) (fun _ _ => True) ?_ ?_ ?_ ?_ _ a t matched trivial).1
  · exact fun _ _ _ _ _ => trivial
  · exact fun _ _ _ _ => trivial
  · exact fun _ _ _ _ _ _ _ _ => trivial
  · exact fun a members matched _ => ⟨matched.union members, trivial⟩

/-- Filling one place leaves the others. -/
theorem Matched.fill (matched : a.Matched b) {a' : Arena} {t : TypeId} (here : (a'.info t).Matched b)
    (others : ∀ other, other ≠ t → a'.info other = a.info other) : a'.Matched b := by
  intro other
  by_cases same : other = t
  · rw [same]
    exact here
  · rw [others other same]
    exact matched other

theorem Matched.set (matched : a.Matched b) (t : TypeId) {info : TypeInfo} (new : info.Matched b) :
    (a.set t info).Matched b := by
  refine matched.fill (t := t) ?_ fun other differs => info_set_other a t other info differs
  by_cases inside : t.index < a.size
  · rw [Check.info_set_self info inside]
    exact new
  · rw [info_of_size_le (a.set t info) t (by rw [size_set]; omega)]
    exact matched_any

/-- The data of a type is replaced, and the alias stays. -/
theorem alias?_setData (a : Arena) (t : TypeId) (data : TypeData) :
    (a.setData t data).alias? t = a.alias? t := by
  simp only [alias?, info, setData, Array.getElem?_modify, if_pos]
  cases a.types[t.index]? <;> rfl

theorem Matched.setData (matched : a.Matched b) (t : TypeId) {data : TypeData}
    (new : data.Matched b) : (a.setData t data).Matched b := by
  refine matched.fill (t := t) ?_ fun other differs => info_setData_other a t other data differs
  by_cases inside : t.index < a.size
  · have here : ((a.setData t data).data t).Matched b := by
      rw [data_setData_self a t data inside]
      exact new
    exact ⟨here, fun ref same => (matched t).writtenAs ref ((alias?_setData a t data).symm.trans same)⟩
  · rw [info_of_size_le (a.setData t data) t (by rw [size_setData]; omega)]
    exact matched_any

theorem matched_initial : initial.Matched b := by
  have keywords : ∀ (list : List Intrinsic) (a : Arena), a.Matched b →
      (list.foldl (fun a i => (a.add (.intrinsic i)).2) a).Matched b := by
    intro list
    induction list with
    | nil => exact fun _ start => start
    | cons i rest ih => exact fun a start => ih _ (start.add trivial)
  have start := keywords Intrinsic.all {} fun _ => matched_any
  have no : Matched b _ := start.intern (k := .boolean false) trivial
  have yes : Matched b _ := no.intern (k := .boolean true) trivial
  exact yes.intern (k := .union [falseId, trueId]) trivial

end Arena

/-! ### Work -/

namespace Check

variable {α β : Type} {b : Bindings}

/-- Work that keeps states matched, with an answer of some kind. -/
def Upholds (b : Bindings) (m : Check α) (holds : α → Prop) : Prop :=
  ∀ p c, c.Matched b → (m.outcome p c).2.Matched b ∧ holds (m.outcome p c).1

/-- Work that keeps states matched. -/
class Matching (b : Bindings) (m : Check α) : Prop where
  upholds : Upholds b m fun _ => True

namespace Upholds

variable {holds : α → Prop} {then_ : β → Prop}

theorem matching {m : Check α} (upholds : Upholds b m holds) : Matching b m :=
  ⟨fun p c matched => ⟨(upholds p c matched).1, trivial⟩⟩

theorem mono {m : Check α} {weaker : α → Prop} (upholds : Upholds b m holds)
    (weakens : ∀ a, holds a → weaker a) : Upholds b m weaker :=
  fun p c matched => ⟨(upholds p c matched).1, weakens _ (upholds p c matched).2⟩

theorem pure {a : α} (here : holds a) : Upholds b (Pure.pure a) holds :=
  fun _ _ matched => ⟨matched, here⟩

theorem bind {m : Check α} {f : α → Check β} (first : Upholds b m holds)
    (next : ∀ a, holds a → Upholds b (f a) then_) : Upholds b (m >>= f) then_ := by
  intro p c matched
  obtain ⟨after, here⟩ := first p c matched
  exact next _ here p _ after

/-- Nothing is relied on. -/
theorem skip {m : Check α} {f : α → Check β} [matching : Matching b m]
    (next : ∀ a, Upholds b (f a) then_) : Upholds b (m >>= f) then_ :=
  matching.upholds.bind fun a _ => next a

theorem state {f : Checker → Check β} (next : ∀ c : Checker, c.Matched b → Upholds b (f c) then_) :
    Upholds b (Check.state >>= f) then_ := fun p c matched => next c matched p c matched

/-- What is so of every answer in every state can be relied on. -/
theorem always {m : Check α} [matching : Matching b m] (each : ∀ p c, holds (m.outcome p c).1) :
    Upholds b m holds := fun p c matched => ⟨(matching.upholds p c matched).1, each p c⟩

theorem mapM_option {f : α → Check β} {o : Option α} (each : ∀ x ∈ o, Upholds b (f x) then_) :
    Upholds b (o.mapM f) fun answer => ∀ y ∈ answer, then_ y := by
  cases o with
  | none => exact pure nofun
  | some x =>
      intro p c matched
      obtain ⟨after, here⟩ := each x rfl p c matched
      exact ⟨after, fun y same => Option.some.inj same ▸ here⟩

end Upholds

namespace Matching

/-- What comes next relies on the answer. -/
theorem andThen {m : Check α} {f : α → Check β} {holds : α → Prop} (first : Upholds b m holds)
    (next : ∀ a, holds a → Matching b (f a)) : Matching b (m >>= f) :=
  (first.bind fun a here => (next a here).upholds).matching

theorem bind {m : Check α} {f : α → Check β} [matching : Matching b m] (next : ∀ a, Matching b (f a)) :
    Matching b (m >>= f) := .andThen matching.upholds fun a _ => next a

end Matching

instance matching_pure {a : α} : Matching b (pure a) := ⟨.pure trivial⟩

instance matching_bind {m : Check α} {f : α → Check β} [Matching b m] [∀ a, Matching b (f a)] :
    Matching b (m >>= f) := .bind inferInstance

instance matching_map {m : Check α} {f : α → β} [Matching b m] : Matching b (f <$> m) := by
  rw [← bind_pure_comp]
  infer_instance

instance matching_ite {condition : Prop} [Decidable condition] {first second : Check α}
    [yes : Matching b first] [no : Matching b second] :
    Matching b (if condition then first else second) := by
  split
  · exact yes
  · exact no

instance matching_state : Matching b Check.state := ⟨fun _ _ matched => ⟨matched, trivial⟩⟩

instance matching_read : Matching b (read : Check Program) := ⟨fun _ _ matched => ⟨matched, trivial⟩⟩

instance matching_giveUp : Matching b giveUp :=
  ⟨fun _ _ matched => ⟨⟨matched.bindings, matched.arena, matched.params⟩, trivial⟩⟩

instance matching_foldlM {f : β → α → Check β} {list : List α} {start : β}
    [each : ∀ y x, Matching b (f y x)] : Matching b (list.foldlM f start) := by
  induction list generalizing start with
  | nil => exact matching_pure
  | cons x rest ih =>
      rw [List.foldlM_cons]
      exact .bind fun next => ih

instance matching_mapM {f : α → Check β} {list : List α} [each : ∀ x, Matching b (f x)] :
    Matching b (list.mapM f) := by
  induction list with
  | nil =>
      rw [List.mapM_nil]
      infer_instance
  | cons x rest ih =>
      rw [List.mapM_cons]
      infer_instance

instance matching_filterMapM {f : α → Check (Option β)} {list : List α} [each : ∀ x, Matching b (f x)] :
    Matching b (list.filterMapM f) := by
  induction list with
  | nil =>
      rw [List.filterMapM_nil]
      infer_instance
  | cons x rest ih =>
      rw [List.filterMapM_cons]
      refine .bind fun y => ?_
      cases y with
      | none => exact ih
      | some y => infer_instance

instance matching_mapM_option {f : α → Check β} {o : Option α} [each : ∀ x, Matching b (f x)] :
    Matching b (o.mapM f) := by
  cases o with
  | none => exact matching_pure
  | some x => exact matching_map

/-- There is an answer for each item of a list. -/
theorem upholds_mapM_length {f : α → Check β} {list : List α} [each : ∀ x, Matching b (f x)] :
    Upholds b (list.mapM f) fun answers => answers.length = list.length := by
  induction list with
  | nil => exact .pure rfl
  | cons x rest ih =>
      rw [List.mapM_cons]
      exact .skip fun y => ih.bind fun answers same => .pure (congrArg (· + 1) same)

/-! ### Growing tables -/

theorem matching_withArena {f : Arena → α × Arena} {grows : ∀ a : Arena, a.Extends (f a).2}
    (keeps : ∀ a : Arena, a.Matched b → (f a).2.Matched b) : Matching b (withArena f grows) :=
  ⟨fun _ c matched => ⟨⟨matched.bindings, keeps c.arena matched.arena, matched.params⟩, trivial⟩⟩

instance matching_withBindings {f : Program → Bindings → α × Bindings}
    {grows : ∀ p (b : Bindings), b.Extends (f p b).2} : Matching b (withBindings f grows) :=
  ⟨fun p c matched =>
    ⟨⟨matched.bindings.trans (grows p c.bindings), matched.arena, matched.params⟩, trivial⟩⟩

theorem upholds_info (t : TypeId) : Upholds b (info t) (TypeInfo.Matched b) :=
  .state fun _ matched => .pure (matched.arena t)

theorem upholds_data (t : TypeId) : Upholds b (data t) (TypeData.Matched b) :=
  .state fun _ matched => .pure (matched.arena t).data

theorem upholds_alias? (t : TypeId) :
    Upholds b (alias? t) fun found => ∀ ref ∈ found, b.Takes ref.symbol ref.args :=
  .state fun _ matched => .pure (matched.arena t).writtenAs

instance matching_data {t : TypeId} : Matching b (data t) := (upholds_data t).matching

instance matching_alias? {t : TypeId} : Matching b (alias? t) := (upholds_alias? t).matching

instance matching_isBoolean {t : TypeId} : Matching b (isBoolean t) := matching_bind

theorem matching_add {data : TypeData} (new : data.Matched b) : Matching b (add data) :=
  matching_withArena fun _ matched => matched.add new

theorem matching_addInfo {info : TypeInfo} (new : info.Matched b) : Matching b (addInfo info) :=
  matching_withArena fun _ matched => matched.addInfo new

theorem matching_reference {symbol : SymbolId} {args : List TypeId} (takes : b.Takes symbol args) :
    Matching b (reference symbol args) :=
  matching_withArena fun _ matched => matched.intern (k := .reference symbol args) takes

instance matching_union {members : List TypeId} : Matching b (union members) :=
  matching_withArena fun _ matched => matched.union members

instance matching_intersection {members : List TypeId} : Matching b (intersection members) :=
  matching_withArena fun _ matched => matched.intersection members

instance matching_tuple {items : List TypeId} : Matching b (tuple items) :=
  matching_withArena fun _ matched => matched.add trivial

instance matching_object {shape : Shape} : Matching b (object shape) :=
  matching_withArena fun _ matched => matched.add trivial

instance matching_stringLiteral {value : String} : Matching b (stringLiteral value) :=
  matching_withArena fun _ matched => matched.intern (k := .string value) trivial

instance matching_numberLiteral {text : String} : Matching b (numberLiteral text) :=
  matching_withArena fun _ matched => matched.intern (k := .number text) trivial

instance matching_booleanLiteral {value : Bool} : Matching b (booleanLiteral value) :=
  matching_withArena fun _ matched => matched.intern (k := .boolean value) trivial

instance matching_widen {t : TypeId} : Matching b (widen t) :=
  matching_withArena fun _ matched => matched.widen t

instance matching_unresolved {name : String} {args : List TypeId} : Matching b (unresolved name args) :=
  matching_add trivial

instance matching_callable {signature : Signature} : Matching b (callable signature) := matching_object

section

variable {s : SymbolId} {scope : TypeScope} {space : Space} {name : String}

instance matching_symbol? : Matching b (symbol? s) := matching_bind

instance matching_kind? : Matching b (kind? s) := matching_bind

/-- A symbol that is neither a package without typings nor a whole module is one of the program. -/
theorem upholds_kind? (s : SymbolId) : Upholds b (kind? s) fun found => ∀ kind ∈ found,
    kind ≠ .external → kind ≠ .moduleNamespace → (b.symbol? s).isSome = true :=
  .state fun _ matched => .pure fun _ found => matched.bindings.declared found

theorem upholds_decls (s : SymbolId) : Upholds b (decls s) fun found =>
    (b.symbol? s).isSome = true → found = b.decls s :=
  .state fun _ matched => .pure matched.bindings.decls

theorem upholds_global? : Upholds b (global? space name) fun found =>
    found = b.global.get? space name :=
  .state fun _ matched => .pure (by rw [matched.bindings.global])

instance matching_nameOf : Matching b (nameOf s) := matching_bind

instance matching_parent? : Matching b (parent? s) := matching_bind

instance matching_decls : Matching b (decls s) := matching_bind

instance matching_global? : Matching b (global? space name) := matching_bind

instance matching_lookup : Matching b (lookup scope space name) := matching_bind

instance matching_resolveAlias : Matching b (resolveAlias s space) := matching_withBindings

instance matching_exportOf {file : FileId} : Matching b (exportOf file space name) :=
  matching_withBindings

instance matching_member : Matching b (member s space name) := matching_withBindings

instance matching_scopeIn {file : FileId} : Matching b (scopeIn file s) := matching_bind

instance matching_resolveEntity {entity : Syntax.Entity} :
    Matching b (resolveEntity scope entity space) := by
  induction entity generalizing space with
  | ident name => exact matching_lookup
  | qualified left name ih =>
      have inside : ∀ container : Option SymbolId, Matching b (match container with
          | some s => member s space name
          | none => pure none) := by
        intro container
        cases container <;> infer_instance
      unfold resolveEntity
      refine .bind fun asValue => ?_
      cases asValue with
      | some s => exact .bind inside
      | none => exact .bind inside

end

/-! ### Answers that are kept -/

/-- What is kept is no type, and so are the questions that are being worked out. -/
theorem matching_once {κ : Type} [BEq κ] [Hashable κ] {memo : Checker → Memo κ α}
    {withMemo : Checker → Memo κ α → Checker} {k : κ} {meanwhile : α} {m : Check α}
    {bracket : ∀ p c, (memo c).find? k = none → (memo c).isRunning k = false →
      let r := m.outcome p (withMemo c ((memo c).enter k))
      Work c.arena.size c (withMemo r.2 ((memo r.2).leave k r.1))}
    (apart : ∀ c memo, c.Matched b → (withMemo c memo).Matched b) [work : Matching b m] :
    Matching b (once memo withMemo k meanwhile m bracket) := by
  refine ⟨fun p c matched => ?_⟩
  unfold once
  dsimp only
  split
  · exact ⟨matched, trivial⟩
  · split
    · exact ⟨matched, trivial⟩
    · exact ⟨apart _ _ (work.upholds p _ (apart c _ matched)).1, trivial⟩

instance matching_valueOnce {s : SymbolId} {m : Check TypeId} [Matching b m] :
    Matching b (valueOnce s m) :=
  matching_once fun _ _ matched => ⟨matched.bindings, matched.arena, matched.params⟩

instance matching_structureOnce {s : SymbolId} {m : Check Shape} [Matching b m] :
    Matching b (structureOnce s m) :=
  matching_once fun _ _ matched => ⟨matched.bindings, matched.arena, matched.params⟩

instance matching_shapeOnce {t : TypeId} {m : Check Shape}
    {denotes : ∀ p c, Denotes c.arena (m.outcome p c).2 t (m.outcome p c).1} [Matching b m] :
    Matching b (shapeOnce t m denotes) :=
  matching_once fun _ _ matched => ⟨matched.bindings, matched.arena, matched.params⟩

instance matching_evaluateOnce {t : TypeId} {m : Check TypeId}
    {plain : ∀ p c, (c.arena.data t).isOperator = false → (m.outcome p c).1 = t} [Matching b m] :
    Matching b (evaluateOnce t m plain) :=
  matching_once fun _ _ matched => ⟨matched.bindings, matched.arena, matched.params⟩

instance matching_elementOnce {m : Check (Option TypeId)} [matching : Matching b m] :
    Matching b (elementOnce m) := by
  refine ⟨fun p c matched => ?_⟩
  unfold elementOnce
  dsimp only
  split
  · exact ⟨matched, trivial⟩
  · have after := (matching.upholds p c matched).1
    exact ⟨⟨after.bindings, after.arena, after.params⟩, trivial⟩

/-! ### Declared types -/

instance matching_declareAs {s : SymbolId} {m : Check TypeId} [matching : Matching b m] :
    Matching b (declareAs s m) := by
  refine ⟨fun p c matched => ?_⟩
  unfold declareAs
  dsimp only
  split
  · exact ⟨matched, trivial⟩
  · have after := (matching.upholds p c matched).1
    exact ⟨⟨after.bindings, after.arena, after.params⟩, trivial⟩

/-- The place of an alias is filled with what its body comes to. -/
theorem matching_declareAlias {s : SymbolId} {body : TypeId → Check (TypeInfo × TypeId)}
    (read : ∀ t, Upholds b (body t) fun r => r.1.Matched b) : Matching b (declareAlias s body) := by
  refine ⟨fun p c matched => ?_⟩
  unfold declareAlias
  dsimp only
  split
  · exact ⟨matched, trivial⟩
  · have start : (reserving s c).Matched b :=
      ⟨matched.bindings, matched.arena.addInfo ⟨trivial, nofun⟩, matched.params⟩
    obtain ⟨after, filled⟩ := read ⟨c.arena.size⟩ p _ start
    exact ⟨⟨after.bindings, after.arena.set _ filled, after.params⟩, trivial⟩

instance matching_readingBody {s : SymbolId} {m : Check α} [matching : Matching b m] :
    Matching b (readingBody s m) := by
  refine ⟨fun p c matched => ?_⟩
  have start : Checker.Matched b { c with declaring := s :: c.declaring } :=
    ⟨matched.bindings, matched.arena, matched.params⟩
  have after := (matching.upholds p _ start).1
  exact ⟨⟨after.bindings, after.arena, after.params⟩, trivial⟩

/-! ### Type parameters -/

theorem matching_rememberParams {s : SymbolId} {ids : List TypeId}
    (same : (b.symbol? s).isSome = true → ids.length = b.arity s) :
    Matching b (rememberParams s ids) := by
  refine ⟨fun p c matched => ?_⟩
  unfold rememberParams
  dsimp only
  split
  · exact ⟨matched, trivial⟩
  · refine ⟨⟨matched.bindings, matched.arena, fun other known found => ?_⟩, trivial⟩
    rw [Std.HashMap.getElem?_insert] at found
    split at found
    · rename_i here
      rw [← eq_of_beq here, ← Option.some.inj found]
      exact same
    · exact matched.params other known found

theorem matched_reserveParams {a : Arena} (matched : a.Matched b) (names : List String) :
    (reserveParams a names).2.Matched b := by
  induction names generalizing a with
  | nil => exact matched
  | cons name rest ih => exact ih (matched.add trivial)

theorem matched_fillParams {describe : α → Check TypeParameter}
    [matching : ∀ x, Matching b (describe x)] (p : Program) {places : List (α × TypeId)} {c : Checker}
    (matched : c.Matched b) : (fillParams describe p places c).Matched b := by
  induction places generalizing c with
  | nil => exact matched
  | cons place rest ih =>
      have after := ((matching place.1).upholds p c matched).1
      exact ih ⟨after.bindings, after.arena.setData _ trivial, after.params⟩

/-- There is a new type for each type parameter. -/
theorem upholds_declareParams {params : List Syntax.TypeParam} {remember : List TypeId → Check Unit}
    {describe : List TypeId → Syntax.TypeParam → Check TypeParameter}
    (noted : ∀ ids, ids.length = params.length → Matching b (remember ids))
    [described : ∀ ids x, Matching b (describe ids x)] :
    Upholds b (declareParams params remember describe) fun ids => ids.length = params.length := by
  intro p c matched
  have length := (length_reserveParams c.arena (params.map (·.name))).trans (List.length_map _)
  have start : Checker.Matched b { c with arena := (reserveParams c.arena (params.map (·.name))).2 } :=
    ⟨matched.bindings, matched_reserveParams matched.arena _, matched.params⟩
  exact ⟨matched_fillParams p ((noted _ length).upholds p _ start).1, length⟩

end Check

end ApiDocs
