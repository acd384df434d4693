import ApiDocs.Checker
import ApiDocs.Proofs.Arena.Normal
import ApiDocs.Proofs.Safety.Rules

set_option autoImplicit false

/-!
Members with names of their own. A state is distinct if no two members of any shape in it have one
name. The rules below say how work that is put together from parts keeps states distinct if its parts
do, and that every way to change the state keeps it so as long as the shapes that go into it are.
-/

namespace ApiDocs

/-- No two members have one name. -/
def Shape.Distinct (s : Shape) : Prop := (s.members.map (·.name)).Nodup

def TypeData.Distinct : TypeData → Prop
  | .object shape => shape.Distinct
  | _ => True

/-- All objects among the types have members with names of their own. -/
def Arena.Distinct (a : Arena) : Prop := ∀ t, (a.data t).Distinct

/-- All shapes in the tables of a checker have members with names of their own. -/
structure Checker.Distinct (c : Checker) : Prop where
  arena : c.arena.Distinct
  structures : ∀ s shape, c.structures.find? s = some shape → shape.Distinct
  shapes : ∀ t shape, c.shapes.find? t = some shape → shape.Distinct

/-! ### Shapes -/

namespace Shape

theorem distinct_empty : ({} : Shape).Distinct := List.nodup_nil

theorem member?_isSome_iff (s : Shape) (name : String) :
    (s.member? name).isSome = true ↔ name ∈ s.members.map (·.name) := by
  simp only [member?, List.find?_isSome, decide_eq_true_eq, List.mem_map]

theorem Distinct.append {s : Shape} (distinct : s.Distinct) {m : Member}
    (new : m.name ∉ s.members.map (·.name)) : ((s.members ++ [m]).map (·.name)).Nodup := by
  rw [List.map_append, List.map_singleton, List.nodup_append]
  refine ⟨distinct, List.nodup_singleton _, fun name listed other last same => ?_⟩
  rw [same, List.mem_singleton.mp last] at listed
  exact new listed

theorem Distinct.addMember {s : Shape} (distinct : s.Distinct) (m : Member) :
    (s.addMember m).Distinct := by
  unfold Shape.addMember
  split
  · exact distinct
  · rename_i missing
    rw [member?_isSome_iff] at missing
    exact distinct.append missing

theorem Distinct.addMembers {s : Shape} (distinct : s.Distinct) (members : List Member) :
    (members.foldl Shape.addMember s).Distinct := by
  induction members generalizing s with
  | nil => exact distinct
  | cons m rest ih => exact ih (distinct.addMember m)

theorem Distinct.inherit {s : Shape} (distinct : s.Distinct) (base : Shape) :
    (s.inherit base).Distinct := distinct.addMembers base.members

end Shape

/-! ### Types -/

namespace Arena

variable {a : Arena}

theorem Distinct.addInfo (distinct : a.Distinct) {info : TypeInfo} (new : info.data.Distinct) :
    (a.addInfo info).2.Distinct := by
  intro t
  rw [Arena.data, info_addInfo]
  split
  · exact new
  · exact distinct t

theorem Distinct.add (distinct : a.Distinct) {data : TypeData} (new : data.Distinct) :
    (a.add data).2.Distinct := distinct.addInfo new

theorem Distinct.intern (distinct : a.Distinct) (k : InternKey) :
    (a.intern k k.data).2.Distinct := by
  rcases intern_cases a k with ⟨t, -, found⟩ | ⟨-, made⟩
  · rw [found]
    exact distinct
  · rw [made]
    exact distinct.add (by cases k <;> exact trivial)

theorem Distinct.union (distinct : a.Distinct) (members : List TypeId) :
    (a.union members).2.Distinct := by
  rcases union_cases a members with ⟨t, -, -, same⟩ | ⟨k, -, made⟩
  · rw [same]
    exact distinct
  · rw [made]
    exact distinct.intern k

theorem Distinct.intersection (distinct : a.Distinct) (members : List TypeId) :
    (a.intersection members).2.Distinct := by
  rcases intersection_cases a members with ⟨t, -, same⟩ | ⟨-, -, made⟩
  · rw [same]
    exact distinct
  · rw [made]
    exact distinct.add trivial

theorem Distinct.widen (distinct : a.Distinct) (t : TypeId) : (a.widen t).2.Distinct := by
  refine (widenTo_keeps Distinct (fun _ _ => True) ?_ ?_ ?_ ?_ _ a t distinct trivial).1
  · exact fun _ _ _ _ _ => trivial
  · exact fun _ _ _ _ => trivial
  · exact fun _ _ _ _ _ _ _ _ => trivial
  · exact fun a members distinct _ => ⟨distinct.union members, trivial⟩

/-- Filling one place leaves the others. -/
theorem Distinct.fill (distinct : a.Distinct) {a' : Arena} {t : TypeId}
    (here : (a'.data t).Distinct) (others : ∀ other, other ≠ t → a'.info other = a.info other) :
    a'.Distinct := by
  intro other
  by_cases same : other = t
  · rw [same]
    exact here
  · rw [data_eq (others other same)]
    exact distinct other

theorem Distinct.set (distinct : a.Distinct) (t : TypeId) {info : TypeInfo}
    (new : info.data.Distinct) : (a.set t info).Distinct := by
  refine distinct.fill (t := t) ?_ fun other differs => info_set_other a t other info differs
  by_cases inside : t.index < a.size
  · rw [Arena.data, Check.info_set_self info inside]
    exact new
  · have missing := info_of_size_le (a.set t info) t (by rw [size_set]; omega)
    rw [Arena.data, missing]
    exact trivial

theorem Distinct.setData (distinct : a.Distinct) (t : TypeId) {data : TypeData}
    (new : data.Distinct) : (a.setData t data).Distinct := by
  refine distinct.fill (t := t) ?_ fun other differs => info_setData_other a t other data differs
  by_cases inside : t.index < a.size
  · rw [data_setData_self a t data inside]
    exact new
  · have missing := info_of_size_le (a.setData t data) t (by rw [size_setData]; omega)
    rw [Arena.data, missing]
    exact trivial

theorem distinct_initial : initial.Distinct := by
  have keywords : ∀ (list : List Intrinsic) (a : Arena), a.Distinct →
      (list.foldl (fun a i => (a.add (.intrinsic i)).2) a).Distinct := by
    intro list
    induction list with
    | nil => exact fun _ start => start
    | cons i rest ih => exact fun a start => ih _ (start.add trivial)
  have start := keywords Intrinsic.all {} fun _ => trivial
  exact ((start.intern (.boolean false)).intern (.boolean true)).intern (.union [falseId, trueId])

end Arena

/-! ### Work -/

namespace Check

variable {α β : Type}

/-- What each answer has in common with its item in every state, the answers have in common with the
items. -/
theorem map_mapM {γ : Type} {f : α → Check β} {key : β → γ} {given : α → γ}
    (each : ∀ x p c, key ((f x).outcome p c).1 = given x) (list : List α) (p : Program)
    (c : Checker) : ((list.mapM f).outcome p c).1.map key = list.map given := by
  induction list generalizing c with
  | nil => rfl
  | cons x rest ih =>
      rw [List.mapM_cons]
      simp only [outcome_bind, outcome_pure, List.map_cons, each, ih]

/-- Work that keeps states distinct, with an answer of some kind. -/
def Ensures (m : Check α) (holds : α → Prop) : Prop :=
  ∀ p c, c.Distinct → (m.outcome p c).2.Distinct ∧ holds (m.outcome p c).1

/-- Work that keeps states distinct. -/
class Neat (m : Check α) : Prop where
  ensures : Ensures m fun _ => True

namespace Ensures

variable {holds : α → Prop} {then_ : β → Prop}

theorem neat {m : Check α} (ensures : Ensures m holds) : Neat m :=
  ⟨fun p c distinct => ⟨(ensures p c distinct).1, trivial⟩⟩

theorem mono {m : Check α} {weaker : α → Prop} (ensures : Ensures m holds)
    (weakens : ∀ a, holds a → weaker a) : Ensures m weaker :=
  fun p c distinct => ⟨(ensures p c distinct).1, weakens _ (ensures p c distinct).2⟩

theorem pure {a : α} (here : holds a) : Ensures (Pure.pure a) holds :=
  fun _ _ distinct => ⟨distinct, here⟩

theorem bind {m : Check α} {f : α → Check β} (first : Ensures m holds)
    (next : ∀ a, holds a → Ensures (f a) then_) : Ensures (m >>= f) then_ := by
  intro p c distinct
  obtain ⟨after, here⟩ := first p c distinct
  exact next _ here p _ after

/-- Nothing is relied on. -/
theorem skip {m : Check α} {f : α → Check β} [neat : Neat m]
    (next : ∀ a, Ensures (f a) then_) : Ensures (m >>= f) then_ :=
  neat.ensures.bind fun a _ => next a

theorem state {f : Checker → Check β} (next : ∀ c : Checker, c.Distinct → Ensures (f c) then_) :
    Ensures (Check.state >>= f) then_ := fun p c distinct => next c distinct p c distinct

theorem foldlM {f : β → α → Check β} {list : List α} {b : β} {holds : β → Prop}
    (each : ∀ b x, holds b → Ensures (f b x) holds) (start : holds b) :
    Ensures (list.foldlM f b) holds := by
  induction list generalizing b with
  | nil => exact pure start
  | cons x rest ih =>
      rw [List.foldlM_cons]
      exact (each b x start).bind fun _ next => ih next

theorem and {m : Check α} {other : α → Prop} (first : Ensures m holds) (second : Ensures m other) :
    Ensures m fun a => holds a ∧ other a :=
  fun p c distinct => ⟨(first p c distinct).1, (first p c distinct).2, (second p c distinct).2⟩

theorem map {m : Check α} {f : α → β} (first : Ensures m holds) (next : ∀ a, holds a → then_ (f a)) :
    Ensures (f <$> m) then_ :=
  fun p c distinct => ⟨(first p c distinct).1, next _ (first p c distinct).2⟩

theorem mapM {f : α → Check β} {list : List α} (each : ∀ x, Ensures (f x) then_) :
    Ensures (list.mapM f) fun answers => ∀ b ∈ answers, then_ b := by
  induction list with
  | nil => exact pure nofun
  | cons x rest ih =>
      rw [List.mapM_cons]
      exact (each x).bind fun b first => ih.bind fun bs later =>
        pure (List.forall_mem_cons.mpr ⟨first, later⟩)

theorem mapM_option {f : α → Check β} {o : Option α} (each : ∀ x, Ensures (f x) then_) :
    Ensures (o.mapM f) fun answer => ∀ b ∈ answer, then_ b := by
  cases o with
  | none => exact pure nofun
  | some x => exact (each x).map fun b here b' same => Option.some.inj same ▸ here

/-- What each answer has in common with its item, the answers have in common with the items. -/
theorem mapM_map {γ : Type} {f : α → Check β} {ofItem : α → γ} {ofAnswer : β → γ} {list : List α}
    (each : ∀ x, Ensures (f x) fun y => ofAnswer y = ofItem x) :
    Ensures (list.mapM f) fun answers => answers.map ofAnswer = list.map ofItem := by
  induction list with
  | nil => exact pure rfl
  | cons x rest ih =>
      rw [List.mapM_cons]
      refine (each x).bind fun y first => ih.bind fun answers later => pure ?_
      rw [List.map_cons, List.map_cons, first, later]

end Ensures

namespace Neat

/-- What comes next relies on the answer. -/
theorem andThen {m : Check α} {f : α → Check β} {holds : α → Prop} (first : Ensures m holds)
    (next : ∀ a, holds a → Neat (f a)) : Neat (m >>= f) :=
  (first.bind fun a here => (next a here).ensures).neat

theorem bind {m : Check α} {f : α → Check β} [neat : Neat m] (next : ∀ a, Neat (f a)) :
    Neat (m >>= f) := .andThen neat.ensures fun a _ => next a

end Neat

instance neat_pure {a : α} : Neat (pure a) := ⟨.pure trivial⟩

instance neat_bind {m : Check α} {f : α → Check β} [Neat m] [∀ a, Neat (f a)] : Neat (m >>= f) :=
  .bind inferInstance

instance neat_map {m : Check α} {f : α → β} [Neat m] : Neat (f <$> m) := by
  rw [← bind_pure_comp]
  infer_instance

instance neat_ite {condition : Prop} [Decidable condition] {first second : Check α}
    [yes : Neat first] [no : Neat second] : Neat (if condition then first else second) := by
  split
  · exact yes
  · exact no

instance neat_state : Neat Check.state := ⟨fun _ _ distinct => ⟨distinct, trivial⟩⟩

instance neat_read : Neat (read : Check Program) := ⟨fun _ _ distinct => ⟨distinct, trivial⟩⟩

instance neat_giveUp : Neat giveUp :=
  ⟨fun _ _ distinct => ⟨⟨distinct.arena, distinct.structures, distinct.shapes⟩, trivial⟩⟩

instance neat_foldlM {f : β → α → Check β} {list : List α} {b : β} [each : ∀ b x, Neat (f b x)] :
    Neat (list.foldlM f b) :=
  (Ensures.foldlM (fun b x _ => (each b x).ensures) trivial).neat

instance neat_mapM {f : α → Check β} {list : List α} [each : ∀ x, Neat (f x)] :
    Neat (list.mapM f) := by
  induction list with
  | nil =>
      rw [List.mapM_nil]
      infer_instance
  | cons x rest ih =>
      rw [List.mapM_cons]
      infer_instance

instance neat_filterMapM {f : α → Check (Option β)} {list : List α} [each : ∀ x, Neat (f x)] :
    Neat (list.filterMapM f) := by
  induction list with
  | nil =>
      rw [List.filterMapM_nil]
      infer_instance
  | cons x rest ih =>
      rw [List.filterMapM_cons]
      refine .bind fun b => ?_
      cases b with
      | none => exact ih
      | some b => infer_instance

instance neat_mapM_option {f : α → Check β} {o : Option α} [each : ∀ x, Neat (f x)] :
    Neat (o.mapM f) := by
  cases o with
  | none => exact neat_pure
  | some x => exact neat_map

/-! ### Growing tables -/

theorem neat_withArena {f : Arena → α × Arena} {grows : ∀ a : Arena, a.Extends (f a).2}
    (keeps : ∀ a : Arena, a.Distinct → (f a).2.Distinct) : Neat (withArena f grows) :=
  ⟨fun _ c distinct =>
    ⟨⟨keeps c.arena distinct.arena, distinct.structures, distinct.shapes⟩, trivial⟩⟩

instance neat_withBindings {f : Program → Bindings → α × Bindings}
    {grows : ∀ p (b : Bindings), b.Extends (f p b).2} : Neat (withBindings f grows) :=
  ⟨fun _ _ distinct => ⟨⟨distinct.arena, distinct.structures, distinct.shapes⟩, trivial⟩⟩

theorem ensures_info (t : TypeId) : Ensures (info t) fun info => info.data.Distinct :=
  .state fun _ distinct => .pure (distinct.arena t)

theorem ensures_data (t : TypeId) : Ensures (data t) TypeData.Distinct :=
  .state fun _ distinct => .pure (distinct.arena t)

instance neat_data {t : TypeId} : Neat (data t) := (ensures_data t).neat

instance neat_alias? {t : TypeId} : Neat (alias? t) := neat_bind

instance neat_isBoolean {t : TypeId} : Neat (isBoolean t) := neat_bind

theorem neat_add {data : TypeData} (new : data.Distinct) : Neat (add data) :=
  neat_withArena fun _ distinct => distinct.add new

theorem neat_addInfo {info : TypeInfo} (new : info.data.Distinct) : Neat (addInfo info) :=
  neat_withArena fun _ distinct => distinct.addInfo new

instance neat_union {members : List TypeId} : Neat (union members) :=
  neat_withArena fun _ distinct => distinct.union members

instance neat_intersection {members : List TypeId} : Neat (intersection members) :=
  neat_withArena fun _ distinct => distinct.intersection members

instance neat_tuple {items : List TypeId} : Neat (tuple items) :=
  neat_withArena fun _ distinct => distinct.add trivial

theorem neat_object {shape : Shape} (distinct : shape.Distinct) : Neat (object shape) :=
  neat_withArena fun _ before => before.add distinct

instance neat_reference {symbol : SymbolId} {args : List TypeId} : Neat (reference symbol args) :=
  neat_withArena fun _ distinct => distinct.intern (.reference symbol args)

instance neat_stringLiteral {value : String} : Neat (stringLiteral value) :=
  neat_withArena fun _ distinct => distinct.intern (.string value)

instance neat_numberLiteral {text : String} : Neat (numberLiteral text) :=
  neat_withArena fun _ distinct => distinct.intern (.number text)

instance neat_booleanLiteral {value : Bool} : Neat (booleanLiteral value) :=
  neat_withArena fun _ distinct => distinct.intern (.boolean value)

instance neat_widen {t : TypeId} : Neat (widen t) :=
  neat_withArena fun _ distinct => distinct.widen t

instance neat_unresolved {name : String} {args : List TypeId} : Neat (unresolved name args) :=
  neat_add trivial

instance neat_callable {signature : Signature} : Neat (callable signature) :=
  neat_object Shape.distinct_empty

section

variable {s : SymbolId} {scope : TypeScope} {space : Space} {name : String}

instance neat_symbol? : Neat (symbol? s) := neat_bind

instance neat_kind? : Neat (kind? s) := neat_bind

instance neat_nameOf : Neat (nameOf s) := neat_bind

instance neat_parent? : Neat (parent? s) := neat_bind

instance neat_decls : Neat (decls s) := neat_bind

instance neat_global? : Neat (global? space name) := neat_bind

instance neat_lookup : Neat (lookup scope space name) := neat_bind

instance neat_resolveAlias : Neat (resolveAlias s space) := neat_withBindings

instance neat_exportOf {file : FileId} : Neat (exportOf file space name) := neat_withBindings

instance neat_member : Neat (member s space name) := neat_withBindings

instance neat_scopeIn {file : FileId} : Neat (scopeIn file s) := neat_bind

instance neat_resolveEntity {entity : Syntax.Entity} : Neat (resolveEntity scope entity space) := by
  induction entity generalizing space with
  | ident name => exact neat_lookup
  | qualified left name ih =>
      have inside : ∀ container : Option SymbolId, Neat (match container with
          | some s => member s space name
          | none => pure none) := by
        intro container
        cases container <;> infer_instance
      unfold resolveEntity
      refine .bind fun asValue => ?_
      cases asValue with
      | some s => exact .bind inside
      | none => exact .bind inside

end

/-! ### Answers that are kept -/

theorem ensures_once {κ : Type} [BEq κ] [Hashable κ] {memo : Checker → Memo κ α}
    {withMemo : Checker → Memo κ α → Checker} {k : κ} {meanwhile : α} {m : Check α}
    {bracket : ∀ p c, (memo c).find? k = none → (memo c).isRunning k = false →
      let r := m.outcome p (withMemo c ((memo c).enter k))
      Work c.arena.size c (withMemo r.2 ((memo r.2).leave k r.1))} {holds : α → Prop}
    (known : ∀ c, c.Distinct → ∀ a, (memo c).find? k = some a → holds a) (start : holds meanwhile)
    (enter : ∀ c, c.Distinct → (withMemo c ((memo c).enter k)).Distinct)
    (leave : ∀ c a, c.Distinct → holds a → (withMemo c ((memo c).leave k a)).Distinct)
    (work : Ensures m holds) : Ensures (once memo withMemo k meanwhile m bracket) holds := by
  intro p c distinct
  unfold once
  dsimp only
  split
  · rename_i a found
    exact ⟨distinct, known c distinct a found⟩
  · split
    · exact ⟨distinct, start⟩
    · obtain ⟨after, answer⟩ := work p _ (enter c distinct)
      exact ⟨leave _ _ after answer, answer⟩

instance neat_valueOnce {s : SymbolId} {m : Check TypeId} [neat : Neat m] : Neat (valueOnce s m) :=
  ⟨ensures_once (fun _ _ _ _ => trivial) trivial
    (fun _ distinct => ⟨distinct.arena, distinct.structures, distinct.shapes⟩)
    (fun _ _ distinct _ => ⟨distinct.arena, distinct.structures, distinct.shapes⟩) neat.ensures⟩

instance neat_evaluateOnce {t : TypeId} {m : Check TypeId}
    {plain : ∀ p c, (c.arena.data t).isOperator = false → (m.outcome p c).1 = t} [neat : Neat m] :
    Neat (evaluateOnce t m plain) :=
  ⟨ensures_once (fun _ _ _ _ => trivial) trivial
    (fun _ distinct => ⟨distinct.arena, distinct.structures, distinct.shapes⟩)
    (fun _ _ distinct _ => ⟨distinct.arena, distinct.structures, distinct.shapes⟩) neat.ensures⟩

theorem ensures_structureOnce {s : SymbolId} {m : Check Shape} (work : Ensures m Shape.Distinct) :
    Ensures (structureOnce s m) Shape.Distinct := by
  refine ensures_once (fun c distinct a found => distinct.structures s a found) Shape.distinct_empty
    (fun _ distinct => ⟨distinct.arena, distinct.structures, distinct.shapes⟩)
    (fun c a distinct here => ⟨distinct.arena, fun other shape found => ?_, distinct.shapes⟩) work
  rcases find?_leave_cases found with ⟨-, same⟩ | before
  · exact same ▸ here
  · exact distinct.structures other shape before

theorem ensures_shapeOnce {t : TypeId} {m : Check Shape}
    {denotes : ∀ p c, Denotes c.arena (m.outcome p c).2 t (m.outcome p c).1}
    (work : Ensures m Shape.Distinct) : Ensures (shapeOnce t m denotes) Shape.Distinct := by
  refine ensures_once (fun c distinct a found => distinct.shapes t a found) Shape.distinct_empty
    (fun _ distinct => ⟨distinct.arena, distinct.structures, distinct.shapes⟩)
    (fun c a distinct here => ⟨distinct.arena, distinct.structures, fun other shape found => ?_⟩) work
  rcases find?_leave_cases found with ⟨-, same⟩ | before
  · exact same ▸ here
  · exact distinct.shapes other shape before

instance neat_elementOnce {m : Check (Option TypeId)} [neat : Neat m] : Neat (elementOnce m) := by
  refine ⟨fun p c distinct => ?_⟩
  unfold elementOnce
  dsimp only
  split
  · exact ⟨distinct, trivial⟩
  · have after := (neat.ensures p c distinct).1
    exact ⟨⟨after.arena, after.structures, after.shapes⟩, trivial⟩

/-! ### Declared types -/

instance neat_declareAs {s : SymbolId} {m : Check TypeId} [neat : Neat m] : Neat (declareAs s m) := by
  refine ⟨fun p c distinct => ?_⟩
  unfold declareAs
  dsimp only
  split
  · exact ⟨distinct, trivial⟩
  · have after := (neat.ensures p c distinct).1
    exact ⟨⟨after.arena, after.structures, after.shapes⟩, trivial⟩

/-- The place of an alias is filled with what its body comes to. -/
theorem neat_declareAlias {s : SymbolId} {body : TypeId → Check (TypeInfo × TypeId)}
    (read : ∀ t, Ensures (body t) fun r => r.1.data.Distinct) : Neat (declareAlias s body) := by
  refine ⟨fun p c distinct => ?_⟩
  unfold declareAlias
  dsimp only
  split
  · exact ⟨distinct, trivial⟩
  · have start : (reserving s c).Distinct :=
      ⟨distinct.arena.addInfo trivial, distinct.structures, distinct.shapes⟩
    obtain ⟨after, filled⟩ := read ⟨c.arena.size⟩ p _ start
    exact ⟨⟨after.arena.set _ filled, after.structures, after.shapes⟩, trivial⟩

instance neat_readingBody {s : SymbolId} {m : Check α} [neat : Neat m] : Neat (readingBody s m) := by
  refine ⟨fun p c distinct => ?_⟩
  have start : Checker.Distinct { c with declaring := s :: c.declaring } :=
    ⟨distinct.arena, distinct.structures, distinct.shapes⟩
  have after := (neat.ensures p _ start).1
  exact ⟨⟨after.arena, after.structures, after.shapes⟩, trivial⟩

/-! ### Type parameters -/

instance neat_rememberParams {s : SymbolId} {ids : List TypeId} : Neat (rememberParams s ids) := by
  refine ⟨fun p c distinct => ?_⟩
  unfold rememberParams
  dsimp only
  split
  · exact ⟨distinct, trivial⟩
  · exact ⟨⟨distinct.arena, distinct.structures, distinct.shapes⟩, trivial⟩

theorem distinct_reserveParams {a : Arena} (distinct : a.Distinct) (names : List String) :
    (reserveParams a names).2.Distinct := by
  induction names generalizing a with
  | nil => exact distinct
  | cons name rest ih => exact ih (distinct.add trivial)

theorem distinct_fillParams {describe : α → Check TypeParameter} [neat : ∀ x, Neat (describe x)]
    (p : Program) {places : List (α × TypeId)} {c : Checker} (distinct : c.Distinct) :
    (fillParams describe p places c).Distinct := by
  induction places generalizing c with
  | nil => exact distinct
  | cons place rest ih =>
      have after := ((neat place.1).ensures p c distinct).1
      exact ih ⟨after.arena.setData _ trivial, after.structures, after.shapes⟩

instance neat_declareParams {params : List Syntax.TypeParam} {remember : List TypeId → Check Unit}
    {describe : List TypeId → Syntax.TypeParam → Check TypeParameter}
    [noted : ∀ ids, Neat (remember ids)] [described : ∀ ids x, Neat (describe ids x)] :
    Neat (declareParams params remember describe) := by
  refine ⟨fun p c distinct => ?_⟩
  have start : Checker.Distinct
      { c with arena := (reserveParams c.arena (params.map (·.name))).2 } :=
    ⟨distinct_reserveParams distinct.arena _, distinct.structures, distinct.shapes⟩
  have after := ((noted (reserveParams c.arena (params.map (·.name))).1).ensures p _ start).1
  exact ⟨distinct_fillParams p after, trivial⟩

end Check

end ApiDocs
