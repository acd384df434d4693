import Mathlib.Data.List.Nodup
import ApiDocs.Proofs.Members.Packages
import ApiDocs.Proofs.Reexports

set_option autoImplicit false

/-!
Properties of components. They are those of the leaves of a type: the types that are left when unions
and intersections are taken apart and read-only forms are looked through. Their lists stand one behind
the other, so that a name is listed once for each leaf that has it. The members of an intersection
have each name once, in the order in which its parts come to it.
-/

namespace ApiDocs

open Check

namespace Checker

/-- The type that a read-only form stands for, once it was looked through. -/
def wrapped? (c : Checker) (t : TypeId) : Option TypeId :=
  match c.arena.alias? t with
  | none => none
  | some ref =>
      if c.bindings.nameOf ref.symbol = Render.readonlyName then
        ref.args.head?.bind fun wrapped =>
          match c.arena.alias? wrapped with
          | some inner => c.declared[inner.symbol]?
          | none => some wrapped
      else none

/-- The types whose members a component has as its properties. -/
def leaves (c : Checker) : Nat → TypeId → List TypeId
  | 0, _ => []
  | n + 1, t =>
      match Render.parts? (c.arena.isBoolean t) (c.arena.data t) with
      | some members => members.flatMap (leaves c n)
      | none =>
          match c.wrapped? t with
          | some wrapped => leaves c n wrapped
          | none => [t]

/-- The names of the members of a type. -/
def memberNames (p : Program) (c : Checker) (t : TypeId) : List String :=
  (c.answer p (Check.members t)).map (·.name)

variable {p : Program} {c c' : Checker} {t : TypeId}

theorem alias?_later (known : Known c t) (later : c.Later c') :
    c'.arena.alias? t = c.arena.alias? t :=
  congrArg TypeInfo.writtenAs (later.info t (known_type_iff.mp known))

theorem data_later (known : Known c t) (later : c.Later c') : c'.arena.data t = c.arena.data t :=
  congrArg TypeInfo.data (later.info t (known_type_iff.mp known))

theorem isBoolean_later (known : Known c t) (later : c.Later c') :
    c'.arena.isBoolean t = c.arena.isBoolean t := by
  unfold Arena.isBoolean
  rw [data_later known later]

/-- The members of a type have names of their own. -/
theorem nodup_memberNames (distinct : c.Distinct) (t : TypeId) : (c.memberNames p t).Nodup :=
  (ensures_members t p c distinct).2

end Checker

namespace Render

open Checker

variable {p : Program} {c c' : Checker} {t : TypeId}

/-- What a type is a read-only form of is found in all later states. -/
theorem wrapped?_later (reached : Reached p c) (known : Known c t) (sound : c.Sound p)
    (later : ((readonlyOf? t).outcome p c).2.Later c') :
    c'.wrapped? t = ((readonlyOf? t).outcome p c).1 := by
  have before : c.Later c' := Later.trans ((readonlyOf? t).kept p c) later
  unfold wrapped?
  rw [alias?_later known before]
  unfold readonlyOf? at later ⊢
  simp only [outcome_bind, outcome_alias?] at later ⊢
  have parts : Known c (c.arena.alias? t) :=
    (known_info_iff.mp (sound.infos t (known_type_iff.mp known))).2
  cases written : c.arena.alias? t with
  | none => rfl
  | some ref =>
      rw [written] at later parts
      obtain ⟨symbol, args⟩ := known_aliasRef_iff.mp parts.of_some
      simp only [outcome_bind, outcome_nameOf] at later ⊢
      have name : c'.bindings.nameOf ref.symbol = c.bindings.nameOf ref.symbol := by
        simp only [Bindings.nameOf, symbol_stays (.refl c) symbol before]
      rw [name]
      by_cases readonly : c.bindings.nameOf ref.symbol = readonlyName
      · simp only [readonly, ↓reduceIte] at later ⊢
        cases first : ref.args.head? with
        | none => rfl
        | some wrapped =>
            have inside : Known c wrapped := args.mem (List.mem_of_head? first)
            rw [first] at later
            simp only [Option.bind_some, alias?_later inside before]
            simp only [Option.mapM_some, outcome_bind, outcome_alias?, map_eq_pure_bind] at later ⊢
            cases written : c.arena.alias? wrapped with
            | none => rfl
            | some inner =>
                rw [written] at later
                exact gives_declaredType p inner.symbol c reached c' later
      · simp only [readonly, ↓reduceIte]
        rfl

/-- What is shown of a member has its name. -/
theorem name_property (child : TypeId → Check Bound) (m : Member) (p : Program) (c : Checker) :
    ((property child m).outcome p c).1.name = m.name := rfl

/-- Lists that are each known by a later state are known together. -/
theorem names_mapM {f : TypeId → Check (List Property)} {names : TypeId → List String}
    (steady : ∀ (m : TypeId) (c : Checker), c.Started → Known c m → Steady p c (f m))
    (each : ∀ {c : Checker} {m : TypeId}, c.Sound p → Reached p c → Known c m →
      ((f m).outcome p c).2.Later c' → ((f m).outcome p c).1.map (·.name) = names m)
    {list : List TypeId} (sound : c.Sound p) (reached : Reached p c) (known : Known c list)
    (later : ((list.mapM f).outcome p c).2.Later c') :
    ((list.mapM f).outcome p c).1.flatten.map (·.name) = list.flatMap names := by
  induction list generalizing c with
  | nil => rfl
  | cons m rest ih =>
      have here : Known c m := known.mem List.mem_cons_self
      have others : Known c rest := known.sublist fun _ => List.mem_cons_of_mem m
      rw [List.mapM_cons] at later ⊢
      have first : ((f m).outcome p c).2.Later c' := Role.later_first later
      have next := ((steady m c sound.started here).outcome c (.refl c) sound).1
      have grown : c.Before ((f m).outcome p c).2 := Check.before _ p c
      simp only [outcome_bind, outcome_pure] at later ⊢
      rw [List.flatten_cons, List.map_append, List.flatMap_cons, each sound reached here first,
        ih next (reached.after _) (others.later grown) later]

/-- The names of the properties are those of the members of the leaves, one leaf after the other. -/
theorem names_propsAt (n : Nat) (sound : c.Sound p) (reached : Reached p c) (known : Known c t)
    (later : ((propsAt n t).outcome p c).2.Later c') (after : c'.Sound p) :
    ((propsAt n t).outcome p c).1.map (·.name) = (c'.leaves n t).flatMap (c'.memberNames p) := by
  -- The state grows while the type is taken apart; the last one, `c'`, is later than all of them.
  induction n generalizing c t with
  | zero => rfl
  | succ n ih =>
      have before : c.Later c' := Later.trans ((propsAt (n + 1) t).kept p c) later
      have started := sound.started
      have data : Known c (c.arena.data t) :=
        (known_info_iff.mp (sound.infos t (known_type_iff.mp known))).1
      have parts : Known c (parts? (c.arena.isBoolean t) (c.arena.data t)) := known_parts?
      unfold leaves
      rw [isBoolean_later known before, data_later known before]
      unfold propsAt at later ⊢
      simp only [outcome_bind, outcome_isBoolean, outcome_data] at later ⊢
      cases apart : parts? (c.arena.isBoolean t) (c.arena.data t) with
      | some members =>
          rw [apart] at later parts
          dsimp only
          rw [List.flatMap_assoc]
          exact names_mapM (fun m c _ _ => steady_propsAt) ih sound reached parts.of_some later
      | none =>
          rw [apart] at later
          simp only [outcome_bind] at later ⊢
          have first : ((readonlyOf? t).outcome p c).2.Later c' := Later.trans (Check.kept _ p _) later
          have steady : Steady p c (readonlyOf? t) := steady_readonlyOf?
          obtain ⟨next, here⟩ := steady.outcome c (.refl c) sound
          have grown : c.Before ((readonlyOf? t).outcome p c).2 := Check.before _ p c
          have still := known.later grown
          rw [wrapped?_later reached known sound first]
          cases found : ((readonlyOf? t).outcome p c).1 with
          | some wrapped =>
              rw [found] at later here
              exact ih next (reached.after _) here.of_some later
          | none =>
              rw [found] at later
              have started := next.started
              have listed : ((Check.members t).outcome p ((readonlyOf? t).outcome p c).2).2.Later c' :=
                Role.later_first later
              have told := Role.answer_later next (reached.after _) listed after
              simp only [outcome_bind]
              rw [List.flatMap_singleton, memberNames, told]
              exact map_mapM (name_property (boundAt n true)) _ p _

/-! ### Components -/

/-- The properties of a component: there are none, or they were collected for a type, in an earlier
state. -/
def Collected (p : Program) (c' : Checker) (properties : List Property) : Prop :=
  properties = [] ∨ ∃ c t, c.Sound p ∧ Reached p c ∧ Known c t ∧
    ((props t).outcome p c).2.Later c' ∧ ((props t).outcome p c).1 = properties

/-- The state after work, and what it answers with. -/
theorem Steady.next {α : Type} [Mentions α] {m : Check α} (steady : Steady p c m) (sound : c.Sound p)
    (reached : Reached p c) :
    let r := m.outcome p c
    r.2.Sound p ∧ Reached p r.2 ∧ r.2.Started ∧ Known r.2 r.1 ∧ c.Before r.2 := by
  obtain ⟨after, known⟩ := steady.outcome c (.refl c) sound
  exact ⟨after, reached.after m, after.started, known, Check.before _ p c⟩

theorem collected_functionProps? (sound : c.Sound p) (reached : Reached p c) (known : Known c t)
    (later : ((functionProps? t).outcome p c).2.Later c') {properties : List Property}
    (found : ((functionProps? t).outcome p c).1 = some properties) :
    Collected p c' properties := by
  have started := sound.started
  unfold functionProps? at later found
  rw [outcome_bind] at later found
  obtain ⟨after, still, _, signatures, -⟩ := Steady.next
    (steady_callSignatures : Steady p c (Check.callSignatures t)) sound reached
  generalize (Check.callSignatures t).outcome p c = r at later found after still signatures
  obtain ⟨list, c₁⟩ := r
  cases list with
  | nil => cases found
  | cons s rest =>
      have : Known c₁ s := signatures.mem List.mem_cons_self
      have all : Known c₁ s.params := inferInstance
      simp only [outcome_bind, outcome_state] at later found
      by_cases element : (decide (s.params.length ≤ 2) && c₁.isElement s.result) = true
      · simp only [element, ↓reduceIte] at later found
        cases given : s.params with
        | nil =>
            rw [given] at found
            cases found
            exact Or.inl rfl
        | cons first others =>
            rw [given] at later found all
            simp only [map_eq_pure_bind, outcome_bind, outcome_pure, Option.some.injEq] at later found
            have here : Known c₁ first := all.mem List.mem_cons_self
            exact Or.inr ⟨c₁, first.type, after, still, inferInstance, later, found⟩
      · simp only [element] at found
        cases found

theorem collected_classProps? (sound : c.Sound p) (reached : Reached p c) (known : Known c t)
    (later : ((classProps? t).outcome p c).2.Later c') {properties : List Property}
    (found : ((classProps? t).outcome p c).1 = some properties) : Collected p c' properties := by
  have started := sound.started
  unfold classProps? at later found
  rw [outcome_bind] at later found
  obtain ⟨after, still, _, signatures, -⟩ := Steady.next
    (steady_constructSignatures : Steady p c (Check.constructSignatures t)) sound reached
  generalize (Check.constructSignatures t).outcome p c = r at later found after still signatures
  obtain ⟨list, c₁⟩ := r
  cases list with
  | nil => cases found
  | cons s rest =>
      have : Known c₁ s := signatures.mem List.mem_cons_self
      have started := after.started
      rw [outcome_bind] at later found
      obtain ⟨after, still, started, propsKnown, grown⟩ := Steady.next
        (steady_member? : Steady p c₁ (Check.member? s.result "props")) after still
      generalize (Check.member? s.result "props").outcome p c₁ = r at *
      obtain ⟨here, c₂⟩ := r
      cases here with
      | none => cases found
      | some given =>
          have given_ : Known c₂ given := propsKnown.of_some
          rw [outcome_bind] at later found
          obtain ⟨after, still, started, renderKnown, second⟩ := Steady.next
            (steady_member? : Steady p c₂ (Check.member? s.result "render")) after still
          generalize (Check.member? s.result "render").outcome p c₂ = r at *
          obtain ⟨render, c₃⟩ := r
          cases render with
          | none => cases found
          | some render =>
              have : Known c₃ render := renderKnown.of_some
              rw [outcome_bind] at later found
              obtain ⟨after, still, started, -, third⟩ := Steady.next
                (steady_callSignatures : Steady p c₃ (Check.callSignatures render.type)) after still
              generalize (Check.callSignatures render.type).outcome p c₃ = r at *
              obtain ⟨calls, c₄⟩ := r
              cases calls with
              | nil => cases found
              | cons call others =>
                  simp only [outcome_bind, outcome_state] at later found
                  by_cases element : (call.params.isEmpty && c₄.isElement call.result) = true
                  · simp only [element, ↓reduceIte, map_eq_pure_bind, outcome_bind, outcome_pure,
                      Option.some.injEq] at later found
                    have type : Known c₄ given.type := by
                      have : Known c₄ given := given_.later (second.trans third)
                      infer_instance
                    exact Or.inr ⟨c₄, given.type, after, still, type, later, found⟩
                  · simp only [element] at found
                    cases found

/-- The properties that a component is shown with were collected for a type, if there are any. -/
theorem collected_componentProps? (sound : c.Sound p) (reached : Reached p c) (known : Known c t)
    (later : ((componentProps? t).outcome p c).2.Later c') {properties : List Property}
    (found : ((componentProps? t).outcome p c).1 = some properties) :
    Collected p c' properties := by
  have started := sound.started
  unfold componentProps? at later found
  have first := Role.later_first later
  obtain ⟨after, still, -, -, grown⟩ := Steady.next
    (steady_classProps? : Steady p c (classProps? t)) sound reached
  rw [outcome_bind] at later found
  cases asClass : ((classProps? t).outcome p c).1 with
  | some own =>
      rw [asClass] at found
      obtain rfl := Option.some.inj found
      exact collected_classProps? sound reached known first asClass
  | none =>
      rw [asClass] at later found
      exact collected_functionProps? after still (known.later grown) later found

end Render

namespace Content

open Checker Render

variable {p : Program} {c c' : Checker} {content : Content} {properties : List Property}
  (body : content.body = .component properties)

include body

theorem collected_ofCallable {t : TypeId} (sound : c.Sound p) (reached : Reached p c)
    (known : Known c t) (later : ((ofCallable t).outcome p c).2.Later c')
    (given : ((ofCallable t).outcome p c).1 = some content) : Collected p c' properties := by
  unfold ofCallable at later given
  have first := Role.later_first later
  rw [outcome_bind] at given
  generalize shown : (componentProps? t).outcome p c = r at given
  obtain ⟨found, c₁⟩ := r
  cases found with
  | some own =>
      cases given
      cases body
      exact collected_componentProps? sound reached known first (congrArg Prod.fst shown)
  | none =>
      obtain ⟨s, -, rfl⟩ := Option.map_eq_some_iff.mp given
      cases body

theorem collected_ofClass {s : SymbolId} (sound : c.Sound p) (reached : Reached p c)
    (known : Known c s) (later : ((ofClass s).outcome p c).2.Later c')
    (given : ((ofClass s).outcome p c).1 = some content) : Collected p c' properties := by
  have started := sound.started
  unfold ofClass at later given
  rw [outcome_bind] at later given
  obtain ⟨after, still, started, value, grown⟩ := Steady.next
    (steady_valueType : Steady p c (Check.valueType s)) sound reached
  generalize (Check.valueType s).outcome p c = r at *
  obtain ⟨t, c₁⟩ := r
  rw [outcome_bind] at later given
  have known' : Known c₁ s := known.later grown
  obtain ⟨after, still, started, -, second⟩ := Steady.next
    (steady_declaredType : Steady p c₁ (Check.declaredType s)) after still
  generalize (Check.declaredType s).outcome p c₁ = r at *
  obtain ⟨u, c₂⟩ := r
  dsimp only at after still value later given
  have first := Role.later_first later
  rw [outcome_bind] at given
  generalize shown : (componentProps? t).outcome p c₂ = r at given
  obtain ⟨found, c₃⟩ := r
  cases found with
  | some own =>
      cases given
      cases body
      exact collected_componentProps? after still (value.later second) first
        (congrArg Prod.fst shown)
  | none =>
      obtain ⟨members, -, rfl⟩ := Option.map_eq_some_iff.mp given
      cases body

theorem collected_ofVariable {d : Syntax.Declarator} {s : SymbolId} (sound : c.Sound p)
    (reached : Reached p c) (known : Known c s) (later : ((ofVariable d s).outcome p c).2.Later c')
    (given : ((ofVariable d s).outcome p c).1 = some content) : Collected p c' properties := by
  have started := sound.started
  unfold ofVariable at later given
  rw [outcome_bind] at later given
  obtain ⟨after, still, started, value, -⟩ := Steady.next
    (steady_valueType : Steady p c (Check.valueType s)) sound reached
  generalize (Check.valueType s).outcome p c = r at *
  obtain ⟨t, c₁⟩ := r
  dsimp only at after still value later given
  have first := Role.later_first later
  rw [outcome_bind] at given
  generalize described : (ofCallable t).outcome p c₁ = r at given
  obtain ⟨found, c₂⟩ := r
  cases found with
  | some callable =>
      obtain rfl := Option.some.inj given
      exact collected_ofCallable body after still value first (congrArg Prod.fst described)
  | none =>
      dsimp only at given
      split at given
      · cases given
        cases body
      · cases given

/-- The properties of what is shown as a component were collected for a type, if there are any. -/
theorem collected_describe {role : Role} {s : SymbolId} (sound : c.Sound p) (reached : Reached p c)
    (known : Known c s) (later : ((role.describe s).outcome p c).2.Later c')
    (given : ((role.describe s).outcome p c).1 = some content) : Collected p c' properties := by
  cases role with
  | type =>
      cases given
      cases body
  | classDecl => exact collected_ofClass body sound reached known later given
  | function =>
      have started := sound.started
      obtain ⟨after, still, -, value, -⟩ := Steady.next
        (steady_valueType : Steady p c (Check.valueType s)) sound reached
      unfold Role.describe ofFunction at later given
      rw [outcome_bind] at later given
      exact collected_ofCallable body after still value later given
  | variableDecl d => exact collected_ofVariable body sound reached known later given

end Content

/-! ### Intersections -/

theorem eraseDups_concat (names : List String) (name : String) :
    (names ++ [name]).eraseDups =
      if name ∈ names then names.eraseDups else names.eraseDups ++ [name] := by
  rw [List.eraseDups_append]
  by_cases listed : name ∈ names <;> simp [List.removeAll, listed, List.eraseDups_cons]

theorem nodup_eraseDups (names : List String) : names.eraseDups.Nodup := by
  induction names using List.reverseRecOn with
  | nil => exact List.nodup_nil
  | append_singleton names name ih =>
      rw [eraseDups_concat]
      split
      · exact ih
      · rename_i new
        have apart : name ∉ names.eraseDups := fun listed => new (List.mem_eraseDups.mp listed)
        rw [← List.concat_eq_append]
        exact ih.concat apart

theorem eraseDups_eq_self_iff {names : List String} : names.eraseDups = names ↔ names.Nodup := by
  constructor
  · intro same
    rw [← same]
    exact nodup_eraseDups names
  · intro distinct
    induction names using List.reverseRecOn with
    | nil => rfl
    | append_singleton names name ih =>
        rw [List.nodup_append] at distinct
        have new : name ∉ names := fun listed =>
          distinct.2.2 name listed name (List.mem_singleton_self name) rfl
        rw [eraseDups_concat, if_neg new, ih distinct.1]

namespace Checker

variable {p : Program} {c c' : Checker} {t : TypeId}

/-- A member of a part keeps its place if there is one of that name, and is the last one if not. -/
theorem names_intersectMember (members : List Member) (m : Member) (p : Program) (c : Checker) :
    ((intersectMember members m).outcome p c).1.map (·.name) =
      if m.name ∈ members.map (·.name) then members.map (·.name)
      else members.map (·.name) ++ [m.name] := by
  unfold intersectMember
  split
  · rename_i i found
    have listed : m.name ∈ members.map (·.name) := by
      obtain ⟨inside, same, -⟩ := List.findIdx?_eq_some_iff_getElem.mp found
      exact List.mem_map.mpr ⟨members[i], List.getElem_mem inside, of_decide_eq_true same⟩
    rw [if_pos listed]
    exact names_modify members i _
  · rename_i missing
    have new : m.name ∉ members.map (·.name) := by
      rw [List.mem_map]
      rintro ⟨other, inside, same⟩
      have differs := List.findIdx?_eq_none_iff.mp missing other inside
      exact absurd same (of_decide_eq_false differs)
    rw [if_neg new, outcome_pure, List.map_append, List.map_singleton]

/-- The names that a part brings along come behind those that are there. -/
theorem names_intersectShape {merged : Shape} {names : List String}
    (sofar : merged.members.map (·.name) = names.eraseDups) (part : Shape) (p : Program)
    (c : Checker) :
    ((intersectShape merged part).outcome p c).1.members.map (·.name) =
      (names ++ part.members.map (·.name)).eraseDups := by
  have fold : ∀ (list members : List Member) (names : List String) (c : Checker),
      members.map (·.name) = names.eraseDups →
      ((list.foldlM intersectMember members).outcome p c).1.map (·.name) =
        (names ++ list.map (·.name)).eraseDups := by
    intro list
    induction list with
    | nil =>
        intro members names c sofar
        rw [List.map_nil, List.append_nil]
        exact sofar
    | cons m rest ih =>
        intro members names c sofar
        have added : ((intersectMember members m).outcome p c).1.map (·.name) =
            (names ++ [m.name]).eraseDups := by
          rw [names_intersectMember, sofar, eraseDups_concat]
          simp only [List.mem_eraseDups]
        rw [List.foldlM_cons, outcome_bind, ih _ _ _ added, List.map_cons, List.append_assoc,
          List.singleton_append]
  unfold intersectShape
  rw [outcome_bind, outcome_pure]
  exact fold part.members merged.members names c sofar

/-- What is kept for a type is what is asked for. -/
theorem memberNames_of_known {shape : Shape} (known : c.shapes.find? t = some shape) :
    c.memberNames p t = shape.members.map (·.name) := by
  obtain ⟨n, asked⟩ := ask_calls (.shape t)
  have kept : (Check.shape t).outcome p c = (shape, c) := by
    unfold Check.shape
    rw [asked]
    simp only [step, shapeOf, Check.shapeOnce, Check.once, known]
  unfold memberNames answer Check.members
  rw [outcome_bind, kept]
  rfl

/-- The members of a type are kept once they were asked for, unless they are being worked out. -/
theorem find?_ask_shape (n : Nat) (p : Program) (free : t ∉ c.shapes.running) :
    (((callsTo (n + 1)).ask (.shape t)).outcome p c).2.shapes.find? t =
      some (((callsTo (n + 1)).ask (.shape t)).outcome p c).1 := by
  rw [ask_callsTo]
  unfold step shapeOf Check.shapeOnce
  exact once_known_of_free (·.shapes) (fun _ _ => rfl) free

/-- Adds what is found for a part of an intersection. -/
def addPart (calls : Calls) (merged : Shape) (part : TypeId) : Check Shape := do
  intersectShape merged (← calls.ask (.shape part))

/-- The parts of an intersection bring along their names, in order. -/
theorem names_addParts (n : Nat) {list : List TypeId} {merged : Shape} {names : List String}
    (sofar : merged.members.map (·.name) = names.eraseDups)
    (free : ∀ m ∈ list, m ∉ c.shapes.running)
    (kept : ∀ m ∈ list, ∀ shape,
      ((list.foldlM (addPart (callsTo (n + 1))) merged).outcome p c).2.shapes.find? m = some shape →
      c'.shapes.find? m = some shape) :
    ((list.foldlM (addPart (callsTo (n + 1))) merged).outcome p c).1.members.map (·.name) =
      (names ++ list.flatMap (c'.memberNames p)).eraseDups := by
  induction list generalizing c merged names with
  | nil =>
      rw [List.flatMap_nil, List.append_nil]
      exact sofar
  | cons m rest ih =>
      rw [List.foldlM_cons, outcome_bind] at kept ⊢
      let asked := ((callsTo (n + 1)).ask (.shape m)).outcome p c
      have noted : asked.2.shapes.find? m = some asked.1 :=
        find?_ask_shape n p (free m List.mem_cons_self)
      have step : (addPart (callsTo (n + 1)) merged m).outcome p c =
          (intersectShape merged asked.1).outcome p asked.2 := rfl
      rw [step] at kept ⊢
      have grown := (intersectShape merged asked.1).kept p asked.2
      have more := (rest.foldlM (addPart (callsTo (n + 1)))
        ((intersectShape merged asked.1).outcome p asked.2).1).kept p
        ((intersectShape merged asked.1).outcome p asked.2).2
      have found : c'.shapes.find? m = some asked.1 :=
        kept m List.mem_cons_self _ (more.shapes.known m _ (grown.shapes.known m _ noted))
      have running : ((intersectShape merged asked.1).outcome p asked.2).2.shapes.running =
          c.shapes.running :=
        grown.shapes.running.trans (((callsTo (n + 1)).ask (.shape m)).kept p c).shapes.running
      have added := names_intersectShape sofar asked.1 p asked.2
      rw [← memberNames_of_known (p := p) found] at added
      rw [ih added _ fun u listed => kept u (List.mem_cons_of_mem m listed), List.flatMap_cons,
        List.append_assoc]
      intro u listed
      rw [running]
      exact free u (List.mem_cons_of_mem m listed)

/-- The members of an intersection that was not asked for before: the names of its parts, each in the
place where it comes first. -/
theorem memberNames_intersection {members : List TypeId} (reached : Reached p c)
    (data : c.arena.data t = .intersection members) (apart : t ∉ members)
    (fresh : c.shapes.find? t = none) (later : ((Check.members t).outcome p c).2.Later c') :
    ((Check.members t).outcome p c).1.map (·.name) =
      (members.flatMap (c'.memberNames p)).eraseDups := by
  obtain ⟨n, deep⟩ := calls_deep
  have asked : Check.shape t = shapeOf (callsTo (n + 1)) t := by
    unfold Check.shape
    rw [deep, ask_callsTo]
    rfl
  let entered : Checker := { c with shapes := c.shapes.enter t }
  let work : Check Shape := members.foldlM (addPart (callsTo (n + 1))) {}
  have found : (shapeOfData (callsTo (n + 1)) t).outcome p entered = work.outcome p entered := by
    unfold shapeOfData
    rw [outcome_bind, outcome_data]
    have same : entered.arena.data t = .intersection members := data
    rw [same]
    rfl
  have idle : c.shapes.running = [] := reached.shapes.running
  have free : c.shapes.isRunning t = false := by simp [Memo.isRunning, idle]
  have result : (Check.shape t).outcome p c = ((work.outcome p entered).1,
      { (work.outcome p entered).2 with
        shapes := (work.outcome p entered).2.shapes.leave t (work.outcome p entered).1 }) := by
    rw [asked, ← found]
    simp only [shapeOf, Check.shapeOnce, Check.once, fresh, free, Bool.false_eq_true, ↓reduceIte]
    rfl
  have answered : ((Check.members t).outcome p c).1 = (work.outcome p entered).1.members := by
    unfold Check.members
    rw [outcome_bind, result]
    rfl
  have state : ((Check.members t).outcome p c).2.shapes =
      (work.outcome p entered).2.shapes.leave t (work.outcome p entered).1 := by
    unfold Check.members
    rw [outcome_bind, result]
    rfl
  rw [answered]
  have names : (work.outcome p entered).1.members.map (·.name) =
      ([] ++ members.flatMap (c'.memberNames p)).eraseDups := by
    apply names_addParts n rfl
    · intro m listed running
      have same : m = t := by simpa [entered, Memo.enter, idle] using running
      exact apart (same ▸ listed)
    · intro m listed shape noted
      have differs : m ≠ t := fun same => apart (same ▸ listed)
      apply later.shapes.known m shape
      rw [state, Memo.find?_leave_other _ t m _ differs]
      exact noted
  exact names

end Checker

/-! ### All components -/

/-- No name is a member of two of the types. -/
def Checker.Apart (p : Program) (c : Checker) (types : List TypeId) : Prop :=
  types.Pairwise fun t u => (c.memberNames p t).Disjoint (c.memberNames p u)

namespace Render

open Checker

variable {p : Program} {c c' : Checker} {t : TypeId}

/-- Names of several types are distinct exactly if no two of the types have a name in common. -/
theorem nodup_flatMap_iff (distinct : c.Distinct) (types : List TypeId) :
    (types.flatMap (c.memberNames p)).Nodup ↔ c.Apart p types := by
  rw [List.nodup_flatMap]
  exact and_iff_right fun t _ => nodup_memberNames distinct t

/-- Neither a union nor an intersection, nor a read-only form. -/
def IsLeaf (c : Checker) (t : TypeId) : Prop :=
  parts? (c.arena.isBoolean t) (c.arena.data t) = none ∧ c.wrapped? t = none

theorem IsLeaf.leaves (leaf : IsLeaf c t) (n : Nat) : c.leaves (n + 1) t = [t] := by
  unfold Checker.leaves
  rw [leaf.1, leaf.2]

/-- The leaves of an intersection of leaves are its parts. -/
theorem leaves_intersection {members : List TypeId} (data : c.arena.data t = .intersection members)
    (simple : ∀ m ∈ members, IsLeaf c m) (n : Nat) : c.leaves (n + 2) t = members := by
  have parts : parts? (c.arena.isBoolean t) (c.arena.data t) = some members := by
    rw [data]
    rfl
  rw [Checker.leaves, parts]
  have same : members.flatMap (c.leaves (n + 1)) = members.flatMap fun m => [m] :=
    List.flatMap_congr fun m listed => (simple m listed).leaves n
  exact same.trans (List.flatMap_singleton' members)

/-- What was collected for a component in an earlier state. -/
theorem Collected.names {properties : List Property} (collected : Collected p c' properties)
    (after : c'.Sound p) (distinct : c'.Distinct) :
    ∃ leaves, (leaves = [] ∨ ∃ t, c'.answer p (props t) = properties ∧
        leaves = c'.leaves maxDepth t) ∧
      properties.map (·.name) = leaves.flatMap (c'.memberNames p) ∧
      ((properties.map (·.name)).Nodup ↔ c'.Apart p leaves) := by
  rcases collected with none | ⟨c, t, sound, reached, known, later, rfl⟩
  · refine ⟨[], Or.inl rfl, by rw [none]; rfl, ?_⟩
    rw [none]
    exact iff_of_true List.nodup_nil List.Pairwise.nil
  · have started := sound.started
    have steady : Steady p c (props t) := steady_props
    have names := names_propsAt maxDepth sound reached known later after
    refine ⟨_, Or.inr ⟨t, Role.answer_later sound reached later after, rfl⟩, names, ?_⟩
    have same : ((props t).outcome p c).1.map (·.name) = _ := names
    rw [same]
    exact nodup_flatMap_iff distinct _

/-- The properties collected for a type have the names that its leaves have. -/
theorem names_props (sound : c.Sound p) (reached : Reached p c) (distinct : c.Distinct)
    (inside : t.index < c.arena.size) :
    let r := (props t).outcome p c
    let leaves := r.2.leaves maxDepth t
    r.1.map (·.name) = leaves.flatMap (r.2.memberNames p) ∧
      ((r.1.map (·.name)).Nodup ↔ r.2.Apart p leaves) := by
  intro r leaves
  have known : Known c t := known_type_iff.mpr inside
  have started := sound.started
  have steady : Steady p c (props t) := steady_props
  have after := (steady.outcome c (.refl c) sound).1
  have neat : r.2.Distinct := (shows_propsAt maxDepth t p c distinct).1
  have names : r.1.map (·.name) = leaves.flatMap (r.2.memberNames p) :=
    names_propsAt maxDepth sound reached known (.refl _) after
  rw [names]
  exact ⟨rfl, nodup_flatMap_iff neat leaves⟩

/-- The names of an intersection as a whole, beside those of its properties. -/
theorem names_intersection (sound : c.Sound p) (reached : Reached p c) (distinct : c.Distinct)
    {members : List TypeId} (data : c.arena.data t = .intersection members) (apart : t ∉ members)
    (fresh : c.shapes.find? t = none) :
    let own := (Check.members t).outcome p c
    let r := (props t).outcome p own.2
    own.1.map (·.name) = (members.flatMap (r.2.memberNames p)).eraseDups ∧
      ((∀ m ∈ members, IsLeaf r.2 m) →
        own.1.map (·.name) = (r.1.map (·.name)).eraseDups ∧
        (r.1.map (·.name) = own.1.map (·.name) ↔ r.2.Apart p members)) := by
  intro own r
  have inside : t.index < c.arena.size := Arena.lt_size_of_data data (by simp)
  have known : Known c t := known_type_iff.mpr inside
  have started := sound.started
  have steady : Steady p c (Check.members t) := steady_members
  have after := (steady.outcome c (.refl c) sound).1
  have still : Reached p own.2 := reached.after _
  have kept : c.Later own.2 := (Check.members t).kept p c
  have later : own.2.Later r.2 := (props t).kept p own.2
  have neat : own.2.Distinct := (ensures_members t p c distinct).1
  have names : own.1.map (·.name) = (members.flatMap (r.2.memberNames p)).eraseDups :=
    memberNames_intersection reached data apart fresh later
  refine ⟨names, fun simple => ?_⟩
  have same : r.2.arena.data t = .intersection members :=
    (data_later known (kept.trans later)).trans data
  have leaves : r.2.leaves maxDepth t = members := leaves_intersection same simple _
  obtain ⟨listed, distinct⟩ := names_props after still neat (Nat.lt_of_lt_of_le inside kept.size)
  rw [leaves] at listed distinct
  rw [names, ← listed]
  refine ⟨rfl, ?_⟩
  rw [eq_comm, eraseDups_eq_self_iff]
  exact distinct

end Render

namespace Package

open Checker

theorem distinct_collected (name outDir packagePath : String) (program : Program) :
    (collected name outDir packagePath program).2.Distinct := by
  have keeps : Extraction.Keeps program fun e c => c.Distinct ∧ e.package.Shows fun _ => True :=
    Extraction.keeps_shows fun _ _ kind s c distinct =>
      ⟨(kind.distinct s program c distinct).1, fun _ _ => trivial⟩
  exact (keeps.visitAll { package := Package.empty name outDir, packagePath } (ofProgram program)
    ⟨distinct_ofProgram program, Package.shows_empty name outDir⟩).1

/-- A declaration shows what its symbol was described by when it had its turn. -/
theorem exists_settled_turn (name outDir packagePath : String) (program : Program)
    {path id : String} {m : Module} {d : Declaration}
    (there : ((Package.empty name outDir).addProgram packagePath program).modules.get? path = some m)
    (listed : m.declarations.get? id = some d) :
    let c := (collected name outDir packagePath program).2
    ∃ (turn : Turn) (content : Content), turn.Settled program c ∧
      c.answer program turn.describe = some content ∧ content.body = d.body := by
  intro c
  have read := readAll_collected name outDir packagePath program
  rw [addProgram_eq_linked read.valid] at there
  obtain ⟨old, before, rfl⟩ := module_of_linked there
  obtain ⟨d, known, rfl⟩ := declaration_of_linked listed
  obtain ⟨file, source, -, content⟩ := read.first before
  have inside : d ∈ old.declarations.values :=
    (OrdMap.mem_values_iff _ _).mpr ⟨id, (OrdMap.get?_eq_some_iff _ _ _).mp known⟩
  have pair : (d.name, d.body) ∈ (turns program file source.source.exported).filterMap
      (·.shown? program c) := content.declarations ▸ List.mem_map_of_mem inside
  obtain ⟨turn, had, gives⟩ := List.mem_filterMap.mp pair
  obtain ⟨given, answer, same⟩ := Option.map_eq_some_iff.mp gives
  exact ⟨turn, given, content.settled turn had, answer, (Prod.mk.inj same).2⟩

end Package

open Checker Render

/-- The names of the properties of a component are those of the leaves of the type that they were
collected for, and they are distinct exactly if no two leaves have a name in common. This holds of
every type. An intersection has the names of its parts as members, each in the place where it comes
first. If its parts are leaves, then these are the names of its properties without the repetitions,
and the two lists are the same exactly if no two parts have a name in common. -/
theorem property_names (program : Program) :
    (∀ name outDir packagePath path id m d properties,
      ((Package.empty name outDir).addProgram packagePath program).modules.get? path = some m →
      m.declarations.get? id = some d → d.body = .component properties →
      let c := (Package.collected name outDir packagePath program).2
      ∃ leaves, (leaves = [] ∨ ∃ t, c.answer program (props t) = properties ∧
          leaves = c.leaves Render.maxDepth t) ∧
        properties.map (·.name) = leaves.flatMap (c.memberNames program) ∧
        ((properties.map (·.name)).Nodup ↔ c.Apart program leaves)) ∧
    (∀ c : Checker, c.Sound program → Reached program c → c.Distinct →
      ∀ t : TypeId, t.index < c.arena.size →
      let r := (props t).outcome program c
      let leaves := r.2.leaves Render.maxDepth t
      r.1.map (·.name) = leaves.flatMap (r.2.memberNames program) ∧
        ((r.1.map (·.name)).Nodup ↔ r.2.Apart program leaves)) ∧
    ∀ c : Checker, c.Sound program → Reached program c → c.Distinct →
      ∀ (t : TypeId) (members : List TypeId), c.arena.data t = .intersection members →
      t ∉ members → c.shapes.find? t = none →
      let own := (Check.members t).outcome program c
      let r := (props t).outcome program own.2
      own.1.map (·.name) = (members.flatMap (r.2.memberNames program)).eraseDups ∧
        ((∀ m ∈ members, IsLeaf r.2 m) →
          own.1.map (·.name) = (r.1.map (·.name)).eraseDups ∧
          (r.1.map (·.name) = own.1.map (·.name) ↔ r.2.Apart program members)) := by
  refine ⟨?_, fun c sound reached distinct t => names_props sound reached distinct,
    fun c sound reached distinct t members data apart fresh =>
      names_intersection sound reached distinct data apart fresh⟩
  intro name outDir packagePath path id m d properties there listed body c
  obtain ⟨turn, content, settled, answer, same⟩ :=
    Package.exists_settled_turn name outDir packagePath program there listed
  obtain ⟨before, sound, known, reached, later, told⟩ := settled.had
  have given := Content.collected_describe (same.trans body) sound reached known later
    (told.trans answer)
  exact given.names (Package.readAll_collected name outDir packagePath program).sound
    (Package.distinct_collected name outDir packagePath program)

/-- A component of an intersection: a member `a` in one part, members `a` and `b` in the other. -/
def repeated : Program :=
  let member (name : String) (i : Intrinsic) : Syntax.TypeMember :=
    .property name (some (.intrinsic i)) false false {}
  let given : Syntax.TypeExpr := .intersection [.members [member "a" .string],
    .members [member "a" .number, member "b" .number]]
  let element : Syntax.TypeExpr := .reference (.qualified (.ident "JSX") "Element") []
  let function : Syntax.FunctionExpr :=
    ⟨[], [.ident "p" false (some given)], some element, .none, false, false⟩
  let elements : Syntax.NamespaceBody := .block [({}, .interface ⟨"Element", [], [], []⟩)]
  { files := #[
      ⟨⟨"/jsx.d.ts", #[], [⟨0, 0, none, {}, .decl (.namespaceDecl "JSX" elements)⟩]⟩, "/jsx.d.ts", false⟩,
      ⟨⟨"/a.tsx", #[], [⟨0, 0, none, {}, .exportDecl (.function "C" function)⟩]⟩, "/a.tsx", true⟩] }

/-- The names of the properties, if a component is shown. -/
def DeclarationBody.propertyNames? : DeclarationBody → Option (List String)
  | .component properties => some (properties.map (·.name))
  | _ => none

theorem DeclarationBody.propertyNames?_eq_some {b : DeclarationBody} {names : List String}
    (shown : b.propertyNames? = some names) :
    ∃ properties, b = .component properties ∧ properties.map (·.name) = names := by
  cases b with
  | component properties => exact ⟨properties, rfl, Option.some.inj shown⟩
  | _ => cases shown

set_option maxRecDepth 20000 in
/-- The names come from the leaves of the type, and two leaves have one in common. -/
theorem repeated_overlap :
    let c := (Package.collected "p" "lib" "/" repeated).2
    ∃ leaves, leaves.flatMap (c.memberNames repeated) = ["a", "a", "b"] ∧ ¬ c.Apart repeated leaves := by
  intro c
  have shown : ((((Package.empty "p" "lib").addProgram "/" repeated).modules.get? "lib/a.js").bind
      (·.declarations.get? "0")).bind (·.body.propertyNames?) = some ["a", "a", "b"] := by cbv
  obtain ⟨d, known, listed⟩ := Option.bind_eq_some_iff.mp shown
  obtain ⟨m, there, found⟩ := Option.bind_eq_some_iff.mp known
  obtain ⟨properties, body, names⟩ := DeclarationBody.propertyNames?_eq_some listed
  obtain ⟨leaves, -, same, distinct⟩ :=
    (property_names repeated).1 "p" "lib" "/" "lib/a.js" "0" m d properties there found body
  rw [names] at same distinct
  exact ⟨leaves, same.symm, fun apart => absurd (distinct.mpr apart) (by decide)⟩

set_option maxRecDepth 20000 in
/-- The component lists `a` twice, though the type of its parameter has two members. -/
theorem repeated_names :
    let c := (Package.collected "p" "lib" "/" repeated).2
    ((((Package.empty "p" "lib").addProgram "/" repeated).modules.get? "lib/a.js").bind
        (·.declarations.get? "0")).bind (·.body.propertyNames?) = some ["a", "a", "b"] ∧
      c.arena.data ⟨16⟩ = .intersection [⟨14⟩, ⟨15⟩] ∧
      (c.answer repeated (props ⟨16⟩)).map (·.name) = ["a", "a", "b"] ∧
      c.memberNames repeated ⟨16⟩ = ["a", "b"] := by
  cbv

end ApiDocs
