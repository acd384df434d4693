import ApiDocs.Extract
import ApiDocs.Proofs.Repeat

set_option autoImplicit false

/-!
What declarations show. It does not change any more once it was worked out, and nothing is shown
only where there is nothing to show: a class symbol always has a constructor and a function symbol
always has a signature.
-/

namespace ApiDocs

open Syntax

/-! ### What is shown stays -/

instance : Plain ConstructorEntry where

namespace Render

open Check Checker

instance : Mentions ClassMembers := .via fun m => (m.properties, m.methods)

variable {p : Program} {c : Checker}

theorem known_classMembers_iff {m : ClassMembers} :
    Known c m ↔ Known c m.properties ∧ Known c m.methods :=
  (known_congr (x := m) (y := (m.properties, m.methods)) rfl rfl).trans known_prod_iff

instance {properties : List (Member × Bound)} {methods : List (Member × SignatureBound)}
    {constructors : List ConstructorEntry} [first : Known c properties]
    [second : Known c methods] : Known c (ClassMembers.mk properties methods constructors) :=
  known_classMembers_iff.mpr ⟨first, second⟩

instance {m : ClassMembers} [known : Known c m] : Known c m.properties :=
  (known_classMembers_iff.mp known).1

instance {m : ClassMembers} [known : Known c m] : Known c m.methods :=
  (known_classMembers_iff.mp known).2

instance steadyOn_bound [c.Started] : SteadyOn p c bound := ⟨fun _ _ _ _ => inferInstance⟩

variable [c.Started] {t : TypeId} [known : Known c t]

instance steady_function? : Steady p c (function? t) := by
  unfold function?
  exact .bind fun signatures c₁ _ _ => .mapM_option fun s _ => inferInstance

omit known in
instance steady_typeParameters {s : SymbolId} : Steady p c (typeParameters s) := by
  unfold typeParameters
  exact .bind fun ids c₁ _ _ => inferInstance

/-! ### Components -/

instance steady_nameOf {s : SymbolId} [known : Known c s] : Steady p c (nameOf s) := by
  refine { safe_nameOf with again := fun c' before _ _ c'' later _ => ?_ }
  simp only [outcome_nameOf, Bindings.nameOf, symbol_stays before known later]

instance steady_readonlyOf? : Steady p c (readonlyOf? t) := by
  unfold readonlyOf?
  refine .bind fun written c₁ _ here => ?_
  cases written with
  | none => exact steady_pure
  | some ref =>
      have := here.of_some
      refine .bind fun name c₂ _ _ => ?_
      have wrapped : Steady p c₂ (ref.args.head?.mapM fun wrapped => do
          match ← Check.alias? wrapped with
          | some inner => Check.declaredType inner.symbol
          | none => return wrapped) := by
        refine .mapM_option fun wrapped _ => .bind fun inner c₃ _ here => ?_
        cases inner with
        | none => exact steady_pure
        | some inner =>
            have := here.of_some
            exact inferInstanceAs (Steady p c₃ (Check.declaredType inner.symbol))
      infer_instance

omit [c.Started] in
instance known_parts? {isBoolean : Bool} {data : TypeData} [known : Known c data] :
    Known c (parts? isBoolean data) := by
  unfold parts?
  split
  · have := known_union_iff.mp known
    infer_instance
  · have := known_intersection_iff.mp known
    infer_instance
  · infer_instance

instance steady_propsAt {n : Nat} : Steady p c (propsAt n t) := by
  induction n generalizing c t with
  | zero =>
      unfold propsAt
      infer_instance
  | succ n ih =>
      unfold propsAt
      refine .bind fun isBoolean c₁ _ _ => .bind fun data c₂ _ _ => ?_
      have parts : Known c₂ (parts? isBoolean data) := inferInstance
      split
      · rename_i members found
        rw [found] at parts
        have := parts.of_some
        exact .andThen (.mapM fun m c₃ _ _ => ih) fun all c₃ _ _ => inferInstance
      · refine .bind fun wrapped c₃ _ here => ?_
        cases wrapped with
        | some wrapped =>
            have := here.of_some
            exact ih
        | none => exact .bind fun members c₄ _ _ => .mapM fun m c₅ _ _ => inferInstance

instance steady_props : Steady p c (props t) := by
  unfold props
  infer_instance

instance steady_classProps? : Steady p c (classProps? t) := by
  unfold classProps?
  refine .bind fun signatures c₁ _ here => ?_
  cases signatures with
  | nil => exact steady_pure
  | cons s rest =>
      have : Known c₁ s := here.mem List.mem_cons_self
      refine .bind fun found c₂ _ here => ?_
      cases found with
      | none => exact steady_pure
      | some found =>
          have := here.of_some
          refine .bind fun render c₃ _ here => ?_
          cases render with
          | none => exact steady_pure
          | some render =>
              have := here.of_some
              refine .bind fun calls c₄ _ here => ?_
              cases calls with
              | nil => exact steady_pure
              | cons call rest =>
                  have called : Known c₄ call := here.mem List.mem_cons_self
                  refine .state (fun c₅ c₆ fifth sound later => ?_) fun c₅ _ _ => ?_
                  · have result : Known c₅ call.result := inferInstance
                    rw [isElement_later sound later result]
                  · have all : Steady p c₅ (some <$> props found.type) := .map fun _ _ _ _ => inferInstance
                    infer_instance

instance steady_functionProps? : Steady p c (functionProps? t) := by
  unfold functionProps?
  refine .bind fun signatures c₁ _ here => ?_
  cases signatures with
  | nil => exact steady_pure
  | cons s rest =>
      have : Known c₁ s := here.mem List.mem_cons_self
      refine .state (fun c₂ c₃ second sound later => ?_) fun c₂ _ _ => ?_
      · have result : Known c₂ s.result := inferInstance
        rw [isElement_later sound later result]
      · split
        · split
          · rename_i first others found
            have all : Known c₂ s.params := inferInstance
            have : Known c₂ first := all.mem (found ▸ List.mem_cons_self)
            exact .map fun _ _ _ _ => inferInstance
          · infer_instance
        · infer_instance

instance steady_componentProps? : Steady p c (componentProps? t) := by
  unfold componentProps?
  refine .bind fun found c₁ _ _ => ?_
  cases found with
  | some found => exact steady_pure
  | none => exact steady_functionProps?

/-! ### Classes -/

omit known in
instance steady_addMember {sofar : ClassMembers} {m : Member} [Known c sofar] [Known c m] :
    Steady p c (addMember sofar m) := by
  unfold addMember
  refine .bind fun signature c₁ _ here => ?_
  cases signature with
  | some s => exact steady_pure
  | none => exact .bind fun shown c₂ _ _ => inferInstance

instance steady_classMembers? : Steady p c (classMembers? t) := by
  unfold classMembers?
  refine .bind fun signatures c₁ _ all => ?_
  cases signatures with
  | nil => exact steady_pure
  | cons s rest =>
      have : Known c₁ s := all.mem List.mem_cons_self
      refine .bind fun members c₂ _ _ => ?_
      refine .andThen (.foldlM fun sofar m c₃ _ _ _ => inferInstance) fun shown c₃ _ _ => ?_
      refine .andThen (.mapM fun s c₄ _ _ => ?_) fun constructors c₄ _ _ => inferInstance
      exact .andThen (.mapM fun param c₅ _ _ => inferInstance) fun params c₅ _ _ => inferInstance

end Render

namespace Content

open Check Checker

instance : Mentions Content := .via (·.declares)

variable {p : Program} {c : Checker}

theorem known_content_iff {content : Content} : Known c content ↔ Known c content.declares :=
  known_congr rfl rfl

instance {body : DeclarationBody} {declares : Option TypeId} [known : Known c declares] :
    Known c (Content.mk body declares) := known_content_iff.mpr known

variable [c.Started]

instance steady_ofType {s : SymbolId} [Known c s] : Steady p c (ofType s) := by
  unfold ofType
  refine .bind fun t c₁ _ _ => .bind fun shown c₂ _ _ => ?_
  exact .bind fun parameters c₃ _ _ => inferInstance

instance steady_ofClass {s : SymbolId} [Known c s] : Steady p c (ofClass s) := by
  unfold ofClass
  refine .bind fun value c₁ _ _ => .bind fun t c₂ _ _ => .bind fun found c₃ _ _ => ?_
  cases found with
  | some properties => exact steady_pure
  | none =>
      refine .bind fun members c₄ _ _ => ?_
      have : Known c₄ (members.map fun members => Content.mk (classBody members) (some t)) :=
        known_option_map inferInstance fun _ _ => inferInstance
      infer_instance

instance steady_ofCallable {t : TypeId} [Known c t] : Steady p c (ofCallable t) := by
  unfold ofCallable
  refine .bind fun found c₁ _ _ => ?_
  cases found with
  | some properties => exact steady_pure
  | none =>
      refine .bind fun signature c₂ _ _ => ?_
      have : Known c₂ (signature.map fun signature => Content.mk (.function signature) none) :=
        known_option_map inferInstance fun _ _ => inferInstance
      infer_instance

instance steady_ofFunction {s : SymbolId} [Known c s] : Steady p c (ofFunction s) := by
  unfold ofFunction
  exact .bind fun t c₁ _ _ => inferInstance

instance steady_ofVariable {d : Declarator} {s : SymbolId} [Known c s] :
    Steady p c (ofVariable d s) := by
  unfold ofVariable
  refine .bind fun t c₁ _ _ => .bind fun found c₂ _ here => ?_
  cases found with
  | some content =>
      have := here.of_some
      exact steady_pure
  | none =>
      have shown : Steady p c₂ (do
          return some (Content.mk (.variable (← Render.bound t) d.initText) none)) :=
        .bind fun shown c₃ _ _ => inferInstance
      infer_instance

end Content

/-! ### What is not shown -/

/-- What an exported item declares. -/
inductive Role where
  | type
  | classDecl
  | function
  | variableDecl (d : Declarator)

namespace Role

/-- The space in which the name of an item is looked up. -/
def space : Role → Space
  | .type => .type
  | .classDecl => .value
  | .function => .value
  | .variableDecl _ => .value

def describe : Role → SymbolId → Check (Option Content)
  | .type => Content.ofType
  | .classDecl => Content.ofClass
  | .function => Content.ofFunction
  | .variableDecl d => Content.ofVariable d

/-- The kinds of declarations that an item can give. -/
def kinds : Role → List DeclarationKind
  | .type => [.type]
  | .classDecl => [.component, .classDecl]
  | .function => [.component, .function]
  | .variableDecl _ => [.component, .function, .variable]

end Role

/-- The answer to a question in a state. -/
def Checker.answer {α : Type} (p : Program) (c : Checker) (m : Check α) : α := (m.outcome p c).1

/-- Nothing is shown of a symbol: of a class or function item whose symbol is of another kind and is
no component, if it cannot be constructed or called; of a variable that is neither a component nor
can be called, if it has no value. -/
def Role.Dropped (p : Program) (c : Checker) (s : SymbolId) : Role → Prop
  | .type => False
  | .classDecl =>
      let t := c.answer p (Check.valueType s)
      c.bindings.kind? s ≠ some .classDecl ∧ c.answer p (Render.componentProps? t) = none ∧
        c.answer p (Check.constructSignatures t) = []
  | .function =>
      let t := c.answer p (Check.valueType s)
      c.bindings.kind? s ≠ some .function ∧ c.answer p (Render.componentProps? t) = none ∧
        c.answer p (Check.callSignatures t) = []
  | .variableDecl d =>
      let t := c.answer p (Check.valueType s)
      d.init = none ∧ c.answer p (Render.componentProps? t) = none ∧
        c.answer p (Check.callSignatures t) = []

namespace Role

open Check Checker

variable {p : Program} {c : Checker}

instance steady_describe {role : Role} {s : SymbolId} [c.Started] [Known c s] :
    Steady p c (role.describe s) := by
  cases role with
  | type => exact Content.steady_ofType
  | classDecl => exact Content.steady_ofClass
  | function => exact Content.steady_ofFunction
  | variableDecl d => exact Content.steady_ofVariable

/-- An answer that was given is given in all later states. -/
theorem answer_later {α : Type} [Mentions α] {m : Check α} {c c' : Checker} [steady : Steady p c m]
    (sound : c.Sound p) (reached : Reached p c) (later : (m.outcome p c).2.Later c')
    (after : c'.Sound p) : c'.answer p m = (m.outcome p c).1 :=
  steady.again c (.refl c) sound reached c' later after

/-- The members of an object are asked for. -/
theorem answer_shape {t : TypeId} {shape : Shape} (reached : Reached p c)
    (object : c.IsObject t shape) : c.answer p (Check.shape t) = shape := by
  obtain ⟨n, asked⟩ := ask_calls (.shape t)
  unfold answer Check.shape
  rw [asked]
  rcases shapeOf_cases (callsTo n) t p c reached.shapes.running with
    ⟨kept, known, result⟩ | ⟨_, found, _⟩
  · exact (congrArg Prod.fst result).trans (object.kept kept known)
  · exact found.trans ((denotes_shapeOfData (callsTo n) t p
      { c with shapes := c.shapes.enter t }).object shape object.data)

/-- What is known of the value of a class or function once it was asked for. -/
theorem offers_answer {s : SymbolId} (sound : c.Sound p) (reached : Reached p c)
    {t : TypeId} (known : c.values.find? s = some t) :
    (c.bindings.kind? s = some .classDecl → c.answer p (Check.constructSignatures t) ≠ []) ∧
      (c.bindings.kind? s = some .function → c.answer p (Check.callSignatures t) ≠ []) := by
  have offers := sound.offers s t known
  refine ⟨fun isClass => ?_, fun isFunction => ?_⟩
  · obtain ⟨shape, object, some⟩ := offers.construct isClass
    have members := answer_shape reached object
    exact fun none => some ((congrArg Shape.construct members).symm.trans none)
  · obtain ⟨shape, object, some⟩ := offers.call isFunction
    have members := answer_shape reached object
    exact fun none => some ((congrArg Shape.call members).symm.trans none)

/-- What comes after the whole of some work comes after its first part. -/
theorem later_first {α β : Type} {m : Check α} {f : α → Check β} {c c' : Checker}
    (later : ((m >>= f).outcome p c).2.Later c') : (m.outcome p c).2.Later c' :=
  Later.trans ((f _).kept p _) later

theorem known_valueOnce {s : SymbolId} {m : Check TypeId} {c : Checker}
    (idle : c.values.running = []) :
    ((valueOnce s m).outcome p c).2.values.find? s = some ((valueOnce s m).outcome p c).1 :=
  once_known (·.values) (fun _ _ => rfl) idle

/-- The value of a symbol is known once it was asked for. -/
theorem values_valueType {s : SymbolId} {c' : Checker} (reached : Reached p c)
    (later : ((Check.valueType s).outcome p c).2.Later c') :
    c'.values.find? s = some ((Check.valueType s).outcome p c).1 := by
  refine later.values.known s _ ?_
  obtain ⟨n, asked⟩ := ask_calls (.valueType s)
  unfold Check.valueType
  rw [asked]
  exact known_valueOnce reached.values.running

section

variable {c' : Checker} (after : c'.Sound p)

include after

/-- A type is shown as a function where it can be called. -/
theorem function?_eq_none_iff {t : TypeId} [c.Started] [Known c t] (sound : c.Sound p)
    (reached : Reached p c) (later : ((Render.function? t).outcome p c).2.Later c') :
    ((Render.function? t).outcome p c).1 = none ↔ c'.answer p (Check.callSignatures t) = [] := by
  unfold Render.function? at later ⊢
  rw [answer_later sound reached (later_first later) after, outcome_bind]
  cases ((Check.callSignatures t).outcome p c).1 with
  | nil => exact ⟨fun _ => rfl, fun _ => rfl⟩
  | cons s rest => exact ⟨nofun, nofun⟩

/-- A class is shown where it can be constructed. -/
theorem classMembers?_eq_none_iff {t : TypeId} [c.Started] [Known c t] (sound : c.Sound p)
    (reached : Reached p c) (later : ((Render.classMembers? t).outcome p c).2.Later c') :
    ((Render.classMembers? t).outcome p c).1 = none ↔
      c'.answer p (Check.constructSignatures t) = [] := by
  unfold Render.classMembers? at later ⊢
  rw [answer_later sound reached (later_first later) after, outcome_bind]
  cases ((Check.constructSignatures t).outcome p c).1 with
  | nil => exact ⟨fun _ => rfl, fun _ => rfl⟩
  | cons s rest => simp only [outcome_bind, outcome_pure, reduceCtorEq]

/-- A component is always shown; what is none is shown where its other form is. -/
theorem component_or_eq_none_iff {α : Type} {t : TypeId}
    {next : Option (List Property) → Check (Option Content)} {other : Check (Option α)}
    {content : α → Content} (signatures : Check (List Signature)) [c.Started] [Known c t]
    (sound : c.Sound p) (reached : Reached p c)
    (component : ∀ properties, ∃ content, next (some properties) = pure (some content))
    (noComponent : next none = do return (← other).map content)
    (otherwise : ∀ c₁, c.Before c₁ → c₁.Sound p → Reached p c₁ → (other.outcome p c₁).2.Later c' →
      ((other.outcome p c₁).1 = none ↔ c'.answer p signatures = []))
    (later : ((Render.componentProps? t >>= next).outcome p c).2.Later c') :
    ((Render.componentProps? t >>= next).outcome p c).1 = none ↔
      c'.answer p (Render.componentProps? t) = none ∧ c'.answer p signatures = [] := by
  have steady : Steady p c (Render.componentProps? t) := inferInstance
  have sound₁ := (steady.outcome c (.refl c) sound).1
  have grown : c.Before ((Render.componentProps? t).outcome p c).2 := before _ p c
  rw [answer_later sound reached (later_first later) after]
  rw [outcome_bind] at later ⊢
  cases found : ((Render.componentProps? t).outcome p c).1 with
  | some properties =>
      obtain ⟨content, shown⟩ := component properties
      simp only [shown, outcome_pure, reduceCtorEq, false_and]
  | none =>
      rw [found, noComponent] at later
      rw [noComponent, ← otherwise _ grown sound₁ (reached.after _) (later_first later)]
      simp only [outcome_bind, outcome_pure, Option.map_eq_none_iff, true_and]

theorem ofCallable_eq_none_iff {t : TypeId} [c.Started] [Known c t] (sound : c.Sound p)
    (reached : Reached p c) (later : ((Content.ofCallable t).outcome p c).2.Later c') :
    ((Content.ofCallable t).outcome p c).1 = none ↔
      c'.answer p (Render.componentProps? t) = none ∧
        c'.answer p (Check.callSignatures t) = [] := by
  unfold Content.ofCallable at later ⊢
  refine component_or_eq_none_iff after _ sound reached (fun _ => ⟨_, rfl⟩) rfl ?_ later
  intro c₁ grown sound reached later
  have := sound.started
  exact function?_eq_none_iff after sound reached later

/-- The value of a symbol is asked for first, and is the answer ever after. -/
theorem answer_valueType {β : Type} {s : SymbolId} {f : TypeId → Check β} [c.Started] [Known c s]
    (sound : c.Sound p) (reached : Reached p c)
    (later : ((Check.valueType s >>= f).outcome p c).2.Later c') :
    c'.answer p (Check.valueType s) = ((Check.valueType s).outcome p c).1 ∧
      c'.values.find? s = some ((Check.valueType s).outcome p c).1 :=
  ⟨answer_later sound reached (later_first later) after,
    values_valueType reached (later_first later)⟩

section

variable {s : SymbolId} [c.Started] [Known c s] (sound : c.Sound p) (reached : Reached p c)

include sound reached

theorem ofClass_eq_none_iff (later : ((Content.ofClass s).outcome p c).2.Later c') :
    ((Content.ofClass s).outcome p c).1 = none ↔ classDecl.Dropped p c' s := by
  have steady : Steady p c (Check.valueType s) := inferInstance
  obtain ⟨next, there⟩ := steady.outcome c (.refl c) sound
  have grown : c.Before ((Check.valueType s).outcome p c).2 := before _ p c
  have ends : Reached p c' := (reached.after _).trans later
  unfold Content.ofClass at later ⊢
  obtain ⟨told, noted⟩ := answer_valueType after sound reached later
  obtain ⟨construct, _⟩ := offers_answer after ends noted
  dsimp only [Dropped]
  rw [told]
  have started := next.started
  have declared : Steady p ((Check.valueType s).outcome p c).2 (Check.declaredType s) :=
    inferInstance
  have second := (declared.outcome _ (.refl _) next).1
  have still := (reached.after (Check.valueType s)).after (Check.declaredType s)
  have further := before (Check.declaredType s) p ((Check.valueType s).outcome p c).2
  rw [outcome_bind, outcome_bind] at later ⊢
  rw [component_or_eq_none_iff after (Check.constructSignatures _) second still
    (fun _ => ⟨_, rfl⟩) rfl ?_ later]
  · exact ⟨fun empty => ⟨fun kind => construct kind empty.2, empty⟩, And.right⟩
  · intro c₁ grown sound reached later
    have := sound.started
    exact classMembers?_eq_none_iff after sound reached later

theorem ofFunction_eq_none_iff (later : ((Content.ofFunction s).outcome p c).2.Later c') :
    ((Content.ofFunction s).outcome p c).1 = none ↔ function.Dropped p c' s := by
  have steady : Steady p c (Check.valueType s) := inferInstance
  obtain ⟨next, there⟩ := steady.outcome c (.refl c) sound
  have grown : c.Before ((Check.valueType s).outcome p c).2 := before _ p c
  have ends : Reached p c' := (reached.after _).trans later
  unfold Content.ofFunction at later ⊢
  obtain ⟨told, noted⟩ := answer_valueType after sound reached later
  obtain ⟨_, call⟩ := offers_answer after ends noted
  dsimp only [Dropped]
  rw [told]
  rw [outcome_bind] at later ⊢
  rw [ofCallable_eq_none_iff after next (reached.after _) later]
  exact ⟨fun empty => ⟨fun kind => call kind empty.2, empty⟩, And.right⟩

theorem ofVariable_eq_none_iff {d : Declarator}
    (later : ((Content.ofVariable d s).outcome p c).2.Later c') :
    ((Content.ofVariable d s).outcome p c).1 = none ↔ (variableDecl d).Dropped p c' s := by
  have steady : Steady p c (Check.valueType s) := inferInstance
  obtain ⟨next, there⟩ := steady.outcome c (.refl c) sound
  have grown : c.Before ((Check.valueType s).outcome p c).2 := before _ p c
  unfold Content.ofVariable at later ⊢
  obtain ⟨told, _⟩ := answer_valueType after sound reached later
  dsimp only [Dropped]
  rw [told]
  rw [outcome_bind] at later ⊢
  rw [← ofCallable_eq_none_iff after next (reached.after _) (later_first later), outcome_bind]
  cases ((Content.ofCallable _).outcome p _).1 with
  | some content => exact ⟨nofun, nofun⟩
  | none =>
      cases d.init with
      | none => exact ⟨fun _ => ⟨rfl, rfl⟩, fun _ => rfl⟩
      | some value =>
          simp only [Option.isSome_some, if_true, outcome_bind, outcome_pure, reduceCtorEq,
            false_and]

end

/-- Of which symbols nothing is shown, said in a state in which all was asked. -/
theorem describe_eq_none_iff (role : Role) {s : SymbolId} (sound : c.Sound p)
    (reached : Reached p c) (known : Known c s)
    (later : ((role.describe s).outcome p c).2.Later c') :
    ((role.describe s).outcome p c).1 = none ↔ role.Dropped p c' s := by
  have := sound.started
  cases role with
  | type => exact ⟨nofun, nofun⟩
  | classDecl => exact ofClass_eq_none_iff after sound reached later
  | function => exact ofFunction_eq_none_iff after sound reached later
  | variableDecl d => exact ofVariable_eq_none_iff after sound reached later

end

/-- An item gives a declaration of its kinds only. -/
theorem kind_mem {role : Role} {s : SymbolId} {content : Content}
    (shown : ((role.describe s).outcome p c).1 = some content) (d : Declaration)
    (body : d.body = content.body) : d.kind ∈ role.kinds := by
  have callable : ∀ t c, ((Content.ofCallable t).outcome p c).1 = some content →
      d.kind = .component ∨ d.kind = .function := by
    intro t c shown
    simp only [Content.ofCallable, outcome_bind] at shown
    unfold Declaration.kind
    split at shown
    · simp only [outcome_pure, Option.some.injEq] at shown
      exact Or.inl (by rw [body, ← shown])
    · simp only [outcome_bind, outcome_pure, Option.map_eq_some_iff] at shown
      obtain ⟨signature, _, same⟩ := shown
      exact Or.inr (by rw [body, ← same])
  cases role with
  | type =>
      simp only [describe, Content.ofType, outcome_bind, outcome_pure, Option.some.injEq] at shown
      simp [Declaration.kind, body, ← shown, kinds]
  | classDecl =>
      simp only [describe, Content.ofClass, outcome_bind] at shown
      split at shown
      · simp only [outcome_pure, Option.some.injEq] at shown
        simp [Declaration.kind, body, ← shown, kinds]
      · simp only [outcome_bind, outcome_pure, Option.map_eq_some_iff] at shown
        obtain ⟨members, _, same⟩ := shown
        simp [Declaration.kind, body, ← same, kinds, Content.classBody]
  | function =>
      simp only [describe, Content.ofFunction, outcome_bind] at shown
      rcases callable _ _ shown with kind | kind <;> simp [kind, kinds]
  | variableDecl declarator =>
      simp only [describe, Content.ofVariable, outcome_bind] at shown
      split at shown
      · rename_i found
        simp only [outcome_pure, Option.some.injEq] at shown
        rcases callable _ _ (shown ▸ found) with kind | kind <;> simp [kind, kinds]
      · split at shown
        · simp only [outcome_bind, outcome_pure, Option.some.injEq] at shown
          simp [Declaration.kind, body, ← shown, kinds]
        · simp only [outcome_pure, reduceCtorEq] at shown

end Role

end ApiDocs
