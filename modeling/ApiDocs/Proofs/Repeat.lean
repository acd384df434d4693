import ApiDocs.Proofs.Namespaces.Around
import ApiDocs.Proofs.Rendering
import ApiDocs.Proofs.Safety.Values
import ApiDocs.Proofs.Shapes

set_option autoImplicit false

/-!
Answers are given once and for all. Whatever is asked of a checker from outside, the types and
answers that are there stay as they are, all that is put into the tables is there, and the same
question gets the same answer at any later time.
-/

namespace ApiDocs

open Syntax

/-- Work whose answer, in a state where nothing is being worked out, does not change any more. -/
class Check.Steady {α : Type} [Mentions α] (p : Program) (c : Checker) (m : Check α) : Prop
    extends Check.Safe p c m where
  again : ∀ c', c.Before c' → c'.Sound p → Checker.Reached p c' →
    ∀ c'', (m.outcome p c').2.Later c'' → c''.Sound p → (m.outcome p c'').1 = (m.outcome p c').1

namespace Check

open Checker

section

variable {α β : Type} [Mentions α] [Mentions β] {p : Program} {c : Checker}

instance (priority := low) steady_later {c' : Checker} {m : Check α} [before : c.Before c']
    [steady : Steady p c m] : Steady p c' m :=
  { safe_later with again := fun c'' after => steady.again c'' (before.trans after) }

instance steady_pure {a : α} [Known c a] : Steady p c (pure a) :=
  { safe_pure with again := fun _ _ _ _ _ _ _ => rfl }

theorem Steady.bind {m : Check α} {f : α → Check β} [steady : Steady p c m]
    (next : ∀ (a : α) (c' : Checker) [c.Before c'] [Known c' a], Steady p c' (f a)) :
    Steady p c (m >>= f) := by
  have safe : Safe p c (m >>= f) := .bind fun a c' _ _ => (next a c').toSafe
  refine { safe with again := fun c' before sound reached c'' later after => ?_ }
  obtain ⟨first, known⟩ := steady.outcome c' before sound
  have grown : c.Before (m.outcome p c').2 := before.trans (m.before p c')
  rw [outcome_bind] at later
  have told : (m.outcome p c').2.Later c'' := Later.trans ((f _).kept p _) later
  have same := steady.again c' before sound reached c'' told after
  have still := (steady.outcome c'' (grown.trans told.before) after).1
  rw [outcome_bind, outcome_bind, same]
  exact (next (m.outcome p c').1 (m.outcome p c').2).again _ (.refl _) first (reached.after m) _
    (later.trans (m.kept p c'')) still

/-- The rule for a first part that instance search does not find. -/
theorem Steady.andThen {m : Check α} {f : α → Check β} (steady : Steady p c m)
    (next : ∀ (a : α) (c' : Checker) [c.Before c'] [Known c' a], Steady p c' (f a)) :
    Steady p c (m >>= f) := .bind next

theorem Steady.map {m : Check α} {f : α → β} [Steady p c m]
    (next : ∀ (a : α) (c' : Checker) [c.Before c'] [Known c' a], Known c' (f a)) :
    Steady p c (f <$> m) := by
  rw [← bind_pure_comp]
  refine .bind fun a c' _ _ => ?_
  have known := next a c'
  infer_instance

instance steady_read : Steady p c (read : Check Program) :=
  { safe_read with again := fun _ _ _ _ _ _ _ => rfl }

instance steady_ite {condition : Prop} [Decidable condition] {first second : Check α}
    [yes : Steady p c first] [no : Steady p c second] :
    Steady p c (if condition then first else second) := by
  split
  · exact yes
  · exact no

/-- Work that looks at a part of the state that does not change. -/
theorem Steady.state {f : Checker → Check β}
    (same : ∀ c' c'', c.Before c' → c'.Sound p → c'.Later c'' → f c'' = f c')
    (next : ∀ (c' : Checker) [c.Before c'], c'.Sound p → Steady p c' (f c')) :
    Steady p c (Check.state >>= f) := by
  have safe : Safe p c (Check.state >>= f) := .state fun c' _ sound => (next c' sound).toSafe
  refine { safe with again := fun c' before sound reached c'' later after => ?_ }
  have told : c'.Later c'' := Later.trans ((f c').kept p c') later
  rw [outcome_bind, outcome_bind, outcome_state, outcome_state, same c' c'' before sound told]
  exact (next c' sound).again c' (.refl c') sound reached c'' later after

theorem Steady.mapM {f : α → Check β} {list : List α} [known : Known c list]
    (each : ∀ (x : α) (c' : Checker) [c.Before c'] [Known c' x], Steady p c' (f x)) :
    Steady p c (list.mapM f) := by
  induction list generalizing c with
  | nil =>
      rw [List.mapM_nil]
      infer_instance
  | cons x rest ih =>
      have first : Known c x := known.mem List.mem_cons_self
      have others : Known c rest := known.sublist fun _ => List.mem_cons_of_mem _
      have step : Steady p c (f x) := by
        have start : c.Before c := .refl c
        exact each x c
      rw [List.mapM_cons]
      refine .bind fun b c₁ before _ => ?_
      have all : Steady p c₁ (rest.mapM f) := ih fun y c₂ second _ => by
        have both : c.Before c₂ := before.trans second
        exact each y c₂
      exact .bind fun bs c₂ _ _ => inferInstance

theorem Steady.foldlM {f : β → α → Check β} {list : List α} {b : β} [all : Known c list]
    [start : Known c b]
    (each : ∀ (b : β) (x : α) (c' : Checker) [c.Before c'] [Known c' b] [Known c' x],
      Steady p c' (f b x)) : Steady p c (list.foldlM f b) := by
  induction list generalizing c b with
  | nil =>
      rw [List.foldlM_nil]
      infer_instance
  | cons x rest ih =>
      have first : Known c x := all.mem List.mem_cons_self
      have others : Known c rest := all.sublist fun _ => List.mem_cons_of_mem _
      have step : Steady p c (f b x) := by
        have start : c.Before c := .refl c
        exact each b x c
      rw [List.foldlM_cons]
      refine .bind fun b' c₁ before _ => ?_
      refine ih fun b'' y c₂ second _ _ => ?_
      have both : c.Before c₂ := before.trans second
      exact each b'' y c₂

theorem Steady.mapM_option {f : α → Check β} {o : Option α} [known : Known c o]
    (each : ∀ x : α, [Known c x] → Steady p c (f x)) : Steady p c (o.mapM f) := by
  cases o with
  | none => exact steady_pure
  | some x =>
      have here : Known c x := known.of_some
      have step := each x
      exact Steady.map (f := some) fun b c' _ _ => inferInstance

/-- Work that finds its answer in what was noted when it was first done. -/
theorem steady_of_noted {m : Check α} (safe : Safe p c m) (noted : Checker → α → Prop)
    (notes : ∀ c', Reached p c' → noted (m.outcome p c').2 (m.outcome p c').1)
    (stays : ∀ c' c'' a, c'.Later c'' → noted c' a → noted c'' a)
    (tells : ∀ c' a, Reached p c' → noted c' a → (m.outcome p c').1 = a) : Steady p c m := by
  refine { safe with again := fun c' _ _ reached c'' later _ => ?_ }
  exact tells c'' _ ((reached.after m).trans later)
    (stays _ c'' _ later (notes c' reached))

end

/-! ### Types and symbols -/

section

variable {p : Program} {c : Checker}

section

variable {t : TypeId} [known : Known c t]

omit [Known c t] in
theorem info_stays {c' c'' : Checker} (before : c.Before c') (known : Known c t)
    (later : c'.Later c'') : c''.arena.info t = c'.arena.info t :=
  later.info t (known_type_iff.mp (known.later before))

instance steady_data : Steady p c (data t) :=
  { safe_data with
    again := fun _ before _ _ _ later _ => congrArg TypeInfo.data (info_stays before known later) }

instance steady_alias? : Steady p c (alias? t) :=
  { safe_alias? with
    again := fun _ before _ _ _ later _ =>
      congrArg TypeInfo.writtenAs (info_stays before known later) }

instance steady_isBoolean : Steady p c (isBoolean t) := by
  refine { safe_isBoolean with again := fun c' before _ _ c'' later _ => ?_ }
  have data : c''.arena.data t = c'.arena.data t :=
    congrArg TypeInfo.data (info_stays before known later)
  simp only [isBoolean, outcome_bind, outcome_state, outcome_pure, Arena.isBoolean, data]

end

section

variable {s : SymbolId} [known : Known c s]

theorem symbol_stays {c c' c'' : Checker} (before : c.Before c') (known : Known c s)
    (later : c'.Later c'') : c''.bindings.symbol? s = c'.bindings.symbol? s := by
  obtain ⟨x, found⟩ := Option.isSome_iff_exists.mp (known_symbol_iff.mp (known.later before))
  rw [found]
  exact later.bindings.symbol s x found

instance steady_kind? : Steady p c (kind? s) := by
  refine { safe_kind? with again := fun c' before _ _ c'' later _ => ?_ }
  simp only [outcome_kind?, Bindings.kind?, symbol_stays before known later]

end

end

/-! ### Answers that are kept -/

section

variable {p : Program} {c : Checker}

/-- Once an answer is known, it is given. -/
theorem once_of_known {κ α : Type} [BEq κ] [Hashable κ] {memo : Checker → Memo κ α}
    {withMemo : Checker → Memo κ α → Checker} {k : κ} {meanwhile : α} {m : Check α}
    {bracket : ∀ p c, (memo c).find? k = none → (memo c).isRunning k = false →
      let r := m.outcome p (withMemo c ((memo c).enter k))
      Work c.arena.size c (withMemo r.2 ((memo r.2).leave k r.1))} {c : Checker} {a : α}
    (known : (memo c).find? k = some a) :
    (once memo withMemo k meanwhile m bracket).outcome p c = (a, c) := by
  simp only [once, known]

section

variable {κ α : Type} [BEq κ] [Hashable κ] [LawfulBEq κ] [LawfulHashable κ]
  (memo : Checker → Memo κ α) {withMemo : Checker → Memo κ α → Checker} {k : κ} {meanwhile : α}
  {m : Check α}
  {bracket : ∀ p c, (memo c).find? k = none → (memo c).isRunning k = false →
    let r := m.outcome p (withMemo c ((memo c).enter k))
    Work c.arena.size c (withMemo r.2 ((memo r.2).leave k r.1))}
  (put : ∀ c answers, memo (withMemo c answers) = answers) {c : Checker}

include put

/-- The answer to a question that is not being worked out is known once it was asked for. -/
theorem once_known_of_free (free : k ∉ (memo c).running) :
    (memo ((once memo withMemo k meanwhile m bracket).outcome p c).2).find? k =
      some ((once memo withMemo k meanwhile m bracket).outcome p c).1 := by
  have idle : (memo c).isRunning k = false := by simpa [Memo.isRunning] using free
  dsimp only [once]
  split
  · assumption
  · simp only [idle, Bool.false_eq_true, ↓reduceIte, put, Memo.find?_leave_self]

/-- Where nothing is being worked out, an answer is known once it was asked for. -/
theorem once_known (idle : (memo c).running = []) :
    (memo ((once memo withMemo k meanwhile m bracket).outcome p c).2).find? k =
      some ((once memo withMemo k meanwhile m bracket).outcome p c).1 :=
  once_known_of_free memo put (by simp [idle])

end

/-- Once the type that a symbol declares is noted, it is given. -/
theorem declaredType_of_known (calls : Calls) {s : SymbolId} {c : Checker} {t : TypeId}
    (named : c.bindings.Named) (known : c.declared[s]? = some t) :
    (Checker.declaredType calls s).outcome p c = (t, c) := by
  unfold Checker.declaredType
  simp only [outcome_bind, outcome_kind?]
  split
  · rename_i kind
    obtain ⟨x, found, isAlias⟩ := Option.map_eq_some_iff.mp kind
    obtain ⟨written, first⟩ := Option.isSome_iff_exists.mp (named.aliases s x found isAlias)
    have decls : c.bindings.decls s = x.decls := by
      simp only [Bindings.decls, found, Option.map_some, Option.getD_some]
    simp only [declaredAlias, outcome_bind, outcome_decls, decls, first, declareAlias, known]
  · simp only [declareAs, known]

theorem steady_valueOnce {s : SymbolId} {m : Check TypeId} (safe : Safe p c (valueOnce s m)) :
    Steady p c (valueOnce s m) :=
  steady_of_noted safe (fun c t => c.values.find? s = some t)
    (fun _ reached => once_known (·.values) (fun _ _ => rfl) reached.values.running)
    (fun _ _ t later known => later.values.known s t known)
    fun _ _ _ known => congrArg Prod.fst (once_of_known known)

theorem steady_evaluateOnce {t : TypeId} {m : Check TypeId}
    {plain : ∀ p c, (c.arena.data t).isOperator = false → (m.outcome p c).1 = t}
    (safe : Safe p c (evaluateOnce t m plain)) : Steady p c (evaluateOnce t m plain) :=
  steady_of_noted safe (fun c r => c.evaluated.find? t = some r)
    (fun _ reached => once_known (·.evaluated) (fun _ _ => rfl) reached.evaluated.running)
    (fun _ _ r later known => later.evaluated.known t r known)
    fun _ _ _ known => congrArg Prod.fst (once_of_known known)

theorem steady_shapeOnce {t : TypeId} {m : Check Shape}
    {denotes : ∀ p c, Denotes c.arena (m.outcome p c).2 t (m.outcome p c).1}
    (safe : Safe p c (shapeOnce t m denotes)) : Steady p c (shapeOnce t m denotes) :=
  steady_of_noted safe (fun c s => c.shapes.find? t = some s)
    (fun _ reached => once_known (·.shapes) (fun _ _ => rfl) reached.shapes.running)
    (fun _ _ s later known => later.shapes.known t s known)
    fun _ _ _ known => congrArg Prod.fst (once_of_known known)

/-- A question from outside is worked out. -/
theorem ask_calls {α : Type} (q : Query α) : ∃ n, calls.ask q = step (callsTo n) q := by
  obtain ⟨n, deep⟩ := calls_deep
  exact ⟨n + 1, by rw [deep, ask_callsTo]⟩

variable [c.Started]

instance steady_declaredType {s : SymbolId} [Known c s] : Steady p c (declaredType s) := by
  obtain ⟨n, asked⟩ := ask_calls (.declaredType s)
  unfold declaredType
  rw [asked]
  refine steady_of_noted safe_declaredType (fun c t => c.declared[s]? = some t)
    (fun c' reached => declaredType_known _ s p c' reached.named)
    (fun _ _ t later known => later.declared s t known) fun c' t reached known => ?_
  exact congrArg Prod.fst (declaredType_of_known _ reached.named known)

instance steady_typeParams {s : SymbolId} : Steady p c (typeParams s) := by
  obtain ⟨n, asked⟩ := ask_calls (.typeParams s)
  unfold typeParams
  rw [asked]
  refine steady_of_noted safe_typeParamsOf (fun c ids => c.typeParams[s]? = some ids)
    (fun c' _ => typeParamsOf_known _ s p c')
    (fun _ _ ids later known => later.typeParams s ids known) fun c' ids _ known => ?_
  exact congrArg Prod.fst (typeParams_of_known n known)

instance steady_valueType {s : SymbolId} [Known c s] : Steady p c (valueType s) := by
  obtain ⟨n, asked⟩ := ask_calls (.valueType s)
  unfold valueType
  rw [asked]
  exact steady_valueOnce safe_valueType

instance steady_evaluate {t : TypeId} [Known c t] : Steady p c (evaluate t) := by
  obtain ⟨n, asked⟩ := ask_calls (.evaluate t)
  unfold evaluate
  rw [asked]
  exact steady_evaluateOnce safe_evaluate

instance steady_shape {t : TypeId} [Known c t] : Steady p c (shape t) := by
  obtain ⟨n, asked⟩ := ask_calls (.shape t)
  unfold shape
  rw [asked]
  exact steady_shapeOnce safe_shapeOf

instance steady_elementType? : Steady p c elementType? := by
  refine steady_of_noted safe_elementType? (fun c found => c.elementType = some found) (fun c' _ => ?_)
    (fun _ _ found later known => later.elementType found known) fun c' found _ known => ?_
  · dsimp only [elementType?, Checker.elementType?, elementOnce]
    split
    · assumption
    · rfl
  · simp only [elementType?, Checker.elementType?, elementOnce, known]

end

section

variable {p : Program} {c : Checker} [c.Started] {t : TypeId} [Known c t]

instance steady_members : Steady p c (members t) := .bind fun _ _ _ _ => inferInstance

instance steady_member? {name : String} : Steady p c (member? t name) :=
  .bind fun _ _ _ _ => inferInstance

instance steady_callSignatures : Steady p c (callSignatures t) :=
  .bind fun _ _ _ _ => inferInstance

instance steady_constructSignatures : Steady p c (constructSignatures t) :=
  .bind fun _ _ _ _ => inferInstance

instance steady_stringIndex? : Steady p c (stringIndex? t) := .bind fun _ _ _ _ => inferInstance

end

end Check

/-! ### Printed types -/

namespace Checker

variable {p : Program} {c c' : Checker}

/-- How a type is printed stays as it is. -/
theorem textAt_later (sound : c.Sound p) (later : c.Later c') (n : Nat) (t : TypeId)
    (known : Known c t) : c'.textAt n t = c.textAt n t := by
  induction n generalizing t with
  | zero => rfl
  | succ n ih =>
      have inside := known_type_iff.mp known
      have info := later.info t inside
      have data : c'.arena.data t = c.arena.data t := congrArg TypeInfo.data info
      have name : c'.arena.alias? t = c.arena.alias? t := congrArg TypeInfo.writtenAs info
      obtain ⟨parts, written⟩ := known_info_iff.mp (sound.infos t inside)
      have isBoolean : c'.arena.isBoolean t = c.arena.isBoolean t := by
        simp only [Arena.isBoolean, data]
      have shown : ∀ s, Known c s → c'.bindings.displayName s = c.bindings.displayName s :=
        fun s here => Bindings.displayName_keptIn sound.bindings.toPlaced later.bindings.keptIn
          (known_symbol_iff.mp here)
      have all : ∀ members : List TypeId, Known c members →
          members.map (c'.textAt n) = members.map (c.textAt n) :=
        fun members here => List.map_congr_left fun m listed => ih m (here.mem listed)
      unfold textAt
      rw [name, data, isBoolean]
      split
      · rename_i ref same
        have here : Known c (c.arena.alias? t) := written
        rw [same] at here
        exact shown _ (known_aliasRef_iff.mp here.of_some).1
      · change Known c (c.arena.data t) at parts
        cases same : c.arena.data t with
        | union members =>
            rw [same] at parts
            simp only [all members (known_union_iff.mp parts)]
        | intersection members =>
            rw [same] at parts
            simp only [all members (known_intersection_iff.mp parts)]
        | tuple items =>
            rw [same] at parts
            simp only [all items (known_tuple_iff.mp parts)]
        | object shape =>
            rw [same] at parts
            have symbol : Known c shape.symbol := (known_shape_iff.mp (known_object_iff.mp parts)).2.2.2.2.2
            dsimp only
            split
            · rename_i s found
              rw [found] at symbol
              rw [shown s symbol.of_some]
            · rfl
        | reference s args =>
            rw [same] at parts
            exact shown s (known_reference_iff.mp parts).1
        | keyOf inner =>
            rw [same] at parts
            simp only [ih inner (known_keyOf_iff.mp parts)]
        | indexedAccess object index =>
            rw [same] at parts
            obtain ⟨first, second⟩ := known_indexedAccess_iff.mp parts
            simp only [ih object first, ih index second]
        | nominal s args =>
            rw [same] at parts
            exact Bindings.nominalName_keptIn sound.bindings.toPlaced later.bindings.keptIn
              (known_symbol_iff.mp (known_nominal_iff.mp parts).1)
        | _ => rfl

theorem typeName_later (sound : c.Sound p) (later : c.Later c') {t : TypeId} (known : Known c t) :
    c'.typeName t = c.typeName t := congrArg withoutArgs (textAt_later sound later _ t known)

theorem typeSymbol?_later (later : c.Later c') {t : TypeId} (known : Known c t) :
    c'.typeSymbol? t = c.typeSymbol? t := by
  have data : c'.arena.data t = c.arena.data t :=
    congrArg TypeInfo.data (later.info t (known_type_iff.mp known))
  simp only [typeSymbol?, data]

theorem known_typeSymbol? (sound : c.Sound p) {t : TypeId} (known : Known c t) :
    Known c (c.typeSymbol? t) := by
  have parts : Known c (c.arena.data t) :=
    (known_info_iff.mp (sound.infos t (known_type_iff.mp known))).1
  unfold typeSymbol?
  split
  · rename_i s args same
    rw [same] at parts
    have := (known_reference_iff.mp parts).1
    infer_instance
  · rename_i shape same
    rw [same] at parts
    have := known_object_iff.mp parts
    infer_instance
  · rename_i s args same
    rw [same] at parts
    have := (known_nominal_iff.mp parts).1
    infer_instance
  · infer_instance

theorem isElement_later (sound : c.Sound p) (later : c.Later c') {t : TypeId} (known : Known c t) :
    c'.isElement t = c.isElement t := by
  have symbol := known_typeSymbol? sound known
  unfold isElement
  rw [typeSymbol?_later later known]
  cases found : c.typeSymbol? t with
  | none => rfl
  | some s =>
      rw [found] at symbol
      have there := known_symbol_iff.mp symbol.of_some
      simp only [Bindings.qualifiedName_keptIn sound.bindings.toPlaced later.bindings.keptIn there]

end Checker

/-! ### Shown types -/

instance : Plain Bound where
instance : Plain Property where
instance : Plain IndexEntry where
instance : Plain SignatureBound where

namespace Render

open Check Checker

instance : Mentions Named := .via fun parts => (parts.args, parts.symbol)

theorem known_named_iff {c : Checker} {parts : Named} :
    Known c parts ↔ Known c parts.args ∧ Known c parts.symbol :=
  (known_congr (x := parts) (y := (parts.args, parts.symbol)) rfl rfl).trans known_prod_iff

instance {c : Checker} {args : List TypeId} {key : Option String} {symbol : Option SymbolId}
    [first : Known c args] [second : Known c symbol] : Known c (Named.mk args key symbol) :=
  known_named_iff.mpr ⟨first, second⟩

instance known_typeArgs {c : Checker} {data : TypeData} [known : Known c data] :
    Known c (typeArgs data) := by
  unfold typeArgs
  split
  · exact (known_reference_iff.mp known).2
  · exact (known_nominal_iff.mp known).2
  · exact known_unresolved_iff.mp known
  · infer_instance

/-- A way to show parts of types that gives the same for the same part. -/
class SteadyOn (p : Program) (c : Checker) (child : TypeId → Check Bound) : Prop where
  steady : ∀ (t : TypeId) (c' : Checker), c.Before c' → Known c' t → Steady p c' (child t)

variable {p : Program} {c : Checker}

section

variable {child : TypeId → Check Bound} [on : SteadyOn p c child]

instance {t : TypeId} [known : Known c t] : Steady p c (child t) := on.steady t c (.refl c) known

instance (priority := low) steadyOn_later {c' : Checker} [before : c.Before c'] :
    SteadyOn p c' child := ⟨fun t c'' after => on.steady t c'' (before.trans after)⟩

instance steady_property {m : Member} [Known c m] : Steady p c (property child m) :=
  .bind fun _ _ _ _ => inferInstance

instance steady_parameter {param : Parameter} [Known c param] :
    Steady p c (parameter child param) := .bind fun _ _ _ _ => inferInstance

instance steady_children {types : List TypeId} [Known c types] : Steady p c (types.mapM child) :=
  .mapM fun _ _ _ _ => inferInstance

instance steady_typeList {types : List TypeId} [Known c types] :
    Steady p c (typeList child types) := by
  have all : Steady p c (some <$> types.mapM child) := .map fun _ _ _ _ => inferInstance
  unfold typeList
  infer_instance

instance steady_signature {s : Signature} [Known c s] : Steady p c (signature child s) := by
  unfold signature
  refine .bind fun typeParameters c₁ _ _ => ?_
  refine .andThen (.mapM fun param c₂ _ _ => inferInstance) fun parameters c₂ _ _ => ?_
  exact .bind fun result c₃ _ _ => inferInstance

variable [c.Started]

instance steady_objectBound {t : TypeId} [Known c t] : Steady p c (objectBound child t) := by
  unfold objectBound
  refine .bind fun signatures c₁ _ known => ?_
  cases signatures with
  | cons s rest =>
      have : Known c₁ s := known.mem List.mem_cons_self
      exact .bind fun shown c₂ _ _ => inferInstance
  | nil =>
      refine .bind fun members c₂ _ _ => ?_
      refine .andThen (.mapM fun m c₃ _ _ => inferInstance) fun properties c₃ _ _ => ?_
      refine .bind fun index c₄ _ _ => .andThen (.mapM_option fun i _ => ?_) fun index c₅ _ _ => ?_
      · exact .bind fun shown c₅ _ _ => inferInstance
      · infer_instance

instance steady_unionMembers {members : List TypeId} [Known c members] :
    Steady p c (unionMembers child members) := by
  refine .foldlM fun sofar m c₁ _ _ _ => .bind fun data c₂ _ _ => ?_
  have shown : Steady p c₂ (do return sofar ++ [← child m]) := .bind fun b c₃ _ _ => inferInstance
  infer_instance

instance steady_linkKey {s : SymbolId} {t : TypeId} [Known c s] : Steady p c (linkKey s t) := by
  unfold linkKey
  refine .bind fun kind c₁ _ _ => ?_
  have declared : Steady p c₁ (do return (← Check.declaredType s).key) :=
    .bind fun u c₂ _ _ => inferInstance
  split <;> infer_instance

instance steady_namedParts {t : TypeId} [known : Known c t] : Steady p c (namedParts t) := by
  unfold namedParts
  refine .bind fun written c₁ first here => ?_
  cases written with
  | some ref =>
      obtain ⟨_, _⟩ := known_aliasRef_iff.mp here.of_some
      exact .bind fun declared c₂ _ _ => inferInstance
  | none =>
      refine .state (fun c₂ c₃ second _ later => ?_) fun c₂ second sound => ?_
      · rw [typeSymbol?_later later (known.later (first.trans second))]
      · have := known_typeSymbol? sound (known.later (first.trans second))
        refine .bind fun data c₃ _ _ => ?_
        exact .andThen (.mapM_option fun s _ => inferInstance) fun key c₄ _ _ => inferInstance

instance steady_named {t : TypeId} [known : Known c t] : Steady p c (named child t) := by
  unfold named
  refine .state (fun c₁ c₂ first sound later => ?_) fun c₁ first sound => ?_
  · rw [typeName_later sound later (known.later first)]
  refine .bind fun parts c₂ _ here => ?_
  obtain ⟨_, symbol⟩ := known_named_iff.mp here
  refine .bind fun parameters c₃ third _ => ?_
  refine .state (fun c₄ c₅ fourth _ later => ?_) fun c₄ _ _ => .bind fun _ _ _ _ => inferInstance
  have path : ∀ q, parts.symbol.bind (c₅.bindings.originPath? q) =
      parts.symbol.bind (c₄.bindings.originPath? q) := by
    intro q
    cases found : parts.symbol with
    | none => rfl
    | some s =>
        rw [found] at symbol
        have same := symbol_stays (third.trans fourth) symbol.of_some later
        simp only [Option.bind_some, Bindings.originPath?, Bindings.decls, same]
  simp only [path]

end

instance steadyOn_boundAt {n : Nat} {preferNamed : Bool} [c.Started] :
    SteadyOn p c (boundAt n preferNamed) := by
  refine ⟨fun t c' before known => ?_⟩
  induction n generalizing c c' preferNamed t with
  | zero =>
      unfold boundAt
      refine .state (fun c₁ c₂ first sound later => ?_) fun c₁ _ _ => inferInstance
      rw [typeName_later sound later (known.later first)]
  | succ n ih =>
      have deeper : ∀ preferNamed, SteadyOn p c' (boundAt n preferNamed) := fun preferNamed =>
        ⟨fun t c'' after here => ih t c'' (before.trans after) here⟩
      have child := deeper true
      unfold boundAt
      refine .bind fun written c₁ first _ => ?_
      have worked : Steady p c₁ (do
          let value ← Check.evaluate t
          if value = t then named (boundAt n true) t else boundAt n preferNamed value) := by
        have := deeper preferNamed
        exact .bind fun value c₂ _ _ => inferInstance
      split
      · infer_instance
      refine .bind fun data c₂ _ here => ?_
      cases data with
      | object shape => exact steady_ite
      | keyOf | indexedAccess | mapped => exact inferInstanceAs (Steady p c₂ (do
          let value ← Check.evaluate t
          if value = t then named (boundAt n true) t else boundAt n preferNamed value))
      | intersection members =>
          have := known_intersection_iff.mp here
          exact .bind fun shown c₃ _ _ => inferInstance
      | union members =>
          have := known_union_iff.mp here
          refine .bind fun isBoolean c₃ _ _ => ?_
          have all : Steady p c₃ (do
              return Bound.union (← unionMembers (boundAt n true) members)) :=
            .bind fun shown c₄ _ _ => inferInstance
          infer_instance
      | tuple items =>
          have := known_tuple_iff.mp here
          exact .bind fun shown c₃ _ _ => inferInstance
      | booleanLiteral | numberLiteral | stringLiteral => exact steady_pure
      | _ => exact steady_named

instance steady_bound {t : TypeId} [c.Started] [Known c t] : Steady p c (bound t) := by
  unfold bound
  infer_instance

instance steady_declaredBound {t : TypeId} [c.Started] [Known c t] :
    Steady p c (declaredBound t) := by
  have on : SteadyOn p c bound := ⟨fun t c' _ known => inferInstance⟩
  unfold declaredBound
  refine .bind fun data c₁ _ here => ?_
  cases data with
  | reference s args =>
      have := (known_reference_iff.mp here).1
      exact .bind fun kind c₂ _ _ => inferInstance
  | _ => exact .bind fun kind c₂ _ _ => inferInstance

end Render

/-! ### Requests -/

/-- What can be asked of a checker from outside, by the type of its answer. -/
inductive Request : Type → Type where
  | declaredType (s : SymbolId) : Request TypeId
  | valueType (s : SymbolId) : Request TypeId
  | typeParams (s : SymbolId) : Request (List TypeId)
  | evaluate (t : TypeId) : Request TypeId
  | members (t : TypeId) : Request (List Member)
  | member (t : TypeId) (name : String) : Request (Option Member)
  | callSignatures (t : TypeId) : Request (List Signature)
  | constructSignatures (t : TypeId) : Request (List Signature)
  | stringIndex (t : TypeId) : Request (Option IndexInfo)
  | elementType : Request (Option TypeId)
  | bound (t : TypeId) : Request Bound
  | declaredBound (t : TypeId) : Request Bound

namespace Request

/-- What the answer to a request mentions. -/
@[reducible] def mentions : {α : Type} → Request α → Mentions α
  | _, .declaredType _ => inferInstance
  | _, .valueType _ => inferInstance
  | _, .typeParams _ => inferInstance
  | _, .evaluate _ => inferInstance
  | _, .members _ => inferInstance
  | _, .member _ _ => inferInstance
  | _, .callSignatures _ => inferInstance
  | _, .constructSignatures _ => inferInstance
  | _, .stringIndex _ => inferInstance
  | _, .elementType => inferInstance
  | _, .bound _ => inferInstance
  | _, .declaredBound _ => inferInstance

def ask : {α : Type} → Request α → Check α
  | _, .declaredType s => Check.declaredType s
  | _, .valueType s => Check.valueType s
  | _, .typeParams s => Check.typeParams s
  | _, .evaluate t => Check.evaluate t
  | _, .members t => Check.members t
  | _, .member t name => Check.member? t name
  | _, .callSignatures t => Check.callSignatures t
  | _, .constructSignatures t => Check.constructSignatures t
  | _, .stringIndex t => Check.stringIndex? t
  | _, .elementType => Check.elementType?
  | _, .bound t => Render.bound t
  | _, .declaredBound t => Render.declaredBound t

/-- A request is about a symbol or a type that the checker has. -/
def About (c : Checker) : {α : Type} → Request α → Prop
  | _, .declaredType s => Known c s
  | _, .valueType s => Known c s
  | _, .typeParams s => Known c s
  | _, .evaluate t => Known c t
  | _, .members t => Known c t
  | _, .member t _ => Known c t
  | _, .callSignatures t => Known c t
  | _, .constructSignatures t => Known c t
  | _, .stringIndex t => Known c t
  | _, .elementType => True
  | _, .bound t => Known c t
  | _, .declaredBound t => Known c t

theorem steady_ask {α : Type} {p : Program} {c : Checker} [c.Started] (q : Request α)
    (about : q.About c) : @Check.Steady α q.mentions p c q.ask := by
  cases q with
  | declaredType s =>
      have : Known c s := about
      exact Check.steady_declaredType
  | valueType s =>
      have : Known c s := about
      exact Check.steady_valueType
  | typeParams s => exact Check.steady_typeParams
  | evaluate t =>
      have : Known c t := about
      exact Check.steady_evaluate
  | members t =>
      have : Known c t := about
      exact Check.steady_members
  | member t name =>
      have : Known c t := about
      exact Check.steady_member?
  | callSignatures t =>
      have : Known c t := about
      exact Check.steady_callSignatures
  | constructSignatures t =>
      have : Known c t := about
      exact Check.steady_constructSignatures
  | stringIndex t =>
      have : Known c t := about
      exact Check.steady_stringIndex?
  | elementType => exact Check.steady_elementType?
  | bound t =>
      have : Known c t := about
      exact Render.steady_bound
  | declaredBound t =>
      have : Known c t := about
      exact Render.steady_declaredBound

end Request

namespace Checker

/-- Requests lead from one state to another, each about what is there by then. -/
inductive Leads (p : Program) : Checker → Checker → Prop where
  | refl (c : Checker) : Leads p c c
  | ask {α : Type} {c c' : Checker} (before : Leads p c c') (q : Request α) (about : q.About c') :
      Leads p c (q.ask.outcome p c').2

/-- A state in which no request is being worked on: requests have led to it. -/
def AtRest (p : Program) (c : Checker) : Prop := Leads p (ofProgram p) c

theorem Sound.started {p : Program} {c : Checker} (sound : c.Sound p) : c.Started := ⟨sound.base⟩

theorem Sound.ask {p : Program} {c : Checker} {α : Type} (sound : c.Sound p) (q : Request α)
    (about : q.About c) : (q.ask.outcome p c).2.Sound p := by
  have := sound.started
  exact ((q.steady_ask about).outcome c (.refl c) sound).1

theorem Leads.later {p : Program} {c c' : Checker} (leads : Leads p c c') (sound : c.Sound p) :
    c.Later c' ∧ c'.Sound p := by
  induction leads with
  | refl => exact ⟨.refl _, sound⟩
  | ask _ q about ih =>
      obtain ⟨later, after⟩ := ih sound
      exact ⟨later.trans (q.ask.kept p _), after.ask q about⟩

/-- Whatever was asked before, a request leaves the types and the answers that are there as they are,
puts only types into the tables that are there, and gets the same answer when it is made again,
whatever else is asked in between. -/
theorem ask_again {p : Program} {c : Checker} (rest : c.AtRest p) {α : Type} (q : Request α)
    (about : q.About c) :
    let r := q.ask.outcome p c
    c.Later r.2 ∧ r.2.Sound p ∧ ∀ c', Leads p r.2 c' → (q.ask.outcome p c').1 = r.1 := by
  obtain ⟨reached, sound⟩ := rest.later (sound_ofProgram p)
  have after := sound.ask q about
  refine ⟨q.ask.kept p c, after, fun c' leads => ?_⟩
  obtain ⟨later, still⟩ := leads.later after
  have := sound.started
  exact (q.steady_ask about).again c (.refl c) sound reached c' later still

/-- An alias for an object with a member of that type. -/
def recursive : Program :=
  let self : TypeExpr := .reference (.ident "Node") []
  let node : Decl := .typeAlias ⟨"Node", [], .members [.property "next" (some self) false false {}]⟩
  { files := #[⟨⟨"/a.ts", #[], [⟨0, 0, none, {}, .exportDecl node⟩]⟩, "/a.ts", true⟩] }

set_option maxRecDepth 20000 in
/-- The type of the alias is the same after it was shown, and is shown the same. -/
theorem recursive_ask_again :
    let r := (Check.declaredType ⟨0⟩).outcome recursive (ofProgram recursive)
    let shown := (Render.bound r.1).outcome recursive r.2
    ((Check.declaredType ⟨0⟩).outcome recursive shown.2).1 = r.1 := by
  have there : Request.About (ofProgram recursive) (.declaredType ⟨0⟩) :=
    known_symbol_iff.mpr (by cbv)
  have made : Request.About ((Check.declaredType ⟨0⟩).outcome recursive (ofProgram recursive)).2
      (.bound ((Check.declaredType ⟨0⟩).outcome recursive (ofProgram recursive)).1) :=
    known_type_iff.mpr (by cbv)
  exact (ask_again (.refl _) (.declaredType ⟨0⟩) there).2.2 _ (.ask (.refl _) (.bound _) made)

end Checker

end ApiDocs
