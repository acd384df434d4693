import Mathlib
import ApiDocs.Proofs.Safety.Reading

set_option autoImplicit false

/-!
The parts of the checker that find the types of expressions, statements and values keep it sound, as
long as the questions that they ask do. So every question keeps it sound, however deep it nests.
-/

namespace ApiDocs.Checker

open Syntax Check

section

variable {p : Program} {calls : Calls} [safe : SafeCalls p calls] {c : Checker} [c.Started]

/-! ### Expressions -/

instance safe_identifierType {scope : ValueScope} {name : String} [Known c scope] :
    Safe p c (identifierType calls scope name) := by
  have bound : Known c (scope.local? name) := inferInstance
  unfold identifierType
  split
  · rename_i t found
    rw [found] at bound
    have := bound.of_some
    infer_instance
  · have looked : Safe p c (do
        match ← Check.lookup scope.types .value name with
        | some s => calls.ask (.valueType s)
        | none => return Arena.anyId) := by
      refine .bind fun found c₁ _ known => ?_
      cases found with
      | none => exact safe_pure
      | some s =>
          have := known.of_some
          exact inferInstanceAs (Safe p c₁ (calls.ask (.valueType s)))
    infer_instance

instance safe_unaryType {scope : ValueScope} {op : UnaryOp} {e : Expr} [Known c scope] :
    Safe p c (unaryType calls scope op e) := by
  unfold unaryType
  cases op with
  | minus =>
      refine .bind fun t c₁ _ _ => .bind fun data c₂ _ _ => ?_
      split <;> infer_instance
  | _ => exact safe_pure

instance safe_binaryType {scope : ValueScope} {op : BinaryOp} {left right : Expr}
    [Known c scope] : Safe p c (binaryType calls scope op left right) := by
  have either : Safe p c (do
      let l ← calls.ask (.infer scope left)
      let r ← calls.ask (.infer scope right)
      Check.union [l, r]) := .bind fun l c₁ _ _ => .bind fun r c₂ _ _ => inferInstance
  unfold binaryType
  cases op with
  | compare | arithmetic => exact safe_pure
  | and => exact inferInstanceAs (Safe p c (calls.ask (.infer scope right)))
  | or | nullish => exact either
  | add => exact .bind fun l c₁ _ _ => .bind fun r c₂ _ _ => inferInstance

instance safe_arrayType {scope : ValueScope} {items : List (Bool × Expr)} [Known c scope] :
    Safe p c (arrayType calls scope items) := by
  unfold arrayType
  refine .andThen (.mapM fun item c₁ _ _ => .bind fun t c₂ _ _ => ?_) fun types c₁ _ _ => ?_
  · dsimp only
    split <;> exact .bind fun t c₃ _ _ => inferInstance
  · dsimp only
    split <;> exact .bind fun item c₂ _ _ => inferInstance

omit [c.Started] in
instance known_setMember {shape : Shape} {m : Member} [Known c shape] [Known c m] :
    Known c (setMember shape m) := by
  unfold setMember
  infer_instance

instance safe_addProperty {scope : ValueScope} {shape : Shape} {property : ObjectProperty}
    [Known c scope] [Known c shape] : Safe p c (addProperty calls scope shape property) := by
  unfold addProperty
  cases property with
  | spread e =>
      refine .bind fun t c₁ _ _ => .bind fun found c₂ _ _ => ?_
      have all : Known c₂ (found.members.foldl setMember shape) :=
        known_foldl inferInstance inferInstance fun _ _ _ _ => known_setMember
      infer_instance
  | shorthand => exact .bind fun t c₁ _ _ => .bind fun t c₂ _ _ => inferInstance
  | keyed | assign => exact .bind fun t c₁ _ _ => inferInstance
  | getter name type body doc =>
      dsimp only
      split
      · exact .bind fun t c₁ _ _ => inferInstance
      · exact .bind fun t c₁ _ _ => inferInstance
      · exact .bind fun t c₁ _ _ => inferInstance
  | setter => exact safe_pure
  | method => exact .bind fun s c₁ _ _ => .bind fun t c₂ _ _ => inferInstance

instance safe_objectType {scope : ValueScope} {properties : List ObjectProperty} [Known c scope] :
    Safe p c (objectType calls scope properties) := by
  unfold objectType
  exact .andThen (.foldlM fun shape x c₁ _ _ _ => inferInstance) fun shape c₁ _ _ => inferInstance

instance safe_computedType {scope : ValueScope} {object : TypeId} {index : Expr} [Known c scope]
    [Known c object] : Safe p c (computedType calls scope object index) := by
  unfold computedType
  split
  · infer_instance
  · refine .bind fun data c₁ _ known => ?_
    split
    · have := known_tuple_iff.mp known
      infer_instance
    · infer_instance
  · exact .bind fun t c₁ _ _ => inferInstance

/-! ### Calls -/

instance safe_inferFrom {params : List TypeId} {n : Nat} {map : Substitution}
    {target source : TypeId} [Known c map] [Known c target] [Known c source] :
    Safe p c (inferFrom calls params n map target source) := by
  induction n generalizing c map target source with
  | zero =>
      unfold inferFrom
      infer_instance
  | succ n ih =>
      unfold inferFrom
      split
      · have new : Safe p c (do return map ++ [(target, ← Check.widen source)]) :=
          .bind fun t c₁ _ _ => inferInstance
        infer_instance
      refine .bind fun data c₁ _ known => .bind fun other c₂ _ sourceKnown => ?_
      split
      · obtain ⟨_, _⟩ := known_reference_iff.mp known
        obtain ⟨_, _⟩ := known_reference_iff.mp sourceKnown
        split
        · exact .foldlM fun map x c₃ _ _ _ => ih
        · infer_instance
      · have := known_union_iff.mp known
        exact .foldlM fun map m c₃ _ _ _ => ih
      · rename_i shape
        have := known_object_iff.mp known
        refine .bind fun found c₃ _ _ => ?_
        -- The members are matched one by one, whatever the signatures told.
        have members : ∀ (map : Substitution) (c' : Checker) [c₃.Before c'] [Known c' map],
            Safe p c' (shape.members.foldlM (fun map m => do
              match (← calls.ask (.shape source)).member? m.name with
              | some found => inferFrom calls params n map m.type found.type
              | none => return map) map) := by
          intro map c' _ _
          refine .foldlM fun map m c₄ _ _ _ => .bind fun found c₅ _ _ => ?_
          have member : Known c₅ (found.member? m.name) := inferInstance
          split
          · rename_i other same
            rw [same] at member
            have := member.of_some
            exact ih
          · infer_instance
        dsimp only
        split
        · rename_i target call targetCall sourceCall
          have both : Known c₃ (shape.call.head?, found.call.head?) := inferInstance
          rw [targetCall, sourceCall] at both
          have : Known c₃ target := (known_prod_iff.mp both).1.of_some
          have : Known c₃ call := (known_prod_iff.mp both).2.of_some
          refine .andThen (.foldlM fun map x c₄ _ _ _ => ih) fun map c₄ first _ => ?_
          refine .andThen ih fun map c₅ second _ => ?_
          have : c₃.Before c₅ := first.trans second
          exact members map c₅
        · exact .bind fun map c₄ _ _ => members map c₄
      · infer_instance

instance safe_typeArgsFor {scope : ValueScope} {s : Signature} {typeArgs : Option (List TypeExpr)}
    {args : List Expr} [Known c scope] [Known c s] :
    Safe p c (typeArgsFor calls scope s typeArgs args) := by
  unfold typeArgsFor
  cases typeArgs with
  | some written => exact .mapM fun x c₁ _ _ => .bind fun t c₂ _ _ => inferInstance
  | none => exact .foldlM fun map x c₁ _ _ _ => .bind fun t c₂ _ _ => inferInstance

instance safe_applySignature {scope : ValueScope} {s : Signature}
    {typeArgs : Option (List TypeExpr)} {args : List Expr} [Known c scope] [Known c s] :
    Safe p c (applySignature calls scope s typeArgs args) := by
  unfold applySignature
  split
  · infer_instance
  · refine .bind fun found c₁ _ _ => ?_
    have unknown : ∀ list : List TypeId, Known c₁ list →
        Known c₁ (list.map ((·, Arena.intrinsicId .unknown))) :=
      fun list all => known_map all fun t _ => inferInstance
    have := unknown (s.typeParams.filter fun p => (found.lookup p).isNone) inferInstance
    infer_instance

instance safe_applyFirst {scope : ValueScope} {signatures : List Signature}
    {typeArgs : Option (List TypeExpr)} {args : List Expr} [Known c scope]
    [all : Known c signatures] : Safe p c (applyFirst calls scope signatures typeArgs args) := by
  cases signatures with
  | nil => exact safe_pure
  | cons s rest =>
      have : Known c s := all.mem List.mem_cons_self
      exact safe_applySignature

instance safe_infer {scope : ValueScope} {e : Expr} [Known c scope] :
    Safe p c (infer calls scope e) := by
  cases e with
  | ident => exact safe_identifierType
  | this | null | bigint | update | other => exact safe_pure
  | boolean => exact safe_booleanLiteral
  | number => exact safe_numberLiteral
  | string => exact safe_stringLiteral
  | regex => exact safe_globalType
  | template text =>
      cases text with
      | some text => exact safe_stringLiteral
      | none => exact safe_pure
  | array => exact safe_arrayType
  | object => exact safe_objectType
  | function => exact .bind fun s c₁ _ _ => inferInstance
  | element => exact .bind fun t c₁ _ _ => inferInstance
  | paren e | wrapped e | instantiation e | assign e | sequence e =>
      exact inferInstanceAs (Safe p c (calls.ask (.infer scope e)))
  | cast type => exact inferInstanceAs (Safe p c (calls.ask (.lower scope.types type)))
  | await => exact .bind fun t c₁ _ _ => inferInstance
  | unary => exact safe_unaryType
  | binary => exact safe_binaryType
  | conditional => exact .bind fun t c₁ _ _ => .bind fun f c₂ _ _ => inferInstance
  | member | computed | privateMember => exact .bind fun t c₁ _ _ => inferInstance
  | call | new => exact .bind fun t c₁ _ _ => .bind fun shape c₂ _ _ => inferInstance

/-! ### Statements -/

instance safe_declaratorType {scope : ValueScope} {isConst : Bool} {d : Declarator}
    [Known c scope] : Safe p c (declaratorType calls scope isConst d) := by
  unfold declaratorType
  dsimp only
  split
  · infer_instance
  · exact .bind fun t c₁ _ _ => inferInstance
  · infer_instance

instance safe_bindItems {t : TypeId} {items : List (Option Pattern)} {scope : ValueScope}
    [Known c t] [Known c scope] : Safe p c (bindItems calls t items scope) := by
  unfold bindItems
  refine .bind fun data c₁ _ known => .foldlM fun scope x c₂ _ _ _ => ?_
  obtain ⟨item, i⟩ := x
  cases item with
  | none => exact safe_pure
  | some pattern =>
      cases data with
      | tuple types =>
          have := known_tuple_iff.mp known
          exact .bind fun part c₃ _ _ => inferInstance
      | _ => exact .bind fun part c₃ _ _ => inferInstance

instance safe_bindProperty {t : TypeId} {scope : ValueScope} {property : PatternProperty}
    [Known c t] [Known c scope] : Safe p c (bindProperty calls t scope property) := by
  unfold bindProperty
  split
  · exact .bind fun t c₁ _ _ => inferInstance
  · exact .bind fun t c₁ _ _ => inferInstance
  · infer_instance
  · infer_instance

instance safe_bindPattern {scope : ValueScope} {t : TypeId} {pattern : Pattern} [Known c scope]
    [Known c t] : Safe p c (bindPattern calls scope t pattern) := by
  cases pattern with
  | ident => exact safe_pure
  | default left => exact inferInstanceAs (Safe p c (calls.ask (.bindPattern scope left t)))
  | rest of => exact inferInstanceAs (Safe p c (calls.ask (.bindPattern scope of t)))
  | array => exact safe_bindItems
  | object => exact .foldlM fun scope x c₁ _ _ _ => inferInstance

instance safe_returns {sofar : Returns} {s : Stmt} [Known c sofar] :
    Safe p c (returns calls sofar s) := by
  cases s with
  | «return» value =>
      cases value with
      | none => exact .bind fun t c₁ _ _ => inferInstance
      | some e => exact .bind fun t c₁ _ _ => inferInstance
  | block => exact .foldlM fun sofar s c₁ _ _ _ => inferInstance
  | variableList =>
      refine .andThen (.foldlM fun scope d c₁ _ _ _ => ?_) fun scope c₁ _ _ => inferInstance
      exact .bind fun t c₂ _ _ => inferInstance
  | function => exact .bind fun s c₁ _ _ => .bind fun t c₂ _ _ => inferInstance
  | other => exact safe_pure

/-! ### Declared values -/

instance safe_variableType {s : SymbolId} : Safe p c (variableType calls s) := by
  unfold variableType
  refine .bind fun decls c₁ _ _ => ?_
  split
  · infer_instance
  · exact .bind fun scope c₂ _ _ => inferInstance

instance safe_functionSignatures {s : SymbolId} : Safe p c (functionSignatures calls s) := by
  unfold functionSignatures
  refine .bind fun decls c₁ _ _ => .mapM fun d c₂ _ _ => ?_
  exact .bind fun scope c₃ _ _ => inferInstance

instance safe_namespaceMembers {s : SymbolId} : Safe p c (namespaceMembers s) := by
  unfold namespaceMembers
  refine .bind fun found c₁ _ known => ?_
  cases found with
  | none => exact safe_pure
  | some symbol =>
      have := known.of_some
      dsimp only
      split
      · refine .state fun c₂ _ _ => .bind fun program c₃ _ _ => ?_
        exact .mapM fun name c₄ _ _ => .bind fun target c₅ _ _ => inferInstance
      · have : Known c₁ (symbol.members.values.entries.map fun (name, id) => (name, some id)) := by
          refine known_list_iff.mpr fun x listed => ?_
          obtain ⟨entry, inside, rfl⟩ := List.mem_map.mp listed
          have : Known c₁ entry.2 :=
            (known_entry_iff.mp inferInstance).2.2.mem (List.mem_map_of_mem inside)
          infer_instance
        exact safe_pure

instance safe_namespaceObject {s : SymbolId} [Known c s] : Safe p c (namespaceObject calls s) := by
  unfold namespaceObject
  refine .bind fun members c₁ _ _ => ?_
  refine .andThen (.foldlM fun shape x c₂ _ _ known => ?_) fun shape c₂ _ _ => inferInstance
  obtain ⟨name, target⟩ := x
  cases target with
  | none => exact .bind fun t c₃ _ _ => inferInstance
  | some id =>
      have := (known_prod_iff.mp known).2.of_some
      exact .bind fun t c₃ _ _ => inferInstance

instance safe_declaredValue {s : SymbolId} [Known c s] : Safe p c (declaredValue calls s) := by
  unfold declaredValue
  refine .bind fun kind c₁ _ _ => ?_
  split
  · infer_instance
  · exact .bind fun signatures c₂ _ _ => inferInstance
  · exact .bind fun signatures c₂ _ _ => inferInstance
  · refine .bind fun target c₂ _ known => ?_
    cases target with
    | none => exact safe_pure
    | some target =>
        have := known.of_some
        exact safe_ite
  · infer_instance
  · infer_instance
  · infer_instance
  · infer_instance
  · infer_instance

/-! ### Signatures of classes and functions -/

/-- A property that the answer has, wherever work starts. -/
def Always {α : Type} (m : Check α) (holds : α → Prop) : Prop := ∀ p c, holds (m.outcome p c).1

section

variable {α β : Type} {q : β → Prop}

omit safe [c.Started]

theorem Always.skip {m : Check α} {f : α → Check β} (next : ∀ a, Always (f a) q) :
    Always (m >>= f) q := fun p _ => next _ p _

theorem Always.bind {m : Check α} {f : α → Check β} {first : α → Prop} (always : Always m first)
    (next : ∀ a, first a → Always (f a) q) : Always (m >>= f) q :=
  fun p c => next _ (always p c) p _

theorem always_pure {b : β} (here : q b) : Always (pure b) q := fun _ _ => here

theorem always_mapM {f : α → Check β} {list : List α} (some : list ≠ []) :
    Always (list.mapM f) (· ≠ []) := by
  cases list with
  | nil => exact absurd rfl some
  | cons x rest =>
      rw [List.mapM_cons]
      exact .skip fun b => .skip fun bs => always_pure (List.cons_ne_nil b bs)

theorem always_inheritedConstructs? {scope : TypeScope} {class_ : ClassExpr} :
    Always (inheritedConstructs? calls scope class_) fun found => found ≠ some [] := by
  unfold inheritedConstructs?
  split
  · exact always_pure (by simp)
  · refine .skip fun args => .skip fun found => ?_
    cases found with
    | none => exact always_pure (by simp)
    | some s =>
        refine .skip fun value => .skip fun shape => ?_
        split
        · exact always_pure (by simp)
        · rename_i some
          intro p c none
          exact always_mapM some p c (Option.some.inj none)

/-- A class can always be constructed: by its own constructors, by those that it inherits, or else by
one without parameters. -/
theorem constructSignatures_ne_nil {s : SymbolId} {found : FileId × ClassExpr}
    (isClass : (c.bindings.decls s).findSome? classDecl? = some found) :
    ((constructSignatures calls s).outcome p c).1 ≠ [] := by
  have class_ : (classOf? s).outcome p c = (some found, c) := by
    simp only [classOf?, outcome_bind, outcome_decls, outcome_pure, isClass]
  unfold constructSignatures
  rw [outcome_bind, class_]
  refine Always.skip (q := (· ≠ [])) (fun scope => ?_) p c
  refine .skip fun typeParams => .skip fun this => .skip fun own => ?_
  split
  · rename_i some
    exact always_pure fun none => by simp [none] at some
  · refine always_inheritedConstructs?.bind fun inherited some => ?_
    cases inherited with
    | none => exact always_pure (List.cons_ne_nil _ _)
    | some inherited => exact always_pure fun none => some (by rw [List.map_eq_nil_iff.mp none])

/-- Where there are overloads, they stay when the declaration with the body is left out. -/
theorem functionSignatures_ne_nil {s : SymbolId}
    (isFunction : (c.bindings.decls s).filterMap functionDecl? ≠ []) :
    ((functionSignatures calls s).outcome p c).1 ≠ [] := by
  unfold functionSignatures
  rw [outcome_bind, outcome_decls]
  refine always_mapM (fun none => ?_) p c
  have hidden := List.filter_eq_nil_iff.mp none
  simp only [Bool.not_eq_true', Bool.not_eq_false, Bool.and_eq_true, List.any_eq_true] at hidden
  obtain ⟨first, listed⟩ := List.exists_mem_of_ne_nil _ isFunction
  obtain ⟨d, there, noBody⟩ := (hidden first listed).1.2
  rw [(hidden d there).2] at noBody
  cases noBody

end

/-- A new object has the members that it is made with, and no others are kept for it. -/
theorem isObject_object {c : Checker} (sound : c.Sound p) (shape : Shape) :
    ((Check.object shape).outcome p c).2.IsObject ((Check.object shape).outcome p c).1 shape where
  data := congrArg TypeInfo.data (Arena.info_addInfo_self c.arena ⟨.object shape, none⟩)
  kept found known := by
    have there := known_type_iff.mp (sound.holds.shapes ⟨c.arena.size⟩ found known).1
    exact absurd there (Nat.lt_irrefl _)

theorem classDecl?_ne_none {d : SymbolDecl} (kind : d.node.kind = .classDecl) :
    classDecl? d ≠ none := by
  obtain ⟨_, _, node⟩ := d
  cases node with
  | classDecl => exact nofun
  | _ => cases kind

theorem functionDecl?_ne_none {d : SymbolDecl} (kind : d.node.kind = .function) :
    functionDecl? d ≠ none := by
  obtain ⟨_, _, node⟩ := d
  cases node with
  | function => exact nofun
  | _ => cases kind

theorem offers_declaredValue {s : SymbolId} [known : Known c s] {start : Checker}
    (before : c.Before start) (sound : start.Sound p) :
    ((declaredValue calls s).outcome p start).2.Offers s
      ((declaredValue calls s).outcome p start).1 := by
  obtain ⟨x, found⟩ := Option.isSome_iff_exists.mp (known_symbol_iff.mp (known.later before))
  have still := ((declaredValue calls s).kept p start).bindings.symbol s x found
  have kind : start.bindings.kind? s = some x.kind := by
    simp only [Bindings.kind?, found, Option.map_some]
  have decls : start.bindings.decls s = x.decls := by
    simp only [Bindings.decls, found, Option.map_some, Option.getD_some]
  obtain ⟨nonempty, own⟩ := sound.bindings.declared s x found
  obtain ⟨d, listed⟩ := List.exists_mem_of_ne_nil _ nonempty
  have ofKind := own d listed
  constructor
  · intro isClass
    have isClass : x.kind = .classDecl := by
      simpa only [Bindings.kind?, still, Option.map_some, Option.some.injEq] using isClass
    let made := (constructSignatures calls s).outcome p start
    have result : (declaredValue calls s).outcome p start =
        (Check.object { construct := made.1, symbol := some s }).outcome p made.2 := by
      unfold declaredValue
      simp only [outcome_bind, outcome_kind?, kind, isClass, made]
    have signatures : Safe p start (constructSignatures calls s) := safe_constructSignatures
    have after := (signatures.outcome start (.refl start) sound).1
    have written : (start.bindings.decls s).findSome? classDecl? ≠ none := by
      rw [decls]
      intro none
      exact classDecl?_ne_none (ofKind.trans isClass) (List.findSome?_eq_none_iff.mp none d listed)
    obtain ⟨class_, written⟩ := Option.ne_none_iff_exists'.mp written
    rw [result]
    exact ⟨_, isObject_object after _, constructSignatures_ne_nil written⟩
  · intro isFunction
    have isFunction : x.kind = .function := by
      simpa only [Bindings.kind?, still, Option.map_some, Option.some.injEq] using isFunction
    let made := (functionSignatures calls s).outcome p start
    have result : (declaredValue calls s).outcome p start =
        (Check.object { call := made.1, symbol := some s }).outcome p made.2 := by
      unfold declaredValue
      simp only [outcome_bind, outcome_kind?, kind, isFunction, made]
    have signatures : Safe p start (functionSignatures calls s) := safe_functionSignatures
    have after := (signatures.outcome start (.refl start) sound).1
    have written : (start.bindings.decls s).filterMap functionDecl? ≠ [] := by
      rw [decls]
      intro none
      exact functionDecl?_ne_none (ofKind.trans isFunction)
        (List.filterMap_eq_nil_iff.mp none d listed)
    rw [result]
    exact ⟨_, isObject_object after _, functionSignatures_ne_nil written⟩

instance safe_valueType {s : SymbolId} [Known c s] : Safe p c (valueType calls s) :=
  safe_valueOnce fun _ before sound => offers_declaredValue before sound

/-! ### Questions -/

theorem safe_step {α : Type} (q : Query α) (known : q.Known c) :
    @Safe α q.mentions p c (step calls q) := by
  cases q with
  | declaredType s =>
      have : Known c s := known
      exact safe_declaredType
  | typeParams s => exact safe_typeParamsOf
  | valueType s =>
      have : Known c s := known
      exact safe_valueType
  | structure_ s =>
      have : Known c s := known
      exact safe_structureOf
  | shape t =>
      have : Known c t := known
      exact safe_shapeOf
  | evaluate t =>
      have : Known c t := known
      exact safe_evaluate
  | indexedAccess whole object index =>
      have all : Known c [whole, object, index] := known
      have : Known c whole := all.mem (by simp)
      have : Known c object := all.mem (by simp)
      have : Known c index := all.mem (by simp)
      exact safe_indexedAccess
  | lower scope e =>
      have : Known c scope := known
      exact safe_lower
  | infer scope e =>
      have : Known c scope := known
      exact safe_infer
  | patternType scope properties =>
      have : Known c scope := known
      exact safe_patternType
  | bindPattern scope pattern t =>
      obtain ⟨_, _⟩ : Known c scope ∧ Known c t := known_prod_iff.mp known
      exact safe_bindPattern
  | returns sofar s =>
      have : Known c sofar := known
      exact safe_returns

end

/-- What stands for an answer that is not worked out mentions only what the question does. -/
theorem known_fallback {c : Checker} [c.Started] {α : Type} (q : Query α) (known : q.Known c) :
    @Known α q.mentions c q.fallback := by
  cases q with
  | declaredType | valueType | lower | infer | patternType =>
      exact inferInstanceAs (Known c Arena.anyId)
  | typeParams => exact inferInstanceAs (Known c ([] : List TypeId))
  | structure_ | shape => exact inferInstanceAs (Known c ({} : Shape))
  | evaluate => exact known
  | indexedAccess whole => exact Known.mem known List.mem_cons_self
  | bindPattern => exact (known_prod_iff.mp known).1
  | returns => exact known

instance safe_callsWithin {p : Program} {n : Nat} : SafeCalls p (callsWithin n) := by
  induction n with
  | zero =>
      refine ⟨fun q c _ known => @Safe.mk _ q.mentions p c _ fun c' before sound => ?_⟩
      have noted := tabled_giveUp sound
      have stands := @safe_pure _ q.mentions p c _ (known_fallback q known)
      exact @Safe.outcome _ q.mentions p c _ stands _ (before.trans noted.before) noted.sound
  | succ n ih => exact ⟨fun q c _ known => safe_step q known⟩

instance safe_callsTo {p : Program} {n : Nat} : SafeCalls p (callsTo n) := safe_callsWithin

instance safe_calls {p : Program} : SafeCalls p calls := safe_callsTo

/-! ### The start -/

/-- The types that every arena starts with mention each other only. -/
theorem mentions_initial : ((List.range 14).all fun i =>
    (Mentions.types (Arena.initial.info ⟨i⟩)).all (·.index < 14) &&
      (Mentions.symbols (Arena.initial.info ⟨i⟩)).isEmpty) = true := by
  cbv

theorem size_initial : Arena.initial.size = 14 := by cbv

theorem interns_initial : Arena.initial.Interns := by
  have keywords : (Intrinsic.all.foldl (fun a i => (a.add (.intrinsic i)).2) ({} : Arena)).Interns := by
    intro k t found
    have none : (∅ : Std.HashMap InternKey TypeId)[k]? = some t := found
    rw [Std.HashMap.getElem?_empty] at none
    cases none
  exact Arena.interns_intern (Arena.interns_intern (Arena.interns_intern keywords _ _) _ _) _ _

theorem sound_ofProgram (p : Program) : (ofProgram p).Sound p where
  bindings := Bindings.proper_ofProgram p
  base := Nat.le_of_eq size_initial.symm
  infos t inside := by
    have small : t.index ∈ List.range 14 := List.mem_range.mpr (size_initial ▸ inside)
    have closed := List.all_eq_true.mp mentions_initial t.index small
    rw [Bool.and_eq_true, List.all_eq_true, List.isEmpty_iff] at closed
    refine ⟨fun other mentioned => ?_, fun s mentioned => ?_⟩
    · exact Nat.lt_of_lt_of_eq (of_decide_eq_true (closed.1 other mentioned)) size_initial.symm
    · exact absurd (closed.2 ▸ mentioned) List.not_mem_nil
  interned k t found := known_type_iff.mpr (interns_initial k t found)
  holds := by
    constructor <;> intros <;> simp_all [ofProgram, Memo.find?]
  offers s t found := by simp [ofProgram, Memo.find?] at found

end ApiDocs.Checker
