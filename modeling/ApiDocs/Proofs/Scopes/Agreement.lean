import ApiDocs.Proofs.Safety.Values
import ApiDocs.Proofs.Scopes.Uses

set_option autoImplicit false

/-!
What the checker finds in a scope depends on the names that are used there, and on no others: where
two scopes agree on them, every question has the same answer and leaves the checker in the same
state.
-/

namespace ApiDocs

open Syntax

/-! ### Two runs side by side -/

namespace Check

variable {α β : Type}

/-- Pieces of work that leave every checker in the same state, and whose answers are related. -/
def Twin (related : α → α → Prop) (m m' : Check α) : Prop :=
  ∀ p c, related (m.outcome p c).1 (m'.outcome p c).1 ∧ (m.outcome p c).2 = (m'.outcome p c).2

theorem ext_outcome {m m' : Check α} (same : ∀ p c, m.outcome p c = m'.outcome p c) : m = m' := by
  obtain ⟨outcome, work⟩ := m
  obtain ⟨outcome', work'⟩ := m'
  have outcomes : outcome = outcome' := funext fun p => funext (same p)
  subst outcomes
  rfl

theorem Twin.eq {m m' : Check α} (twin : Twin Eq m m') : m = m' :=
  ext_outcome fun p c => Prod.ext (twin p c).1 (twin p c).2

section

variable {related : α → α → Prop} {relatedNext : β → β → Prop}

theorem twin_self (m : Check α) : Twin Eq m m := fun _ _ => ⟨rfl, rfl⟩

theorem twin_pure {a a' : α} (here : related a a') : Twin related (pure a) (pure a') :=
  fun _ _ => ⟨here, rfl⟩

theorem Twin.mono {weaker : α → α → Prop} {m m' : Check α} (twin : Twin related m m')
    (weaken : ∀ a a', related a a' → weaker a a') : Twin weaker m m' :=
  fun p c => ⟨weaken _ _ (twin p c).1, (twin p c).2⟩

theorem Twin.bind {m m' : Check α} {f f' : α → Check β} (first : Twin related m m')
    (next : ∀ a a', related a a' → Twin relatedNext (f a) (f' a')) :
    Twin relatedNext (m >>= f) (m' >>= f') := by
  intro p c
  obtain ⟨answers, states⟩ := first p c
  rw [outcome_bind, outcome_bind, ← states]
  exact next _ _ answers p _

/-- Work that is the same up to here goes on side by side from the same answer. -/
theorem Twin.after {m : Check α} {f f' : α → Check β} (next : ∀ a, Twin relatedNext (f a) (f' a)) :
    Twin relatedNext (m >>= f) (m >>= f') :=
  (twin_self m).bind fun a _ same => same ▸ next a

theorem Twin.foldlM {f f' : α → β → Check α} {list : List β}
    (round : ∀ x ∈ list, ∀ a a', related a a' → Twin related (f a x) (f' a' x)) {a a' : α}
    (start : related a a') : Twin related (list.foldlM f a) (list.foldlM f' a') := by
  induction list generalizing a a' with
  | nil => exact twin_pure start
  | cons x rest ih =>
      rw [List.foldlM_cons, List.foldlM_cons]
      exact (round x List.mem_cons_self a a' start).bind fun _ _ next =>
        ih (fun y inside => round y (List.mem_cons_of_mem x inside)) next

end

theorem foldlM_congr {f f' : α → β → Check α} {list : List β} {a : α}
    (same : ∀ x ∈ list, ∀ a, f a x = f' a x) : list.foldlM f a = list.foldlM f' a := by
  refine (Twin.foldlM (fun x inside a a' first => ?_) rfl).eq
  rw [first, same x inside a']
  exact twin_self _

theorem mapM_congr {f f' : α → Check β} {list : List α} (same : ∀ x ∈ list, f x = f' x) :
    list.mapM f = list.mapM f' := by
  induction list with
  | nil => rfl
  | cons x rest ih =>
      rw [List.mapM_cons, List.mapM_cons, same x List.mem_cons_self,
        ih fun y inside => same y (List.mem_cons_of_mem x inside)]

/-- A loop over parts that give names to the parts behind them. What is related is related for some
names, `seen`; to these each part adds those that it gives, and it needs only those that it uses. -/
theorem Twin.foldlM_exposed {live : Prop} {uses gives : String → β → Prop}
    {related : (String → Prop) → α → α → Prop} {f f' : α → β → Check α} {list : List β}
    (round : ∀ part ∈ list, ∀ seen a a', (∀ x, live → uses x part → seen x) → related seen a a' →
      Twin (related fun x => seen x ∨ live ∧ gives x part) (f a part) (f' a' part))
    {seen : String → Prop} {a a' : α}
    (used : ∀ x, live → Exposed (uses x) (gives x) list → seen x) (start : related seen a a') :
    Twin (related fun x => seen x ∨ live ∧ ∃ part ∈ list, gives x part)
      (list.foldlM f a) (list.foldlM f' a') := by
  induction list generalizing seen a a' with
  | nil => exact twin_pure (by simpa using start)
  | cons part rest ih =>
      rw [List.foldlM_cons, List.foldlM_cons]
      refine (round part List.mem_cons_self seen a a' (fun x on here => used x on (.here here))
        start).bind fun b b' next => ?_
      -- A name that this part does not give is used by the whole list, if by the rest of it.
      have usedLater : ∀ x, live → Exposed (uses x) (gives x) rest →
          seen x ∨ live ∧ gives x part := by
        intro x on later
        rcases Classical.em (gives x part) with given | free
        · exact Or.inr ⟨on, given⟩
        · exact Or.inl (used x on (.later free later))
      have last := ih (fun y inside => round y (List.mem_cons_of_mem part inside)) usedLater next
      simpa [or_assoc, and_or_left] using last

end Check

/-! ### Scopes that agree -/

/-- The scopes have the same types, and the same types of the local values under some names. -/
structure ValueScope.Agree (names : String → Prop) (s s' : ValueScope) : Prop where
  types : s.types = s'.types
  locals : ∀ x, names x → s.local? x = s'.local? x

namespace ValueScope

variable {names : String → Prop} {s s' : ValueScope}

theorem local?_bind (s : ValueScope) (name : String) (t : TypeId) (x : String) :
    (s.bind name t).local? x = if x = name then some t else s.local? x := by
  unfold local? bind
  rw [List.lookup_cons]
  split
  · rename_i same
    rw [if_pos (beq_iff_eq.mp same)]
  · rename_i differs
    rw [if_neg (by simpa using differs)]

theorem Agree.refl (s : ValueScope) : Agree names s s := ⟨rfl, fun _ _ => rfl⟩

theorem Agree.mono {fewer : String → Prop} (agree : Agree names s s')
    (less : ∀ x, fewer x → names x) : Agree fewer s s' :=
  ⟨agree.types, fun x listed => agree.locals x (less x listed)⟩

/-- Scopes that agree on what a whole uses agree on what a part of it uses. -/
theorem Agree.part {live : Prop} {whole part : String → Prop}
    (agree : Agree (fun x => live ∧ whole x) s s') (inside : ∀ x, part x → whole x) :
    Agree (fun x => live ∧ part x) s s' :=
  agree.mono fun x => And.imp_right (inside x)

/-- Scopes that agree on some names agree on those and on none more. -/
theorem Agree.noneMore {more : String → Prop} (agree : Agree names s s') (none : ∀ x, ¬ more x) :
    Agree (fun x => names x ∨ more x) s s' :=
  agree.mono fun x listed => listed.resolve_right (none x)

theorem Agree.bind (agree : Agree names s s') (name : String) (t : TypeId) :
    Agree (fun x => names x ∨ x = name) (s.bind name t) (s'.bind name t) := by
  refine ⟨agree.types, fun x listed => ?_⟩
  rw [local?_bind, local?_bind]
  split
  · rfl
  · rename_i differs
    exact agree.locals x (listed.resolve_right differs)

end ValueScope

/-- The types returned so far are the same, and the scopes agree. -/
structure Returns.Agree (names : String → Prop) (r r' : Returns) : Prop where
  scope : r.scope.Agree names r'.scope
  types : r.types = r'.types

theorem Returns.Agree.mono {names fewer : String → Prop} {r r' : Returns}
    (agree : Returns.Agree names r r') (less : ∀ x, fewer x → names x) : Returns.Agree fewer r r' :=
  ⟨agree.scope.mono less, agree.types⟩

/-- The parameters read so far are the same, and the scopes agree. -/
structure Checker.ParamsRead.Agree (names : String → Prop) (r r' : ParamsRead) : Prop where
  scope : r.scope.Agree names r'.scope
  params : r.params = r'.params

namespace Checker

open Check

/-- Questions depend on the names that are used, and on nothing else. Where they nest too deep they
are not worked out, so that no name is bound and none is used: `live` says that expressions and
patterns are still worked out, `deep` that what statements are put together from is. -/
structure Framed (live deep : Prop) (calls : Calls) : Prop where
  live_of_deep : deep → live
  infer {s s' : ValueScope} {e : Expr} (agree : s.Agree (fun x => live ∧ e.Uses x) s') :
    calls.ask (.infer s e) = calls.ask (.infer s' e)
  patternType {s s' : ValueScope} {properties : List PatternProperty}
    (agree : s.Agree (fun x => live ∧ ∃ q ∈ properties, q.Uses x) s') :
    calls.ask (.patternType s properties) = calls.ask (.patternType s' properties)
  bindPattern {names : String → Prop} {s s' : ValueScope} {pattern : Pattern} {t : TypeId}
    (agree : s.Agree names s') :
    Twin (ValueScope.Agree fun x => names x ∨ live ∧ pattern.Names x)
      (calls.ask (.bindPattern s pattern t)) (calls.ask (.bindPattern s' pattern t))
  returns {names : String → Prop} {r r' : Returns} {s : Stmt}
    (used : ∀ x, deep → s.Uses x → names x) (agree : r.Agree names r') :
    Twin (Returns.Agree fun x => names x ∨ deep ∧ s.Declares x)
      (calls.ask (.returns r s)) (calls.ask (.returns r' s))

/-- Work done once, with what is known of its answer. -/
theorem Always.twin {α : Type} {m : Check α} {holds : α → Prop} (always : Always m holds) :
    Twin (fun a a' => a = a' ∧ holds a) m m := fun p c => ⟨⟨rfl, always p c⟩, rfl⟩

section

variable {live deep : Prop} {calls : Calls} (framed : Framed live deep calls) {s s' : ValueScope}

include framed

theorem inferWidened_congr {e : Expr} (agree : s.Agree (fun x => live ∧ e.Uses x) s') :
    inferWidened calls s e = inferWidened calls s' e := by
  unfold inferWidened
  rw [framed.infer agree]

/-! ### Functions -/

/-- Statements one after the other, from scopes that agree on the names that they use. -/
theorem twin_statements {names : String → Prop} {statements : List Stmt} {r r' : Returns}
    (used : ∀ x, deep → Stmt.UsesIn x statements → names x) (agree : r.Agree names r') :
    Twin (Returns.Agree names)
      (statements.foldlM (fun sofar s => calls.ask (.returns sofar s)) r)
      (statements.foldlM (fun sofar s => calls.ask (.returns sofar s)) r') := by
  have all := Twin.foldlM_exposed (fun _ _ _ _ _ => framed.returns) used agree
  exact all.mono fun _ _ agree => agree.mono fun _ => Or.inl

theorem blockReturn_congr {statements : List Stmt} {isAsync isGenerator : Bool}
    (agree : s.Agree (fun x => live ∧ Stmt.UsesIn x statements) s') :
    blockReturn calls s statements isAsync isGenerator =
      blockReturn calls s' statements isAsync isGenerator := by
  unfold blockReturn
  split
  · rfl
  · have start : Returns.Agree (fun x => live ∧ Stmt.UsesIn x statements) ⟨s, []⟩ ⟨s', []⟩ :=
      ⟨agree, rfl⟩
    have walked := twin_statements framed (fun x on used => ⟨framed.live_of_deep on, used⟩) start
    refine (walked.bind fun found found' same => ?_).eq
    rw [same.types]
    exact twin_self _

theorem objectParam_congr {index : Nat} {properties : List PatternProperty} {optional : Bool}
    {type : Option TypeExpr} (agree : s.Agree (fun x => live ∧ ∃ q ∈ properties, q.Uses x) s') :
    objectParam calls s index properties optional type =
      objectParam calls s' index properties optional type := by
  unfold objectParam
  rw [agree.types, framed.patternType agree]

theorem param?_congr {doc : DocComment} {index : Nat} {pattern : Pattern}
    (agree : s.Agree (fun x => live ∧ pattern.Uses x) s') :
    param? calls s doc index pattern = param? calls s' doc index pattern := by
  cases pattern with
  | ident | array | rest =>
      unfold param?
      rw [agree.types]
  | object properties =>
      dsimp only [param?]
      rw [objectParam_congr framed (agree.part fun _ => Pattern.uses_object)]
  | default left value =>
      have fallback := inferWidened_congr framed (agree.part fun _ => .value)
      dsimp only [param?]
      rw [fallback]
      cases left with
      | object properties =>
          dsimp only
          rw [objectParam_congr framed
            (agree.part fun _ inside => .left (Pattern.uses_object inside))]
      | _ => rw [agree.types]

omit framed in
/-- A pattern that names something is a parameter. -/
theorem always_param? {doc : DocComment} {index : Nat} {pattern : Pattern} {x : String}
    (named : pattern.Names x) : Always (param? calls s doc index pattern) (·.isSome) := by
  cases named with
  | ident plain =>
      dsimp only [param?, nameParam?]
      rw [if_neg plain]
      split <;> exact .skip fun t => always_pure rfl
  | object => exact .skip fun param => always_pure rfl

/-- Reads a parameter and puts it in reach of the next ones. -/
def readParam (calls : Calls) (doc : DocComment) (read : ParamsRead) :
    Pattern × Nat → Check ParamsRead
  | (pattern, index) => do
      match ← param? calls read.scope doc index pattern with
      | some param =>
          let scope ← calls.ask (.bindPattern read.scope pattern param.type)
          return ⟨scope, read.params ++ [param]⟩
      | none => return read

/-- The type that a function returns, in the scope behind its parameters. -/
def resultType (calls : Calls) (types : TypeScope) (scope : ValueScope) (f : FunctionExpr) :
    Check TypeId :=
  match f.result, f.body with
  | some e, _ => calls.ask (.lower types e)
  | none, .block statements => blockReturn calls scope statements f.isAsync f.isGenerator
  | none, .expr value => do returned f.isAsync (← inferWidened calls scope value)
  | none, .none => return Arena.anyId

omit framed in
theorem functionSignature_eq (doc : DocComment) (f : FunctionExpr) :
    functionSignature calls s doc f = (do
      let (typeParams, types) ← lowerTypeParams calls s.types f.typeParams
      let read ← f.params.zipIdx.foldlM (readParam calls doc) ⟨{ s with types }, []⟩
      let result ← resultType calls types read.scope f
      return ⟨typeParams, read.params, result, doc.text⟩) := by
  obtain ⟨typeParams, params, result, body, isAsync, isGenerator⟩ := f
  cases result with
  | some e => rfl
  | none => cases body <;> rfl

theorem twin_readParam {names : String → Prop} {doc : DocComment} {param : Pattern × Nat}
    {r r' : ParamsRead} (used : ∀ x, live → param.1.Uses x → names x) (agree : r.Agree names r') :
    Twin (ParamsRead.Agree fun x => names x ∨ live ∧ param.1.Names x)
      (readParam calls doc r param) (readParam calls doc r' param) := by
  obtain ⟨pattern, index⟩ := param
  have named : Always (param? calls r'.scope doc index pattern)
      fun found => ∀ x, pattern.Names x → found.isSome := fun p c x named => always_param? named p c
  dsimp only [readParam]
  rw [param?_congr framed (agree.scope.mono fun x here => used x here.1 here.2)]
  refine named.twin.bind fun found found' answers => ?_
  obtain ⟨rfl, isSome⟩ := answers
  cases found with
  | none =>
      have none : ∀ x, ¬ pattern.Names x := fun x named => nomatch isSome x named
      exact twin_pure (by simpa [none] using agree)
  | some param =>
      refine (framed.bindPattern agree.scope).bind fun scope scope' next => ?_
      exact twin_pure ⟨next, by rw [agree.params]⟩

theorem resultType_congr {types : TypeScope} {f : FunctionExpr}
    (agree : s.Agree (fun x => live ∧ f.body.Uses x) s') :
    resultType calls types s f = resultType calls types s' f := by
  unfold resultType
  split
  · rfl
  · rename_i statements _ body
    rw [body] at agree
    exact blockReturn_congr framed (agree.part fun _ => .block)
  · rename_i value _ body
    rw [body] at agree
    rw [inferWidened_congr framed (agree.part fun _ => .expr)]
  · rfl

theorem functionSignature_congr {doc : DocComment} {f : FunctionExpr}
    (agree : s.Agree (fun x => live ∧ f.Uses x) s') :
    functionSignature calls s doc f = functionSignature calls s' doc f := by
  rw [functionSignature_eq, functionSignature_eq, agree.types]
  refine bind_congr fun read => ?_
  obtain ⟨typeParams, types⟩ := read
  have start : ParamsRead.Agree (fun x => live ∧ f.Uses x) ⟨{ s with types }, []⟩
      ⟨{ s' with types }, []⟩ := ⟨⟨rfl, agree.locals⟩, rfl⟩
  have usedFirst : ∀ x, live →
      Exposed (fun p : Pattern × Nat => p.1.Uses x) (fun p => p.1.Names x) f.params.zipIdx →
      live ∧ f.Uses x := fun x on exposed => ⟨on, .params (by simpa using exposed.map)⟩
  refine ((Twin.foldlM_exposed (fun _ _ _ _ _ => twin_readParam framed) usedFirst start).bind
    fun read read' next => ?_).eq
  -- What the body uses is named by a parameter or used by the whole function.
  have bodyAgrees : read.scope.Agree (fun x => live ∧ f.body.Uses x) read'.scope := by
    refine next.scope.mono fun x inside => ?_
    obtain ⟨on, used⟩ := inside
    rcases Classical.em (∃ p ∈ f.params.zipIdx, p.1.Names x) with named | free
    · exact Or.inr ⟨on, named⟩
    · refine Or.inl ⟨on, .body (fun param listed named => free ?_) used⟩
      rw [← List.zipIdx_map_fst 0 f.params] at listed
      obtain ⟨pair, inside, rfl⟩ := List.mem_map.mp listed
      exact ⟨pair, inside, named⟩
  rw [resultType_congr framed bodyAgrees, next.params]
  exact twin_self _

/-! ### Patterns -/

theorem patternMember?_congr {property : PatternProperty}
    (agree : s.Agree (fun x => live ∧ property.Uses x) s') :
    patternMember? calls s property = patternMember? calls s' property := by
  cases property with
  | shorthand name value =>
      cases value with
      | none => rfl
      | some value =>
          dsimp only [patternMember?]
          rw [inferWidened_congr framed (agree.part fun _ => .shorthand)]
  | rest => rfl
  | keyed name value =>
      cases name with
      | none => rfl
      | some name =>
          cases value with
          | default left value =>
              dsimp only [patternMember?]
              rw [inferWidened_congr framed (agree.part fun _ used => .keyed (.value used))]
          | object inner =>
              dsimp only [patternMember?]
              rw [framed.patternType
                (agree.part fun _ inside => .keyed (Pattern.uses_object inside))]
          | _ => rfl

theorem patternType_congr {properties : List PatternProperty}
    (agree : s.Agree (fun x => ∃ q ∈ properties, q.Uses x) s') :
    patternType calls s properties = patternType calls s' properties := by
  unfold patternType
  congr 1
  refine foldlM_congr fun q listed shape => ?_
  rw [patternMember?_congr framed (agree.mono fun x used => ⟨q, listed, used.2⟩)]

/-- A pattern inside another one, where that one has no names itself. -/
theorem twin_bindInside {names more : String → Prop} {pattern : Pattern} {t : TypeId}
    (none : ∀ x, ¬ more x) (agree : s.Agree names s') :
    Twin (ValueScope.Agree fun x => names x ∨ more x) (calls.ask (.bindPattern s pattern t))
      (calls.ask (.bindPattern s' pattern t)) :=
  (framed.bindPattern agree).mono fun _ _ agree => (agree.mono fun _ => Or.inl).noneMore none

theorem twin_bindItems {names : String → Prop} {t : TypeId} {items : List (Option Pattern)}
    (agree : s.Agree names s') :
    Twin (ValueScope.Agree names) (bindItems calls t items s) (bindItems calls t items s') := by
  unfold bindItems
  refine .after fun data => .foldlM (fun part _ a a' agree => ?_) agree
  obtain ⟨item, i⟩ := part
  cases item with
  | none => exact twin_pure agree
  | some pattern =>
      dsimp only
      split <;> exact .after fun part =>
        (framed.bindPattern agree).mono fun _ _ agree => agree.mono fun _ => Or.inl

theorem twin_bindProperty {names : String → Prop} {t : TypeId} {property : PatternProperty}
    (agree : s.Agree names s') :
    Twin (ValueScope.Agree fun x => names x ∨ property.Names x)
      (bindProperty calls t s property) (bindProperty calls t s' property) := by
  cases property with
  | shorthand name value =>
      refine .after fun t => twin_pure ((agree.bind name t).mono fun x => Or.imp_right ?_)
      rintro ⟨⟩
      rfl
  | keyed name value =>
      cases name with
      | none => exact twin_bindInside framed nofun agree
      | some name => exact .after fun t => twin_bindInside framed nofun agree
  | rest of => exact twin_bindInside framed nofun agree

theorem twin_bindPattern {names : String → Prop} {t : TypeId} {pattern : Pattern}
    (agree : s.Agree names s') :
    Twin (ValueScope.Agree fun x => names x ∨ pattern.Names x)
      (bindPattern calls s t pattern) (bindPattern calls s' t pattern) := by
  cases pattern with
  | ident name =>
      refine twin_pure ((agree.bind name t).mono fun x => Or.imp_right ?_)
      rintro ⟨⟩
      rfl
  | default | rest => exact twin_bindInside framed nofun agree
  | array items => exact (twin_bindItems framed agree).mono fun _ _ agree => agree.noneMore nofun
  | object properties =>
      have round : ∀ property ∈ properties, ∀ names s s', (∀ x, True → False → names x) →
          ValueScope.Agree names s s' →
          Twin (ValueScope.Agree fun x => names x ∨ True ∧ property.Names x)
            (bindProperty calls t s property) (bindProperty calls t s' property) := by
        intro property _ names s s' _ agree
        simpa using twin_bindProperty framed agree
      have all := Twin.foldlM_exposed round (fun x _ used => nomatch used.exists) agree
      refine all.mono fun _ _ agree => agree.mono fun x => Or.imp_right ?_
      rintro ⟨⟩
      exact ⟨trivial, _, ‹_›, ‹_›⟩

/-! ### Statements -/

theorem declaratorType_congr {isConst : Bool} {d : Declarator}
    (agree : s.Agree (fun x => live ∧ d.Uses x) s') :
    declaratorType calls s isConst d = declaratorType calls s' isConst d := by
  unfold declaratorType
  dsimp only
  rw [agree.types]
  split
  · rfl
  · rename_i value _ init
    rw [framed.infer (agree.part fun _ => .init init)]
  · rfl

theorem twin_declarator {names : String → Prop} (isConst : Bool) {d : Declarator}
    (used : ∀ x, live → d.Uses x → names x) (agree : s.Agree names s') :
    Twin (ValueScope.Agree fun x => names x ∨ live ∧ d.name.Names x)
      (do calls.ask (.bindPattern s d.name (← declaratorType calls s isConst d)))
      (do calls.ask (.bindPattern s' d.name (← declaratorType calls s' isConst d))) := by
  rw [declaratorType_congr framed (agree.mono fun x here => used x here.1 here.2)]
  exact .after fun t => framed.bindPattern agree

theorem twin_returns {names : String → Prop} {stmt : Stmt} {r r' : Returns}
    (used : ∀ x, live → stmt.Uses x → names x) (agree : r.Agree names r') :
    Twin (Returns.Agree fun x => names x ∨ live ∧ stmt.Declares x)
      (returns calls r stmt) (returns calls r' stmt) := by
  cases stmt with
  | «return» value =>
      have same : ∀ t, Returns.Agree (fun x => names x ∨ live ∧ (Stmt.return value).Declares x)
          { r with types := r.types ++ [t] } { r' with types := r'.types ++ [t] } :=
        fun t => ⟨agree.scope.noneMore nofun, by rw [agree.types]⟩
      cases value with
      | none => exact .after fun t => twin_pure (same t)
      | some value =>
          dsimp only [returns]
          rw [inferWidened_congr framed
            (agree.scope.mono fun x here => used x here.1 (.return here.2))]
          exact .after fun t => twin_pure (same t)
  | block statements =>
      have walked := twin_statements framed
        (fun x on here => used x (framed.live_of_deep on) (.block here)) agree
      exact walked.mono fun _ _ agree => ⟨agree.scope.noneMore nofun, agree.types⟩
  | variableList isConst declarators =>
      have all := Twin.foldlM_exposed (fun d _ _ _ _ => twin_declarator framed isConst)
        (fun x on here => used x on (.variableList here)) agree.scope
      refine all.bind fun scope scope' next => twin_pure ⟨next.mono fun x => ?_, agree.types⟩
      refine Or.imp_right fun declared => ⟨declared.1, ?_⟩
      cases declared.2 with
      | variableList listed named => exact ⟨_, listed, named⟩
  | function name f =>
      dsimp only [returns]
      rw [functionSignature_congr framed
        (agree.scope.mono fun x here => used x here.1 (.function here.2))]
      refine .after fun signature => .after fun t => twin_pure ⟨?_, agree.types⟩
      refine (agree.scope.bind name t).mono fun x => Or.imp_right fun declared => ?_
      cases declared.2
      rfl
  | other => exact twin_pure ⟨agree.scope.noneMore nofun, agree.types⟩

/-! ### Expressions -/

omit framed in
theorem identifierType_congr {name : String} (agree : s.Agree (· = name) s') :
    identifierType calls s name = identifierType calls s' name := by
  unfold identifierType
  rw [agree.locals name rfl, agree.types]

/-- What an operand uses, the whole expression uses. -/
theorem operand_congr {e part : Expr} (agree : s.Agree (e.Uses ·) s') (inside : part ∈ e.operands) :
    calls.ask (.infer s part) = calls.ask (.infer s' part) :=
  framed.infer (agree.mono fun _ used => .operand inside used.2)

theorem unaryType_congr {op : UnaryOp} {e : Expr} (agree : s.Agree ((Expr.unary op e).Uses ·) s') :
    unaryType calls s op e = unaryType calls s' op e := by
  unfold unaryType
  rw [operand_congr framed agree List.mem_cons_self]

theorem binaryType_congr {op : BinaryOp} {left right : Expr}
    (agree : s.Agree ((Expr.binary op left right).Uses ·) s') :
    binaryType calls s op left right = binaryType calls s' op left right := by
  have first := operand_congr framed agree List.mem_cons_self
  have second := operand_congr framed agree (List.mem_cons_of_mem _ List.mem_cons_self)
  unfold binaryType inferWidened
  rw [first, second]

theorem arrayType_congr {items : List (Bool × Expr)}
    (agree : s.Agree ((Expr.array items).Uses ·) s') :
    arrayType calls s items = arrayType calls s' items := by
  unfold arrayType
  congr 1
  refine mapM_congr fun item listed => ?_
  have same := operand_congr framed agree (List.mem_map_of_mem listed)
  obtain ⟨isSpread, e⟩ := item
  dsimp only at same ⊢
  rw [same]

theorem addProperty_congr {shape : Shape} {property : ObjectProperty}
    (agree : s.Agree (property.Uses ·) s') :
    addProperty calls s shape property = addProperty calls s' shape property := by
  cases property with
  | spread of =>
      dsimp only [addProperty]
      rw [framed.infer (agree.mono fun x used => .spread used.2)]
  | shorthand name =>
      dsimp only [addProperty]
      rw [identifierType_congr (agree.mono fun x same => same ▸ .shorthand)]
  | keyed name value =>
      dsimp only [addProperty]
      rw [inferWidened_congr framed (agree.mono fun x used => .keyed used.2)]
  | assign name value =>
      dsimp only [addProperty]
      rw [inferWidened_congr framed (agree.mono fun x used => .assign used.2)]
  | getter name type body =>
      dsimp only [addProperty]
      rw [agree.types]
      split
      · rfl
      · rw [blockReturn_congr framed (agree.mono fun x used => .getter used.2)]
      · rfl
  | setter => rfl
  | method name f =>
      dsimp only [addProperty]
      rw [functionSignature_congr framed (agree.mono fun x used => .method used.2)]

theorem objectType_congr {properties : List ObjectProperty}
    (agree : s.Agree ((Expr.object properties).Uses ·) s') :
    objectType calls s properties = objectType calls s' properties := by
  unfold objectType
  congr 1
  exact foldlM_congr fun property listed shape =>
    addProperty_congr framed (agree.mono fun x used => .object listed used)

omit framed in
theorem computedType_congr {object : TypeId} {index : Expr}
    (same : calls.ask (.infer s index) = calls.ask (.infer s' index)) :
    computedType calls s object index = computedType calls s' object index := by
  unfold computedType inferWidened
  rw [same]

section

variable {typeArgs : Option (List TypeExpr)} {args : List Expr} (types : s.types = s'.types)
  (same : ∀ e ∈ args, calls.ask (.infer s e) = calls.ask (.infer s' e))

omit framed

include types same

theorem typeArgsFor_congr {signature : Signature} :
    typeArgsFor calls s signature typeArgs args = typeArgsFor calls s' signature typeArgs args := by
  unfold typeArgsFor
  rw [types]
  cases typeArgs with
  | some => rfl
  | none =>
      refine foldlM_congr fun pair listed map => ?_
      obtain ⟨param, e⟩ := pair
      dsimp only
      rw [same e (List.of_mem_zip listed).2]

theorem applyFirst_congr {signatures : List Signature} :
    applyFirst calls s signatures typeArgs args = applyFirst calls s' signatures typeArgs args := by
  cases signatures with
  | nil => rfl
  | cons signature rest =>
      dsimp only [applyFirst, applySignature]
      rw [typeArgsFor_congr types same]

end

theorem infer_congr {e : Expr} (agree : s.Agree (e.Uses ·) s') :
    infer calls s e = infer calls s' e := by
  cases e with
  | ident name => exact identifierType_congr (agree.mono fun x same => same ▸ .ident)
  | null | boolean | number | bigint | string | regex | element | update | other => rfl
  | template text => cases text <;> rfl
  | this | cast =>
      dsimp only [infer]
      rw [agree.types]
  | array => exact arrayType_congr framed agree
  | object => exact objectType_congr framed agree
  | function f =>
      dsimp only [infer]
      rw [functionSignature_congr framed (agree.mono fun x used => .function used.2)]
  | paren | wrapped | instantiation | assign | sequence =>
      exact operand_congr framed agree List.mem_cons_self
  | unary => exact unaryType_congr framed agree
  | binary => exact binaryType_congr framed agree
  | await of | member of | privateMember of =>
      dsimp only [infer]
      rw [operand_congr framed agree List.mem_cons_self]
  | conditional whenTrue whenFalse =>
      dsimp only [infer]
      rw [operand_congr framed agree List.mem_cons_self,
        operand_congr framed agree (List.mem_cons_of_mem _ List.mem_cons_self)]
  | computed object index =>
      have second := operand_congr framed agree (List.mem_cons_of_mem _ List.mem_cons_self)
      dsimp only [infer]
      rw [operand_congr framed agree List.mem_cons_self]
      exact bind_congr fun t => computedType_congr second
  | call callee _ args | new callee _ args =>
      have rest : ∀ e ∈ args, calls.ask (.infer s e) = calls.ask (.infer s' e) :=
        fun e listed => operand_congr framed agree (List.mem_cons_of_mem _ listed)
      dsimp only [infer]
      rw [operand_congr framed agree List.mem_cons_self]
      exact bind_congr fun t => bind_congr fun shape => applyFirst_congr agree.types rest

/-- What the questions below depend on, those that ask them depend on. -/
theorem Framed.succ {calls' : Calls}
    (worked : ∀ {α : Type} (q : Query α), calls'.ask q = step calls q) :
    Framed True live calls' where
  live_of_deep _ := trivial
  infer agree := by
    rw [worked, worked]
    exact infer_congr framed (agree.mono fun _ used => ⟨trivial, used⟩)
  patternType agree := by
    rw [worked, worked]
    exact patternType_congr framed (agree.mono fun _ used => ⟨trivial, used⟩)
  bindPattern agree := by
    rw [worked, worked]
    exact (twin_bindPattern framed agree).mono fun _ _ agree =>
      agree.mono fun _ => Or.imp_right And.right
  returns used agree := by
    rw [worked, worked]
    exact twin_returns framed used agree

end

/-- Questions depend on the names that are used, however deep they nest. -/
theorem framed_callsWithin (n : Nat) : Framed (0 < n) (1 < n) (callsWithin n) := by
  induction n with
  | zero =>
      exact {
        live_of_deep := nofun
        infer := fun _ => rfl
        patternType := fun _ => rfl
        bindPattern := fun agree => .after fun _ => twin_pure (agree.noneMore nofun)
        returns := fun _ agree =>
          .after fun _ => twin_pure ⟨agree.scope.noneMore nofun, agree.types⟩ }
  | succ n ih =>
      have next := ih.succ (ask_callsWithin n)
      simpa using next

end Checker

end ApiDocs
