import ApiDocs.Proofs.Alias.Settled

set_option autoImplicit false

/-!
Annotations of which an operator is written right before a type parameter, and nowhere else. Read for
type parameters they come to operators that wait, and read for concrete types to what these operators
come to. What they come to is described by one relation, which leaves open what becomes of an operator.
-/

namespace ApiDocs

open Syntax

/-! ### Annotations -/

/-- The type of an annotation for which there is a type in all states. -/
def baseType? : TypeExpr → Option TypeId
  | .intrinsic i => some (Arena.intrinsicId i)
  | .boolean => some Arena.booleanId
  | _ => none

/-- The key of the type of a literal. -/
def literalKey? : TypeExpr → Option InternKey
  | .booleanLiteral value => some (.boolean value)
  | .numberLiteral value => some (.number value.text)
  | .stringLiteral value => some (.string value)
  | _ => none

theorem literalKey?_of_base {e : TypeExpr} {t : TypeId} (is : baseType? e = some t) :
    literalKey? e = none := by
  cases e with
  | intrinsic | boolean => rfl
  | _ => cases is

/-- Keywords and literals. -/
def isClosed (e : TypeExpr) : Bool := (baseType? e).isSome || (literalKey? e).isSome

/-- Keywords and literals that are members of every union that they are written in, unless another
member absorbs them. -/
def isFirm (e : TypeExpr) : Bool :=
  match e with
  | .intrinsic i => !([.any, .unknown, .never, .undefined, .null].contains i)
  | e => isClosed e

theorem isClosed_of_isFirm {e : TypeExpr} (firm : isFirm e = true) : isClosed e = true := by
  cases e with
  | intrinsic => rfl
  | _ => exact firm

/-- What has to be made for the types of its names, and is no union. -/
def isOpen (e : TypeExpr) : Bool :=
  match e with
  | .union _ => false
  | e => !isClosed e

/-- An annotation that is a name alone. -/
def nameExpr (name : String) : TypeExpr := .reference (.ident name) []

/-- Keywords, literals and unions of them, the given type parameters, and their keys. -/
inductive KeyExpr (names : List String) : TypeExpr → Prop where
  | base {e : TypeExpr} {t : TypeId} (is : baseType? e = some t) : KeyExpr names e
  | literal {e : TypeExpr} {k : InternKey} (is : literalKey? e = some k) : KeyExpr names e
  | union {es : List TypeExpr} (closed : ∀ e ∈ es, isClosed e = true) : KeyExpr names (.union es)
  | param {name : String} (listed : name ∈ names) : KeyExpr names (nameExpr name)
  | keyOf {name : String} (listed : name ∈ names) : KeyExpr names (.keyOf (nameExpr name))

/-- These, accesses to type parameters by them, arrays of such if there are arrays, and unions of one
such and keywords and literals that are always members of it, at most `d` deep. -/
inductive DirectExpr (names : List String) (array? : Option SymbolId) : Nat → TypeExpr → Prop where
  | key {d : Nat} {e : TypeExpr} (key : KeyExpr names e) : DirectExpr names array? d e
  | indexed {d : Nat} {name : String} {index : TypeExpr} (listed : name ∈ names)
      (key : KeyExpr names index) : DirectExpr names array? d (.indexed (nameExpr name) index)
  | array {d : Nat} {item : TypeExpr} {s : SymbolId} (global : array? = some s)
      (direct : DirectExpr names array? d item) : DirectExpr names array? (d + 1) (.array item)
  | union {d : Nat} {before after : List TypeExpr} {part : TypeExpr}
      (direct : DirectExpr names array? d part) (open_ : isOpen part = true)
      (firm : ∀ e ∈ before ++ after, isFirm e = true) (others : before ++ after ≠ []) :
      DirectExpr names array? (d + 1) (.union (before ++ part :: after))

/-! ### What they come to -/

namespace Checker

/-- What becomes of an operator in a state. -/
abbrev Operation := Checker → TypeData → TypeId → Prop

/-- What became of an operator stays so. -/
def Lasts (n : Nat) (op : Operation) : Prop :=
  ∀ c c' data t, Since n c c' → op c data t → op c' data t

/-- In the state `c`, `t` is what an annotation comes to, if `env` has the types of its names. -/
inductive Stands (op : Operation) (c : Checker) (env : String → Option TypeId) :
    TypeExpr → TypeId → Prop where
  | base {e : TypeExpr} {t : TypeId} (is : baseType? e = some t) : Stands op c env e t
  | literal {e : TypeExpr} {k : InternKey} {t : TypeId} (is : literalKey? e = some k)
      (found : c.arena.interned[k]? = some t) : Stands op c env e t
  | name {name : String} {t : TypeId} (is : env name = some t) : Stands op c env (nameExpr name) t
  | keyOf {name : String} {u t : TypeId} (is : env name = some u) (made : op c (.keyOf u) t) :
      Stands op c env (.keyOf (nameExpr name)) t
  | indexed {name : String} {index : TypeExpr} {u v t : TypeId} (is : env name = some u)
      (key : Stands op c env index v) (made : op c (.indexedAccess u v) t) :
      Stands op c env (.indexed (nameExpr name) index) t
  | array {item : TypeExpr} {s : SymbolId} {u t : TypeId}
      (global : c.bindings.global.get? .type "Array" = some s) (inner : Stands op c env item u)
      (found : c.arena.interned[InternKey.reference s [u]]? = some t) : Stands op c env (.array item) t
  | union {es : List TypeExpr} {ids : List TypeId} {t : TypeId} (length : es.length = ids.length)
      (parts : ∀ e u, (e, u) ∈ es.zip ids → Stands op c env e u) (joined : c.arena.Joined ids t) :
      Stands op c env (.union es) t

/-- An operator over type parameters is there as it was written. -/
structure Waits (c : Checker) (data : TypeData) (t : TypeId) : Prop where
  operator : data.isOperator = true
  info : c.arena.info t = ⟨data, none⟩

/-- An operator over concrete types that are there before `n` comes to `t` whenever it is made. -/
structure Comes (n : Nat) (p : Program) (c : Checker) (data : TypeData) (t : TypeId) : Prop where
  inside : t.index < c.arena.size
  again : ∀ k, Check.Ends n p c (Check.makeNew (callsTo (k + 1 + 1 + 1)) data) fun r _ => r = t
  keys : ∀ u, data = .keyOf u → c.Concrete t

namespace Stands

variable {op op' : Operation} {c c' : Checker} {env : String → Option TypeId} {e : TypeExpr} {t : TypeId}
  {n : Nat} {p : Program}

theorem mono (stands : Stands op c env e t) (global : c'.bindings.global = c.bindings.global)
    (interned : ∀ (k : InternKey) (t : TypeId),
      c.arena.interned[k]? = some t → c'.arena.interned[k]? = some t)
    (unions : ∀ ids t, c.arena.Joined ids t → c'.arena.Joined ids t)
    (operators : ∀ data t, op c data t → op' c' data t) : Stands op' c' env e t := by
  induction stands with
  | base is => exact .base is
  | literal is found => exact .literal is (interned _ _ found)
  | name is => exact .name is
  | keyOf is made => exact .keyOf is (operators _ _ made)
  | indexed is _ made key => exact .indexed is key (operators _ _ made)
  | array there _ found inner => exact .array (global ▸ there) inner (interned _ _ found)
  | union length _ joined parts => exact .union length parts (unions _ _ joined)

/-- The parts of a union in their order. -/
theorem union_of_parts {es : List TypeExpr} {ids : List TypeId} {t : TypeId}
    (parts : List.Forall₂ (Stands op c env) es ids) (joined : c.arena.Joined ids t) :
    Stands op c env (.union es) t := by
  obtain ⟨length, each⟩ := List.forall₂_iff_zip.mp parts
  exact .union length (fun _ _ listed => each listed) joined

theorem later (stands : Stands op c env e t) (lasts : Lasts n op) (since : Since n c c') :
    Stands op c' env e t :=
  stands.mono since.bindings.global since.interned
    (fun _ _ joined => joined.mono since.alike since.interned) fun _ _ => lasts _ _ _ _ since

end Stands

/-- Each element stands beside one of the other list. -/
theorem beside {α β : Type} {R : α → β → Prop} {xs : List α} {ys : List β}
    (all : List.Forall₂ R xs ys) :
    (∀ x ∈ xs, ∃ y ∈ ys, R x y) ∧ ∀ y ∈ ys, ∃ x ∈ xs, R x y := by
  induction all with
  | nil => exact ⟨nofun, nofun⟩
  | cons first _ ih => simp_all

/-- Lists are the same if the same is listed beside each element of a third one. -/
theorem eq_of_zip {α β : Type} {list : List α} {xs ys : List β} (first : list.length = xs.length)
    (second : list.length = ys.length)
    (same : ∀ a x y, (a, x) ∈ list.zip xs → (a, y) ∈ list.zip ys → x = y) : xs = ys := by
  induction list generalizing xs ys with
  | nil => rw [List.eq_nil_of_length_eq_zero first.symm, List.eq_nil_of_length_eq_zero second.symm]
  | cons a rest ih =>
      obtain _ | ⟨x, xs⟩ := xs
      · cases first
      obtain _ | ⟨y, ys⟩ := ys
      · cases second
      have head : x = y := same a x y List.mem_cons_self List.mem_cons_self
      have tail := ih (Nat.succ.inj first) (Nat.succ.inj second) fun b u v here there =>
        same b u v (List.mem_cons_of_mem _ here) (List.mem_cons_of_mem _ there)
      rw [head, tail]

theorem baseType?_lt {e : TypeExpr} {t : TypeId} (is : baseType? e = some t) : t.index < 14 := by
  cases e with
  | intrinsic i =>
      cases is
      cases i <;> decide
  | boolean =>
      cases is
      decide
  | _ => cases is

namespace Stands

variable {op : Operation} {c c' : Checker} {env : String → Option TypeId} {e : TypeExpr} {t : TypeId}
  {n : Nat} {p : Program}

/-- What an annotation comes to is there, if the types of its names are. -/
theorem inside (ready : Ready n p c) (stands : Stands op c env e t)
    (names : ∀ name t, env name = some t → t.index < c.arena.size)
    (operators : ∀ data t, op c data t → t.index < c.arena.size) : t.index < c.arena.size := by
  cases stands with
  | base is => exact Nat.lt_of_lt_of_le (baseType?_lt is) ready.sound.base
  | literal _ found => exact ready.regular.keyed.inside found
  | name is => exact names _ _ is
  | keyOf _ made => exact operators _ _ made
  | indexed _ _ made => exact operators _ _ made
  | array _ _ found => exact ready.regular.keyed.inside found
  | union _ _ joined => exact index_lt_of_joined ready joined

/-- In the same state, an annotation read for concrete types comes to one type only. -/
theorem unique (ready : Ready n p c) {t' : TypeId} (first : Stands (Comes n p) c env e t)
    (second : Stands (Comes n p) c env e t') : t = t' := by
  have same : ∀ {data r r'}, Comes n p c data r → Comes n p c data r' → r = r' := by
    intro data r r' first second
    have one := (first.again 0 c (.refl n c) ready).2
    exact one.symm.trans (second.again 0 c (.refl n c) ready).2
  induction first generalizing t' with
  | base is =>
      cases second with
      | base is' => exact Option.some.inj (is.symm.trans is')
      | literal is' => rw [literalKey?_of_base is] at is'; cases is'
      | name | keyOf | indexed | array | union => cases is
  | literal is found =>
      cases second with
      | base is' => rw [literalKey?_of_base is'] at is; cases is
      | literal is' found' =>
          cases is.symm.trans is'
          exact Option.some.inj (found.symm.trans found')
      | name | keyOf | indexed | array | union => cases is
  | name is =>
      cases second with
      | base is' | literal is' => cases is'
      | name is' => exact Option.some.inj (is.symm.trans is')
  | keyOf is made =>
      cases second with
      | base is' | literal is' => cases is'
      | keyOf is' made' =>
          cases is.symm.trans is'
          exact same made made'
  | indexed is _ made key =>
      cases second with
      | base is' | literal is' => cases is'
      | indexed is' key' made' =>
          cases is.symm.trans is'
          cases key key'
          exact same made made'
  | array there _ found inner =>
      cases second with
      | base is' | literal is' => cases is'
      | array there' inner' found' =>
          cases there.symm.trans there'
          cases inner inner'
          exact Option.some.inj (found.symm.trans found')
  | union length _ joined parts =>
      cases second with
      | base is' | literal is' => cases is'
      | union length' parts' joined' =>
          cases eq_of_zip length length' fun e u u' here there => parts e u here (parts' e u' there)
          exact congrArg Prod.fst (joined.made.symm.trans joined'.made)

end Stands

/-! ### Reading annotations -/

open Check

variable {n : Nat} {p : Program} {c c' : Checker}

/-- The types that names are bound to in `env`. An operator over them that is made from `c` on becomes
what `op` says. -/
structure Binds (n : Nat) (p : Program) (op : Operation) (c : Checker) (names : List String)
    (env : String → Option TypeId) : Prop where
  bound : ∀ name ∈ names, ∃ t, env name = some t
  inside : ∀ name t, env name = some t → t.index < c.arena.size
  there : ∀ c' data t, Ready n p c' → op c' data t → t.index < c'.arena.size
  lasts : Lasts n op
  keyOf : ∀ name u, env name = some u → ∀ c', Since n c c' → Ready n p c' → ∀ k,
    Ends n p c' (makeNew (callsTo (k + 1 + 1 + 1)) (.keyOf u)) fun t c'' => op c'' (.keyOf u) t
  access : ∀ name u, env name = some u → ∀ c', Since n c c' → Ready n p c' → ∀ index v,
    KeyExpr names index → Stands op c' env index v → ∀ k,
    Ends n p c' (makeNew (callsTo (k + 1 + 1 + 1)) (.indexedAccess u v)) fun t c'' =>
      op c'' (.indexedAccess u v) t

section

variable {op : Operation} {names : List String} {scope : TypeScope} {e : TypeExpr} {d k : Nat}

theorem ask_lower (k : Nat) : (callsTo (k + 1)).ask (.lower scope e) = lower (callsTo k) scope e :=
  ask_callsTo k _

theorem lower_base (calls : Calls) {t : TypeId} (is : baseType? e = some t) :
    lower calls scope e = pure t := by
  cases e with
  | intrinsic | boolean =>
      cases is
      rfl
  | _ => cases is

theorem ends_lower_literal (calls : Calls) {key : InternKey} (is : literalKey? e = some key) :
    Ends n p c (lower calls scope e) fun t c' => c'.arena.interned[key]? = some t := by
  cases e with
  | booleanLiteral value =>
      cases is
      exact ends_interned (m := Check.booleanLiteral value) _ fun _ _ => rfl
  | numberLiteral value =>
      cases is
      exact ends_interned (m := Check.numberLiteral value.text) _ fun _ _ => rfl
  | stringLiteral value =>
      cases is
      exact ends_stringLiteral value
  | _ => cases is

theorem lower_name (calls : Calls) {name : String} {t : TypeId} (is : scope.param? name = some t) :
    lower calls scope (nameExpr name) = pure t := by
  show lowerReference calls scope (.ident name) [] = pure t
  unfold lowerReference
  simp [is]

theorem Binds.later {env : String → Option TypeId} (binds : Binds n p op c names env)
    (since : Since n c c') : Binds n p op c' names env :=
  { binds with
    inside := fun name t is => since.inside (binds.inside name t is)
    keyOf := fun name u is c'' after => binds.keyOf name u is c'' (since.trans after)
    access := fun name u is c'' after => binds.access name u is c'' (since.trans after) }

/-- A keyword or a literal is read to the same type in all states. -/
theorem ends_lower_closed (calls : Calls) (closed : isClosed e = true) :
    Ends n p c (lower calls scope e) fun t c' => Stands op c' scope.param? e t := by
  rcases base : baseType? e with _ | t
  · rcases literal : literalKey? e with _ | key
    · rw [isClosed, base, literal] at closed
      cases closed
    · exact (ends_lower_literal calls literal).weaken fun _ _ _ found => .literal literal found
  · rw [lower_base calls base]
    exact .pure fun _ _ => .base base

/-- A union of what its members are read to. -/
theorem ends_lower_union (binds : Binds n p op c names scope.param?) {es : List TypeExpr}
    (each : ∀ e ∈ es, ∀ c', Since n c c' → Ready n p c' → Ends n p c' ((callsTo k).ask (.lower scope e))
      fun t c'' => Stands op c'' scope.param? e t) :
    Ends n p c (lower (callsTo k) scope (.union es)) fun t c' =>
      Stands op c' scope.param? (.union es) t := by
  have opened : lower (callsTo k) scope (.union es) =
      (es.mapM fun e => (callsTo k).ask (.lower scope e)) >>= Check.union := rfl
  rw [opened]
  refine .bind (.mapM each fun e t c₁ c₂ since stands => stands.later binds.lasts since)
    fun ids c₁ since₁ ready₁ parts => ?_
  have inside : ∀ u ∈ ids, u.index < c₁.arena.size := by
    intro u listed
    obtain ⟨e, -, stands⟩ := (beside parts).2 u listed
    exact stands.inside ready₁ (binds.later since₁).inside fun _ _ => binds.there c₁ _ _ ready₁
  exact (ends_union inside).weaken fun t c₂ since₂ joined =>
    .union_of_parts (parts.imp fun _ _ stands => stands.later binds.lasts since₂) joined

theorem ends_lower_key (binds : Binds n p op c names scope.param?) (ready : Ready n p c)
    (key : KeyExpr names e) (k : Nat) :
    Ends n p c (lower (callsTo (k + 1 + 1 + 1)) scope e) fun t c' => Stands op c' scope.param? e t := by
  cases key with
  | base is =>
      rw [lower_base _ is]
      exact .pure fun _ _ => .base is
  | literal is => exact (ends_lower_literal _ is).weaken fun _ _ _ found => .literal is found
  | union closed =>
      refine ends_lower_union binds fun e listed c' _ _ => ?_
      rw [ask_lower]
      exact ends_lower_closed _ (closed e listed)
  | @param name listed =>
      obtain ⟨t, is⟩ := binds.bound name listed
      rw [lower_name _ is]
      exact .pure fun _ _ => .name is
  | @keyOf name listed =>
      obtain ⟨u, is⟩ := binds.bound name listed
      have opened (calls : Calls) : lower calls scope (.keyOf (nameExpr name)) =
          calls.ask (.lower scope (nameExpr name)) >>= fun u => makeNew calls (.keyOf u) := rfl
      rw [opened, ask_lower, lower_name _ is, pure_bind]
      exact (binds.keyOf name u is c (.refl n c) ready k).weaken fun _ _ _ made => .keyOf is made

/-- An array of a type, where there are arrays. -/
theorem ends_arrayOf {s : SymbolId} (ready : Ready n p c)
    (global : c.bindings.global.get? .type "Array" = some s) {u : TypeId} (inside : u.index < c.arena.size) :
    Ends n p c (arrayOf u) fun t c' => c'.arena.interned[InternKey.reference s [u]]? = some t := by
  have := ready.started
  have : Known c u := known_type_iff.mpr inside
  refine ends_interned (.reference s [u]) fun c' since => ?_
  have there : c'.bindings.global.get? .type "Array" = some s := since.bindings.global ▸ global
  have found : (Check.global? .type "Array").outcome p c' = (some s, c') := congrArg (·, c') there
  exact bind_of_outcome found _

/-- What an annotation comes to where an operator is written before a name only. -/
theorem ends_lower (binds : Binds n p op c names scope.param?) (ready : Ready n p c)
    {array? : Option SymbolId} (arrays : c.bindings.global.get? .type "Array" = array?)
    (direct : DirectExpr names array? d e) (k : Nat) :
    Ends n p c ((callsTo (k + 5 + d)).ask (.lower scope e)) fun t c' =>
      Stands op c' scope.param? e t := by
  induction direct generalizing c with
  | @key d e key =>
      rw [show k + 5 + d = k + d + 1 + 1 + 1 + 1 + 1 by omega, ask_lower]
      exact ends_lower_key binds ready key (k + d + 1)
  | @indexed d name index listed key =>
      obtain ⟨u, is⟩ := binds.bound name listed
      rw [show k + 5 + d = k + d + 1 + 1 + 1 + 1 + 1 by omega, ask_lower]
      have opened (calls : Calls) : lower calls scope (.indexed (nameExpr name) index) = (do
          let u ← calls.ask (.lower scope (nameExpr name))
          let v ← calls.ask (.lower scope index)
          makeNew calls (.indexedAccess u v)) := rfl
      rw [opened, ask_lower, lower_name _ is, pure_bind, ask_lower]
      refine .bind (ends_lower_key binds ready key (k + d)) fun v c₁ since₁ ready₁ stands => ?_
      refine (binds.access name u is c₁ since₁ ready₁ index v key stands (k + d + 1)).weaken
        fun t c₂ since₂ made => ?_
      exact .indexed is (stands.later binds.lasts since₂) made
  | @array d item s global direct ih =>
      have opened (calls : Calls) : lower calls scope (.array item) =
          calls.ask (.lower scope item) >>= arrayOf := rfl
      rw [← Nat.add_assoc, ask_lower, opened]
      refine .bind (ih binds ready arrays) fun u c₁ since₁ ready₁ stands => ?_
      have there : c₁.bindings.global.get? .type "Array" = some s :=
        since₁.bindings.global ▸ arrays.trans global
      have inside := stands.inside ready₁ (binds.later since₁).inside fun _ _ => binds.there c₁ _ _ ready₁
      refine (ends_arrayOf ready₁ there inside).weaken fun t c₂ since₂ found => ?_
      exact .array (since₂.bindings.global ▸ there)
        (stands.later binds.lasts since₂) found
  | @union d before after part direct open_ firm others ih =>
      rw [← Nat.add_assoc, ask_lower]
      refine ends_lower_union binds fun e listed c₁ since₁ ready₁ => ?_
      have which : e = part ∨ e ∈ before ++ after := by
        simp only [List.mem_append, List.mem_cons] at listed ⊢
        tauto
      rcases which with rfl | beside
      · exact ih (binds.later since₁) ready₁ (since₁.bindings.global ▸ arrays)
      · rw [show k + 5 + d = k + 4 + d + 1 by omega, ask_lower]
        exact ends_lower_closed _ (isClosed_of_isFirm (firm e beside))

end

/-! ### Operators over type parameters -/

section

variable {u : TypeId} {x : TypeParameter}

theorem ends_evaluateKeyOf_waiting (ready : Ready n p c) (isParam : c.arena.info u = ⟨.typeParameter x, none⟩)
    (k : Nat) (whole : TypeId) :
    Ends n p c (evaluateKeyOf (callsTo (k + 1)) whole u) fun r _ => r = whole := by
  have data : c.arena.data u = .typeParameter x := congrArg TypeInfo.data isParam
  have inside := inside_of_info isParam nofun
  unfold evaluateKeyOf
  refine .bind (ends_evaluate_plain k ready inside (by rw [data]; rfl)) fun _ c₁ since₁ ready₁ same => ?_
  subst same
  refine .bind (ends_isWaiting (since₁.inside inside)) fun _ c₂ _ _ waits => ?_
  rw [since₁.data inside, data] at waits
  rw [waits]
  exact .pure fun _ _ => rfl

/-- An access to a type parameter waits, whatever the key is. -/
theorem ends_indexedAccess_param (ready : Ready n p c) (isParam : c.arena.info u = ⟨.typeParameter x, none⟩)
    {v : TypeId} (there : v.index < c.arena.size) (k : Nat) (whole : TypeId) :
    Ends n p c (indexedAccess (callsTo (k + 1)) whole u v) fun r _ => r = whole := by
  have data : c.arena.data u = .typeParameter x := congrArg TypeInfo.data isParam
  have inside := inside_of_info isParam nofun
  unfold indexedAccess
  refine .bind (ends_evaluate_plain k ready inside (by rw [data]; rfl)) fun _ c₁ since₁ ready₁ same => ?_
  subst same
  have := ready₁.started
  have : Known c₁ v := known_type_iff.mpr (since₁.inside there)
  have value : Ends n p c₁ ((callsTo (k + 1)).ask (.evaluate v)) fun w c' => Known c' w :=
    .of_safe inferInstance fun _ _ _ known => known
  refine .bind value fun w c₂ since₂ ready₂ _ => ?_
  have since := since₁.trans since₂
  refine .bind (ends_isWaiting (since.inside inside)) fun _ c₃ since₃ _ waits => ?_
  rw [since.data inside, data] at waits
  rw [waits]
  have known : Known c₃ w := Known.later ‹Known c₂ w› since₃.before
  refine .bind (ends_isWaiting (known_type_iff.mp known)) fun other c₄ _ _ _ => ?_
  exact .pure fun _ _ => rfl

end

section

variable {names : List String} {env : String → Option TypeId}

theorem Waits.some {data : TypeData} {t : TypeId} (waits : Waits c data t) : data ≠ .intrinsic .any := by
  rintro rfl
  cases waits.operator

theorem Waits.inside {data : TypeData} {t : TypeId} (waits : Waits c data t) :
    t.index < c.arena.size := inside_of_info waits.info waits.some

theorem Waits.later {data : TypeData} {t : TypeId} (waits : Waits c data t) (since : Since n c c') :
    Waits c' data t := ⟨waits.operator, since.info_eq waits.info waits.some⟩

theorem lasts_waits (n : Nat) : Lasts n Waits := fun _ _ _ _ since waits => waits.later since

/-- Operators over type parameters wait. -/
theorem binds_params (bound : ∀ name ∈ names, ∃ t, env name = some t)
    (params : ∀ name t, env name = some t → ∃ x, c.arena.info t = ⟨.typeParameter x, none⟩) :
    Binds n p Waits c names env where
  bound := bound
  inside name t is := by
    obtain ⟨x, isParam⟩ := params name t is
    exact inside_of_info isParam nofun
  there _ _ _ _ waits := waits.inside
  lasts := lasts_waits n
  keyOf name u is c' since ready k := by
    obtain ⟨x, isParam⟩ := params name u is
    have here := since.info_eq isParam nofun
    have : Known c' u := known_type_iff.mpr (inside_of_info here nofun)
    have waiting : Ends n p c' (makeNew (callsTo (k + 1 + 1 + 1)) (.keyOf u)) _ :=
      ends_makeNew_waiting (k + 1 + 1) ready rfl fun t c₁ since₁ ready₁ =>
        ends_evaluateKeyOf_waiting ready₁ (since₁.info_eq here nofun) (k + 1) t
    exact waiting.weaken fun _ _ _ info => ⟨rfl, info⟩
  access name u is c' since ready index v key stands k := by
    obtain ⟨x, isParam⟩ := params name u is
    have here := since.info_eq isParam nofun
    have there : v.index < c'.arena.size := by
      refine stands.inside ready (fun name t is => ?_) fun _ _ waits => waits.inside
      obtain ⟨y, isParam⟩ := params name t is
      exact since.inside (inside_of_info isParam nofun)
    have : Known c' u := known_type_iff.mpr (inside_of_info here nofun)
    have : Known c' v := known_type_iff.mpr there
    have waiting : Ends n p c' (makeNew (callsTo (k + 1 + 1 + 1)) (.indexedAccess u v)) _ :=
      ends_makeNew_waiting (k + 1 + 1) ready rfl fun t c₁ since₁ ready₁ =>
        ends_indexedAccess_param ready₁ (since₁.info_eq here nofun) (since₁.inside there) (k + 1) t
    exact waiting.weaken fun _ _ _ info => ⟨rfl, info⟩

end

/-! ### Operators over concrete types -/

section

variable {names : List String} {env : String → Option TypeId}

theorem Comes.later {data : TypeData} {t : TypeId} (comes : Comes n p c data t)
    (since : Since n c c') : Comes n p c' data t where
  inside := since.inside comes.inside
  again k := (comes.again k).later since
  keys u same := (comes.keys u same).later since

theorem lasts_comes (n : Nat) (p : Program) : Lasts n (Comes n p) :=
  fun _ _ _ _ since comes => comes.later since

/-- The types that all tables start with are concrete. -/
theorem concrete_base (ready : Ready n p c) {t : TypeId} (small : t.index < 14) : c.Concrete t := by
  have initial : ∀ i : Fin 14, (Arena.initial.alternatives ⟨i⟩).all (fun m =>
      decide (m.index < 14) && (Arena.initial.data m).isSingle) = true := by
    intro i
    fin_cases i <;> cbv
  have data : ∀ u : TypeId, u.index < 14 → c.arena.data u = Arena.initial.data u := fun u small =>
    Arena.data_eq (ready.start u small)
  refine ⟨Nat.lt_of_lt_of_le small ready.sound.base, fun m listed => ?_⟩
  rw [Arena.alternatives, data t small] at listed
  have both := List.all_eq_true.mp (initial ⟨t.index, small⟩) m listed
  rw [Bool.and_eq_true, decide_eq_true_eq] at both
  rw [data m both.1]
  exact ⟨Nat.lt_of_lt_of_le both.1 ready.sound.base, both.2⟩

theorem concrete_literal (ready : Ready n p c) {e : TypeExpr} {k : InternKey} {t : TypeId}
    (is : literalKey? e = some k) (found : c.arena.interned[k]? = some t) : c.Concrete t := by
  have data := ready.regular.keyed k t found
  refine .of_single (ready.regular.keyed.inside found) ?_
  rw [data]
  cases e with
  | booleanLiteral | numberLiteral | stringLiteral =>
      cases is
      rfl
  | _ => cases is

/-- A keyword or a literal comes to a concrete type. -/
theorem concrete_closed (ready : Ready n p c) {op : Operation} {e : TypeExpr} {t : TypeId}
    (closed : isClosed e = true) (stands : Stands op c env e t) : c.Concrete t := by
  cases stands with
  | base is => exact concrete_base ready (baseType?_lt is)
  | literal is found => exact concrete_literal ready is found
  | name | keyOf | indexed | array | union => cases closed

/-- What can be a key comes to a concrete type. -/
theorem Stands.concrete (ready : Ready n p c) {e : TypeExpr} {t : TypeId} (key : KeyExpr names e)
    (stands : Stands (Comes n p) c env e t) (args : ∀ name t, env name = some t → c.Concrete t) :
    c.Concrete t := by
  cases stands with
  | base is => exact concrete_base ready (baseType?_lt is)
  | literal is found => exact concrete_literal ready is found
  | name is => exact args _ _ is
  | keyOf is made => exact made.keys _ rfl
  | union length parts joined =>
      cases key with
      | base is | literal is => cases is
      | union closed =>
          refine concrete_of_joined ready joined fun u listed => ?_
          obtain ⟨e, here, stands⟩ := (beside (List.forall₂_iff_zip.mpr ⟨length, @parts⟩)).2 u listed
          exact concrete_closed ready (closed e here) stands
  | indexed | array =>
      cases key with
      | base is | literal is => cases is

/-- Operators over concrete types come to what they come to whenever they are made. -/
theorem binds_concrete (bound : ∀ name ∈ names, ∃ t, env name = some t)
    (args : ∀ name t, env name = some t → t.index < n ∧ c.Concrete t) :
    Binds n p (Comes n p) c names env where
  bound := bound
  inside name t is := (args name t is).2.inside
  there _ _ _ _ comes := comes.inside
  lasts := lasts_comes n p
  keyOf name u is c' since ready k := by
    obtain ⟨below, concrete⟩ := args name u is
    have here := concrete.later since
    have : Known c' u := known_type_iff.mpr here.inside
    have settled : Settles n p c' (fun k => makeNew (callsTo (k + 1 + 1 + 1)) (.keyOf u))
        fun t c'' => c''.Concrete t := by
      refine settles_makeNew ready rfl (fun _ _ _ since concrete => concrete.later since)
        fun c₁ since₁ ready₁ => ?_
      exact settles_evaluateKeyOf ready₁ below (here.later since₁) (fun i : Nat × TypeId => i.1 + 1) Prod.snd
    exact (settled k).weaken fun t _ _ ⟨concrete, again⟩ => ⟨concrete.inside, again, fun _ _ => concrete⟩
  access name u is c' since ready index v key stands k := by
    obtain ⟨below, concrete⟩ := args name u is
    have first := concrete.later since
    have second := stands.concrete ready key fun name t is => (args name t is).2.later since
    have : Known c' u := known_type_iff.mpr first.inside
    have : Known c' v := known_type_iff.mpr second.inside
    have settled : Settles n p c' (fun k => makeNew (callsTo (k + 1 + 1 + 1)) (.indexedAccess u v))
        fun t c'' => t.index < c''.arena.size := by
      refine settles_makeNew ready rfl (fun _ _ _ since inside => since.inside inside)
        fun c₁ since₁ ready₁ => ?_
      exact settles_indexedAccess ready₁ below (first.later since₁) (second.later since₁)
        (fun i : Nat × TypeId => i.1) Prod.snd
    exact (settled k).weaken fun t _ _ ⟨inside, again⟩ => ⟨inside, again, nofun⟩

end

end Checker

end ApiDocs
