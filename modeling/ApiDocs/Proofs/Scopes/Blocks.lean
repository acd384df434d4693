import ApiDocs.Proofs.Scopes.Agreement

set_option autoImplicit false

/-!
What a block inside a body does to the type that the body returns. The names that the block declares
stay in reach behind it, so that a name of the outer scope can change its type there. Where none of
them is used behind the block, the block might as well keep them to itself: a body returns what it
would return if the scope before the block were in force again behind it.
-/

namespace ApiDocs

open Syntax

theorem ValueScope.Agree.trans {names : String → Prop} {s s' s'' : ValueScope}
    (first : s.Agree names s') (second : s'.Agree names s'') : s.Agree names s'' :=
  ⟨first.types.trans second.types,
    fun x listed => (first.locals x listed).trans (second.locals x listed)⟩

theorem ValueScope.Agree.ofBind (s : ValueScope) (name : String) (t : TypeId) :
    s.Agree (· ≠ name) (s.bind name t) :=
  ⟨rfl, fun x other => by rw [local?_bind, if_neg other]⟩

theorem Returns.Agree.refl {names : String → Prop} (r : Returns) : r.Agree names r := ⟨.refl _, rfl⟩

theorem Returns.Agree.trans {names : String → Prop} {r r' r'' : Returns} (first : r.Agree names r')
    (second : r'.Agree names r'') : r.Agree names r'' :=
  ⟨first.scope.trans second.scope, first.types.trans second.types⟩

namespace Checker

open Check

/-! ### Names that are not bound -/

/-- A loop keeps what every round keeps. -/
theorem always_foldlM {α β : Type} {f : β → α → Check β} {list : List α} {related : β → β → Prop}
    (refl : ∀ b, related b b) (trans : ∀ {a b c}, related a b → related b c → related a c)
    (round : ∀ x ∈ list, ∀ b, Always (f b x) (related b)) (b : β) :
    Always (list.foldlM f b) (related b) := fun p c =>
  foldlM_keeps (fun a _ => related b a) f list
    (fun a c x inside sofar => trans sofar (round x inside a p c)) b c (refl b)

/-- Names that are not bound keep their types, and statements that do not return add no type. -/
structure Confined (calls : Calls) : Prop where
  bindPattern (s : ValueScope) (pattern : Pattern) (t : TypeId) :
    Always (calls.ask (.bindPattern s pattern t)) (s.Agree fun x => ¬ pattern.Binds x)
  returns (r : Returns) {s : Stmt} (silent : ¬ s.HasReturn) :
    Always (calls.ask (.returns r s)) (r.Agree fun x => ¬ s.Binds x)

section

variable {calls : Calls} (confined : Confined calls)

include confined

theorem always_bindInside {s : ValueScope} {pattern : Pattern} {t : TypeId} {names : String → Prop}
    (unbound : ∀ x, names x → ¬ pattern.Binds x) :
    Always (calls.ask (.bindPattern s pattern t)) (s.Agree names) :=
  fun p c => (confined.bindPattern s pattern t p c).mono unbound

theorem always_bindProperty {s : ValueScope} {t : TypeId} {property : PatternProperty}
    {names : String → Prop} (unbound : ∀ x, names x → ¬ property.Binds x) :
    Always (bindProperty calls t s property) (s.Agree names) := by
  cases property with
  | shorthand name value =>
      refine .skip fun t => always_pure ((ValueScope.Agree.ofBind s name t).mono ?_)
      rintro x listed rfl
      exact unbound _ listed .shorthand
  | keyed name value =>
      have inside : ∀ t, Always (calls.ask (.bindPattern s value t)) (s.Agree names) :=
        fun t => always_bindInside confined fun x listed bound => unbound x listed (.keyed bound)
      cases name with
      | none => exact inside _
      | some name => exact .skip inside
  | rest of =>
      exact always_bindInside confined fun x listed bound => unbound x listed (.rest bound)

theorem always_bindPattern {s : ValueScope} {t : TypeId} {pattern : Pattern} :
    Always (bindPattern calls s t pattern) (s.Agree fun x => ¬ pattern.Binds x) := by
  cases pattern with
  | ident name =>
      refine always_pure ((ValueScope.Agree.ofBind s name t).mono ?_)
      rintro x unbound rfl
      exact unbound .ident
  | default left => exact always_bindInside confined fun x unbound bound => unbound (.default bound)
  | rest of => exact always_bindInside confined fun x unbound bound => unbound (.rest bound)
  | array items =>
      refine .skip fun data => always_foldlM .refl .trans (fun part listed s => ?_) s
      obtain ⟨item, i⟩ := part
      cases item with
      | none => exact always_pure (.refl s)
      | some pattern =>
          have inside : some pattern ∈ items := (List.mem_zipIdx' listed).2 ▸ List.getElem_mem _
          dsimp only
          split <;> exact .skip fun part =>
            always_bindInside confined fun x unbound bound => unbound (.array inside bound)
  | object properties =>
      refine always_foldlM .refl .trans (fun property listed s => ?_) s
      exact always_bindProperty confined fun x unbound bound => unbound (.object listed bound)

/-- Statements one after the other. -/
theorem always_statements {statements : List Stmt} {r : Returns}
    (silent : ∀ s ∈ statements, ¬ s.HasReturn) :
    Always (statements.foldlM (fun sofar s => calls.ask (.returns sofar s)) r)
      (r.Agree fun x => ∀ s ∈ statements, ¬ s.Binds x) :=
  always_foldlM .refl .trans (fun s listed r p c =>
    (confined.returns r (silent s listed) p c).mono fun _ unbound => unbound s listed) r

theorem always_returns {r : Returns} {s : Stmt} (silent : ¬ s.HasReturn) :
    Always (returns calls r s) (r.Agree fun x => ¬ s.Binds x) := by
  cases s with
  | «return» value => exact absurd .return silent
  | block statements =>
      have inside := always_statements confined (r := r)
        fun s listed found => silent (.block listed found)
      exact fun p c => (inside p c).mono fun x unbound s listed bound =>
        unbound (.block listed bound)
  | variableList isConst declarators =>
      have all : Always (declarators.foldlM (fun scope d => do
          calls.ask (.bindPattern scope d.name (← declaratorType calls scope isConst d))) r.scope)
          (r.scope.Agree fun x => ¬ (Stmt.variableList isConst declarators).Binds x) := by
        refine always_foldlM .refl .trans (fun d listed scope => .skip fun t => ?_) r.scope
        exact always_bindInside confined fun x unbound bound =>
          unbound (.variableList listed bound)
      exact all.bind fun scope agree => always_pure ⟨agree, rfl⟩
  | function name f =>
      refine .skip fun signature => .skip fun t => always_pure ⟨?_, rfl⟩
      refine (ValueScope.Agree.ofBind r.scope name t).mono ?_
      rintro x unbound rfl
      exact unbound .function
  | other => exact always_pure (.refl r)

end

theorem confined_callsWithin (n : Nat) : Confined (callsWithin n) := by
  induction n with
  | zero =>
      exact ⟨fun s _ _ => .skip fun _ => always_pure (.refl s),
        fun r _ _ => .skip fun _ => always_pure (.refl r)⟩
  | succ n ih =>
      constructor
      · intro s pattern t
        rw [ask_callsWithin]
        exact always_bindPattern ih
      · intro r s silent
        rw [ask_callsWithin]
        exact always_returns ih silent

/-! ### Blocks inside a body -/

/-- A place among the statements of a body, at any depth of blocks. -/
inductive Place where
  | here (front back : List Stmt)
  | block (front : List Stmt) (inside : Place) (back : List Stmt)

/-- A body with statements put in their place. -/
def Place.fill (contents : List Stmt) : Place → List Stmt
  | .here front back => front ++ contents ++ back
  | .block front inside back => front ++ .block (inside.fill contents) :: back

/-- What stands behind a place uses a name that is bound before. -/
def Place.UsesBehind (x : String) : Place → Prop
  | .here _ back => Stmt.UsesIn x back
  | .block _ inside back => inside.UsesBehind x ∨ Stmt.UsesIn x back

/-- Statements one after the other. -/
def statements (n : Nat) (list : List Stmt) (r : Returns) : Check Returns :=
  list.foldlM (fun sofar s => (callsWithin n).ask (.returns sofar s)) r

/-- A body in which something else is done at a place. -/
def Place.walk (atPlace : Nat → Returns → Check Returns) : Place → Nat → Returns → Check Returns
  | .here front back, n, r => do statements n back (← atPlace n (← statements n front r))
  | .block front inside back, n, r => do
      let r ← statements n front r
      let r ← match n with
        | 0 =>
            Check.giveUp
            pure r
        | n + 1 => inside.walk atPlace n r
      statements n back r

/-- Reads statements and goes on where they started, with the names and types from before them. -/
def passing (contents : List Stmt) (n : Nat) (r : Returns) : Check Returns := do
  let _ ← statements n contents r
  return r

/-- The type of a body, from what a walk through it finds. -/
def concluded (isAsync isGenerator : Bool) (walk : Check Returns) : Check TypeId := do
  if isGenerator then Check.unresolved "Generator" []
  else
    let found ← walk
    let t ← Check.union found.types
    let isVoid := t = Arena.intrinsicId .undefined || t = Arena.intrinsicId .never
    returned isAsync (if isVoid then Arena.intrinsicId .void else t)

theorem blockReturn_eq (n : Nat) (scope : ValueScope) (list : List Stmt)
    (isAsync isGenerator : Bool) :
    blockReturn (callsWithin n) scope list isAsync isGenerator =
      concluded isAsync isGenerator (statements n list ⟨scope, []⟩) := rfl

theorem statements_append (n : Nat) (first second : List Stmt) (r : Returns) :
    statements n (first ++ second) r = statements n first r >>= statements n second :=
  List.foldlM_append

theorem walk_fill (place : Place) (contents : List Stmt) (n : Nat) (r : Returns) :
    place.walk (fun n => statements n contents) n r = statements n (place.fill contents) r := by
  induction place generalizing n r with
  | here front back =>
      rw [Place.fill, statements_append, statements_append, bind_assoc]
      rfl
  | block front inside back ih =>
      rw [Place.fill, statements_append]
      refine bind_congr fun r => ?_
      cases n with
      | zero => rfl
      | succ n =>
          dsimp only
          rw [ih]
          rfl

/-- Statements that do not return, and none of whose names is used behind them, can as well be
passed. -/
theorem twin_walk {place : Place} {contents : List Stmt} {names : String → Prop}
    (silent : ∀ s ∈ contents, ¬ s.HasReturn)
    (unbound : ∀ x, names x → ∀ s ∈ contents, ¬ s.Binds x)
    (used : ∀ x, place.UsesBehind x → names x) (n : Nat) (r : Returns) :
    Twin (Returns.Agree names) (place.walk (passing contents) n r)
      (place.walk (fun n => statements n contents) n r) := by
  induction place generalizing n r with
  | here front back =>
      refine .after fun r => ?_
      have passed : Twin (Returns.Agree names) (passing contents n r) (statements n contents r) :=
        fun p c => ⟨(always_statements (confined_callsWithin n) silent p c).mono unbound, rfl⟩
      exact passed.bind fun _ _ agree =>
        twin_statements (framed_callsWithin n) (fun x _ behind => used x behind) agree
  | block front inside back ih =>
      refine .after fun r => ?_
      cases n with
      | zero => exact (twin_self _).mono fun _ _ same => same ▸ .refl _
      | succ n =>
          exact (ih (fun x behind => used x (Or.inl behind)) n r).bind fun _ _ agree =>
            twin_statements (framed_callsWithin (n + 1)) (fun x _ after => used x (Or.inr after)) agree

/-- Reading the contents of a place, once the walk has come to it, leaves the checker as it is. -/
def Place.Idle (contents : List Stmt) (p : Program) : Place → Nat → Returns → Checker → Prop
  | .here front _, n, r, c =>
      let start := (statements n front r).outcome p c
      ((statements n contents start.1).outcome p start.2).2 = start.2
  | .block front inside _, n, r, c =>
      let start := (statements n front r).outcome p c
      match n with
      | 0 => True
      | n + 1 => inside.Idle contents p n start.1 start.2

theorem walk_idle {place : Place} {contents : List Stmt} {p : Program} {n : Nat} {r : Returns}
    {c : Checker} (idle : place.Idle contents p n r c) :
    (place.walk (passing contents) n r).outcome p c =
      (statements n (place.fill []) r).outcome p c := by
  rw [← walk_fill]
  induction place generalizing n r c with
  | here front back =>
      let start := (statements n front r).outcome p c
      change (statements n back start.1).outcome p
        ((statements n contents start.1).outcome p start.2).2 =
          (statements n back start.1).outcome p start.2
      rw [idle]
  | block front inside back ih =>
      cases n with
      | zero => rfl
      | succ n =>
          dsimp only [Place.walk, outcome_bind]
          rw [ih idle]

/-- A block that does not return, and none of whose names is used behind it, keeps its names to
itself: the body has the type that it has if the names and types from before the block count behind
it. If moreover the checker knew everything that the block asks for, the contents of the block make
no difference at all. -/
theorem blockReturn_fill {place : Place} {contents : List Stmt}
    (silent : ∀ s ∈ contents, ¬ s.HasReturn)
    (unused : ∀ s ∈ contents, ∀ x, s.Binds x → ¬ place.UsesBehind x) (n : Nat)
    (scope : ValueScope) (isAsync isGenerator : Bool) :
    blockReturn (callsWithin n) scope (place.fill contents) isAsync isGenerator =
        concluded isAsync isGenerator (place.walk (passing contents) n ⟨scope, []⟩) ∧
      ∀ p c, place.Idle contents p n ⟨scope, []⟩ c →
        (blockReturn (callsWithin n) scope (place.fill contents) isAsync isGenerator).outcome p c =
          (blockReturn (callsWithin n) scope (place.fill []) isAsync isGenerator).outcome p c := by
  have passed : blockReturn (callsWithin n) scope (place.fill contents) isAsync isGenerator =
      concluded isAsync isGenerator (place.walk (passing contents) n ⟨scope, []⟩) := by
    rw [blockReturn_eq, ← walk_fill]
    unfold concluded
    split
    · rfl
    · have twin := twin_walk silent (fun x behind s listed bound => unused s listed x bound behind)
        (fun x behind => behind) n ⟨scope, []⟩
      refine ((twin.bind fun found found' agree => ?_).eq).symm
      rw [agree.types]
      exact twin_self _
  refine ⟨passed, fun p c idle => ?_⟩
  rw [passed, blockReturn_eq]
  unfold concluded
  split
  · rfl
  · dsimp only [outcome_bind]
    rw [walk_idle idle]

/-! ### A block that gives a name another type -/

/-- A block, and `return x` behind it. -/
def beforeReturn : Place := .block [] (.here [] []) [.return (some (.ident "x"))]

/-- A scope in which `x` is a number. -/
def numberScope : ValueScope :=
  { types := { file := ⟨0⟩ }, locals := [("x", Arena.intrinsicId .number)] }

def constant (name : String) (value : Expr) : Stmt :=
  .variableList true [⟨.ident name false none, some value, ""⟩]

theorem eq_of_binds_constant {x name : String} {value : Expr}
    (bound : (constant name value).Binds x) : x = name := by
  cases bound with
  | variableList listed bound =>
      cases List.mem_singleton.mp listed
      cases bound
      rfl

theorem eq_of_usesBehind {x : String} (behind : beforeReturn.UsesBehind x) : x = "x" := by
  rcases behind with inside | after
  · cases inside
  · obtain ⟨s, listed, used⟩ := after.exists
    cases List.mem_singleton.mp listed
    cases used with
    | «return» used =>
        cases used with
        | ident => rfl
        | operand inside => cases inside

/-- A block that copies `x` under another name keeps that name to itself. -/
theorem copied_apart :
    (blockReturn calls numberScope (beforeReturn.fill [constant "y" (.ident "x")]) false
        false).outcome {} (ofProgram {}) =
      (blockReturn calls numberScope (beforeReturn.fill []) false false).outcome {}
        (ofProgram {}) := by
  refine (blockReturn_fill ?_ ?_ (maxNesting + 1) numberScope false false).2 {} (ofProgram {}) rfl
  · intro s listed found
    cases List.mem_singleton.mp listed
    cases found
  · intro s listed x bound behind
    cases List.mem_singleton.mp listed
    have same : "y" = "x" := (eq_of_binds_constant bound).symm.trans (eq_of_usesBehind behind)
    exact absurd same (by decide)

/-- A block that declares another `x` changes the type of what is returned behind it. -/
theorem shadowed_type_returned :
    ((blockReturn calls numberScope (beforeReturn.fill [constant "x" (.string "a")]) false
        false).outcome {} (ofProgram {})).1 = Arena.intrinsicId .string ∧
      ((blockReturn calls numberScope (beforeReturn.fill []) false false).outcome {}
        (ofProgram {})).1 = Arena.intrinsicId .number := by
  constructor
  · cbv
  · cbv

end Checker

end ApiDocs
