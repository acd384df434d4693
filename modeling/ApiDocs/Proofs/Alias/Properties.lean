import ApiDocs.Proofs.Alias.Substituted

set_option autoImplicit false

/-!
The properties of an object type, each with its annotation. Read for type parameters and then
substituted in, they are the members that are read for the concrete types.
-/

namespace ApiDocs

open Syntax

/-- A property of an object type, as it is written. -/
structure PropertyExpr where
  name : String
  type : Option TypeExpr
  optional : Bool
  readonly : Bool
  doc : DocComment

namespace PropertyExpr

def member (q : PropertyExpr) : TypeMember := .property q.name q.type q.optional q.readonly q.doc

/-- A property without a type is of any type. -/
def annotation (q : PropertyExpr) : TypeExpr := q.type.getD (.intrinsic .any)

/-- The first property under a name stays. -/
def keepFirst (sofar : List PropertyExpr) (q : PropertyExpr) : List PropertyExpr :=
  if sofar.any (·.name = q.name) then sofar else sofar ++ [q]

theorem foldl_keepFirst_subset (sofar properties : List PropertyExpr) :
    properties.foldl keepFirst sofar ⊆ sofar ++ properties := by
  induction properties generalizing sofar with
  | nil => simp
  | cons q rest ih =>
      intro x kept
      rcases List.mem_append.mp (ih (keepFirst sofar q) kept) with before | later
      · unfold keepFirst at before
        split at before <;> grind
      · exact List.mem_append_right _ (List.mem_cons_of_mem _ later)

end PropertyExpr

namespace Checker

open Check PropertyExpr

/-- In the state `c`, `m` is what a property comes to. -/
structure Written (op : Operation) (c : Checker) (env : String → Option TypeId) (q : PropertyExpr)
    (m : Member) : Prop where
  name : m.name = q.name
  optional : m.optional = q.optional
  readonly : m.readonly = q.readonly
  documentation : m.documentation = q.doc.text
  type : Stands op c env q.annotation m.type

variable {n : Nat} {p : Program} {c c' : Checker} {op op' : Operation} {env image : String → Option TypeId}
  {q : PropertyExpr} {m : Member} {properties : List PropertyExpr} {members : List Member}

theorem Written.mono (written : Written op c env q m) {env' : String → Option TypeId}
    (type : ∀ t, Stands op c env q.annotation t → Stands op' c' env' q.annotation t) :
    Written op' c' env' q m :=
  { written with type := type _ written.type }

theorem written_later (written : List.Forall₂ (Written op c env) properties members) (lasts : Lasts n op)
    (since : Since n c c') : List.Forall₂ (Written op c' env) properties members :=
  written.imp fun _ _ one => one.mono fun _ stands => stands.later lasts since

/-- Properties and members agree in their names. -/
theorem isSome_member? (written : List.Forall₂ (Written op c env) properties members) (name : String) :
    (({ members } : Shape).member? name).isSome = properties.any (·.name = name) := by
  unfold Shape.member?
  dsimp only
  induction written with
  | nil => rfl
  | @cons q m _ _ first _ ih => 
      rw [List.find?_cons, List.any_cons, ← ih, first.name]
      cases decide (q.name = name) <;> rfl

/-- A property more. -/
theorem written_addMember (written : List.Forall₂ (Written op c env) properties members)
    (last : Written op c env q m) :
    ∃ all, ({ members } : Shape).addMember m = { members := all } ∧
      List.Forall₂ (Written op c env) (keepFirst properties q) all := by
  unfold Shape.addMember keepFirst
  rw [isSome_member? written, last.name]
  split
  · exact ⟨members, rfl, written⟩
  · exact ⟨members ++ [m], rfl, List.rel_append written (.cons last .nil)⟩

/-- What all properties come to is the same in the same state. -/
theorem written_unique (ready : Ready n p c) {others : List Member}
    (first : List.Forall₂ (Written (Comes n p) c env) properties members)
    (second : List.Forall₂ (Written (Comes n p) c env) properties others) : members = others := by
  induction first generalizing others with
  | nil =>
      cases second
      rfl
  | @cons q m _ _ one _ ih =>
      cases second with
      | @cons _ m' _ _ other rest =>
          have same : m = m' := by
            have type := one.type.unique ready other.type
            have name := one.name.trans other.name.symm
            have optional := one.optional.trans other.optional.symm
            have readonly := one.readonly.trans other.readonly.symm
            have documentation := one.documentation.trans other.documentation.symm
            cases m
            cases m'
            simp_all
          rw [same, ih rest]

/-! ### Reading properties -/

variable {names : List String} {array? : Option SymbolId} {scope : TypeScope} {d : Nat}

theorem ends_lower_property (binds : Binds n p op c names scope.param?) (ready : Ready n p c)
    (direct : DirectExpr names array? d q.annotation)
    (arrays : c.bindings.global.get? .type "Array" = array?) (k : Nat) :
    Ends n p c (lowerAnnotated (callsTo (k + 5 + d)) scope q.type) fun t c' =>
      Stands op c' scope.param? q.annotation t := by
  unfold annotation at direct ⊢
  cases type : q.type with
  | none => exact .pure fun _ _ => .base rfl
  | some e =>
      rw [type] at direct
      exact ends_lower binds ready arrays direct k

theorem ends_addProperties (binds : Binds n p op c names scope.param?) (ready : Ready n p c)
    (direct : ∀ q ∈ properties, DirectExpr names array? d q.annotation)
    (arrays : c.bindings.global.get? .type "Array" = array?) (k : Nat)
    {before : List PropertyExpr} (written : List.Forall₂ (Written op c scope.param?) before members) :
    Ends n p c ((properties.map (·.member)).foldlM (addTypeMember (callsTo (k + 5 + d)) scope) { members })
      fun shape c' => ∃ all, shape = { members := all } ∧
        List.Forall₂ (Written op c' scope.param?) (properties.foldl keepFirst before) all := by
  induction properties generalizing c before members with
  | nil => exact .pure fun c' since => ⟨members, rfl, written_later written binds.lasts since⟩
  | cons q rest ih =>
      have opened (calls : Calls) (shape : Shape) : addTypeMember calls scope shape q.member =
          lowerAnnotated calls scope q.type >>= fun t =>
            pure (shape.addMember ⟨q.name, t, q.optional, q.readonly, q.doc.text⟩) := rfl
      rw [List.map_cons, List.foldlM_cons, opened, bind_assoc]
      refine .bind (ends_lower_property binds ready (direct q List.mem_cons_self) arrays k)
        fun t c₁ since₁ ready₁ stands => ?_
      rw [pure_bind]
      have last : Written op c₁ scope.param? q ⟨q.name, t, q.optional, q.readonly, q.doc.text⟩ :=
        ⟨rfl, rfl, rfl, rfl, stands⟩
      obtain ⟨all, same, more⟩ := written_addMember (written_later written binds.lasts since₁) last
      rw [same]
      exact ih (binds.later since₁) ready₁ (fun q listed => direct q (List.mem_cons_of_mem _ listed))
        (since₁.bindings.global ▸ arrays) more

/-- An object type of properties. -/
theorem ends_lowerMembers (binds : Binds n p op c names scope.param?) (ready : Ready n p c)
    (direct : ∀ q ∈ properties, DirectExpr names array? d q.annotation)
    (arrays : c.bindings.global.get? .type "Array" = array?) (k : Nat) :
    Ends n p c (lowerMembers (callsTo (k + 5 + d)) scope (properties.map (·.member))) fun shape c' =>
      ∃ all, shape = { members := all } ∧
        List.Forall₂ (Written op c' scope.param?) (properties.foldl keepFirst []) all :=
  ends_addProperties binds ready direct arrays k .nil

/-! ### Substitution in properties -/

theorem ends_mapM_written {map : Substitution} (ready : Ready n p c) (puts : Puts c map env image)
    (binds : Binds n p (Comes n p) c names image) (args : ConcreteBefore n c image)
    (direct : ∀ q ∈ properties, DirectExpr names array? d q.annotation)
    (written : List.Forall₂ (Written Waits c env) properties members) (k j : Nat) :
    Ends n p c (members.mapM fun m => do
        return { m with type := ← substituteAt (callsTo (k + 1 + 1 + 1)) (j + 2 + d) map m.type })
      fun all c' => List.Forall₂ (Written (Comes n p) c' image) properties all := by
  induction members generalizing c properties with
  | nil =>
      cases written
      exact .pure fun _ _ => .nil
  | cons m rest ih =>
      obtain _ | @⟨q, _, others, _, first, written⟩ := written
      rw [List.mapM_cons, bind_assoc]
      have own := direct q List.mem_cons_self
      refine .bind (ends_substituteAt_direct ready puts binds args own first.type k j)
        fun t c₁ since₁ ready₁ stands => ?_
      rw [pure_bind]
      have later := written_later written (lasts_waits n) since₁
      refine .bind (ih ready₁ (puts.later since₁) (binds.later since₁) (args.later since₁)
        (fun q listed => direct q (List.mem_cons_of_mem _ listed)) later) fun all c₂ since₂ _ more => ?_
      refine .pure fun c₃ since₃ => .cons ?_ (written_later more binds.lasts since₃)
      exact { first with type := stands.later binds.lasts (since₂.trans since₃) }

/-- The members of an object type of properties. -/
theorem ends_mapShape_written {map : Substitution} (ready : Ready n p c) (puts : Puts c map env image)
    (binds : Binds n p (Comes n p) c names image) (args : ConcreteBefore n c image)
    (direct : ∀ q ∈ properties, DirectExpr names array? d q.annotation)
    (written : List.Forall₂ (Written Waits c env) properties members) (k j : Nat) :
    Ends n p c (mapShape (substituteAt (callsTo (k + 1 + 1 + 1)) (j + 2 + d) map) { members })
      fun shape c' => ∃ all, shape = { members := all } ∧
        List.Forall₂ (Written (Comes n p) c' image) properties all := by
  refine .bind (ends_mapM_written ready puts binds args direct written k j) fun all c₁ _ _ written => ?_
  have rest : Ends n p c₁ (pure ({ members := all } : Shape)) fun shape c' =>
      ∃ all, shape = { members := all } ∧ List.Forall₂ (Written (Comes n p) c' image) properties all := by
    exact .pure fun c₂ since => ⟨all, rfl, written_later written binds.lasts since⟩
  exact rest

end Checker

end ApiDocs
