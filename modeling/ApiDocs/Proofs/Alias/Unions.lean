import ApiDocs.Proofs.Alias.Annotations

set_option autoImplicit false

/-!
Unions of one type and of keywords and literals that no other member leaves out. What such a union is
kept for is the one type and the others, in any order, so that the one can be replaced.
-/

namespace ApiDocs

open Syntax

/-- Types that are made of no other types and stand for no other type. -/
def TypeData.isAtom : TypeData → Bool
  | .intrinsic _ => true
  | .booleanLiteral _ => true
  | .numberLiteral _ => true
  | .stringLiteral _ => true
  | _ => false

namespace Checker

variable {n : Nat} {p : Program} {c : Checker} {op : Operation} {env : String → Option TypeId}
  {names : List String} {e : TypeExpr} {es : List TypeExpr} {u t : TypeId} {ids : List TypeId}

/-! ### Keywords and literals -/

/-- A keyword or a literal is one type, or two in the case of `boolean`. They are members of every union
that they are written in, unless another member absorbs them. -/
theorem Stands.flat_of_firm (ready : Ready n p c) (stands : Stands op c env e u)
    (firm : isFirm e = true) :
    c.arena.flattenUnion [u] ≠ [] ∧
      ∀ w ∈ c.arena.flattenUnion [u], c.arena.Stays w ∧ (c.arena.data w).isAtom = true := by
  have stays {w : TypeId} {data : TypeData} (here : c.arena.data w = data) (atom : data.isAtom = true)
      (kind : ∀ i, data = .intrinsic i → i ∉ [Intrinsic.any, .unknown, .never, .undefined, .null]) :
      c.arena.Stays w ∧ (c.arena.data w).isAtom = true := by
    refine ⟨.of_data here ?_ kind, here ▸ atom⟩
    rintro inner rfl
    cases atom
  have single (one : c.arena.Stays u ∧ (c.arena.data u).isAtom = true) :
      c.arena.flattenUnion [u] ≠ [] ∧
        ∀ w ∈ c.arena.flattenUnion [u], c.arena.Stays w ∧ (c.arena.data w).isAtom = true := by
    rw [one.1.single]
    exact ⟨List.cons_ne_nil _ _, fun w listed => List.mem_singleton.mp listed ▸ one⟩
  cases stands with
  | base is =>
      cases e with
      | intrinsic i =>
          cases is
          refine single (stays (ready.keywords i) rfl fun k same => ?_)
          cases same
          simpa [isFirm] using firm
      | boolean =>
          cases is
          have start {w : TypeId} {data : TypeData} (small : w.index < 14)
              (initial : Arena.initial.data w = data) : c.arena.data w = data :=
            (Arena.data_eq (ready.start w small)).trans initial
          have data : c.arena.data Arena.booleanId = .union [Arena.falseId, Arena.trueId] :=
            start (by decide) (by cbv)
          have flat : c.arena.flattenUnion [Arena.booleanId] = [Arena.falseId, Arena.trueId] := by
            simp [Arena.flattenUnion, data]
          rw [flat]
          refine ⟨List.cons_ne_nil _ _, List.forall_mem_cons.mpr ⟨?_, List.forall_mem_singleton.mpr ?_⟩⟩
          · exact stays (start (by decide) (by cbv)) rfl fun k same => by cases same
          · exact stays (start (by decide) (by cbv)) rfl fun k same => by cases same
      | _ => cases is
  | literal is found =>
      have data := ready.regular.keyed _ _ found
      cases e with
      | booleanLiteral | numberLiteral | stringLiteral =>
          cases is
          exact single (stays data rfl fun k same => by cases same)
      | _ => cases is
  | name | keyOf | indexed | array | union => cases firm

theorem mem_of_firm (ready : Ready n p c) (firm : ∀ e ∈ es, isFirm e = true)
    (parts : List.Forall₂ (Stands op c env) es ids) :
    ∀ w ∈ c.arena.flattenUnion ids, c.arena.Stays w ∧ (c.arena.data w).isAtom = true := by
  intro w listed
  obtain ⟨u, here, flat⟩ := Arena.mem_flattenUnion.mp listed
  obtain ⟨e, there, stands⟩ := (beside parts).2 u here
  exact (stands.flat_of_firm ready (firm e there)).2 w flat

theorem exists_mem_of_firm (ready : Ready n p c) (firm : ∀ e ∈ es, isFirm e = true) (some : es ≠ [])
    (parts : List.Forall₂ (Stands op c env) es ids) : ∃ w, w ∈ c.arena.flattenUnion ids := by
  obtain ⟨e, here⟩ := List.exists_mem_of_ne_nil _ some
  obtain ⟨u, there, stands⟩ := (beside parts).1 e here
  obtain ⟨w, flat⟩ := List.exists_mem_of_ne_nil _ (stands.flat_of_firm ready (firm e here)).1
  exact ⟨w, Arena.mem_flattenUnion.mpr ⟨u, there, flat⟩⟩

/-! ### The one type beside them -/

/-- What has to be made for type parameters is a member of every union, and no keyword or literal. -/
theorem Stands.stays_of_open (ready : Ready n p c) (stands : Stands Waits c env e u)
    (params : ∀ name t, env name = some t → ∃ x, c.arena.info t = ⟨.typeParameter x, none⟩)
    (open_ : isOpen e = true) : c.arena.Stays u ∧ (c.arena.data u).isAtom = false := by
  have stays {data : TypeData} (here : c.arena.data u = data) (plain : ∀ inner, data ≠ .union inner)
      (other : data.isAtom = false) : c.arena.Stays u ∧ (c.arena.data u).isAtom = false := by
    refine ⟨.of_data here plain ?_, here ▸ other⟩
    rintro i rfl
    cases other
  cases stands with
  | base is | literal is =>
      cases e with
      | intrinsic | boolean | booleanLiteral | numberLiteral | stringLiteral => cases open_
      | _ => cases is
  | name is =>
      obtain ⟨x, info⟩ := params _ _ is
      exact stays (congrArg TypeInfo.data info) (fun _ same => by cases same) rfl
  | keyOf _ waits | indexed _ _ waits =>
      exact stays (congrArg TypeInfo.data waits.info) (fun _ same => by cases same) rfl
  | array _ _ found =>
      exact stays (ready.regular.keyed _ _ found) (fun _ same => by cases same) rfl
  | union => cases open_

/-- What stands beside a list with one element in the midst of the others. -/
theorem split_beside {α β : Type} {R : α → β → Prop} {before after : List α} {a : α} {list : List β}
    (all : List.Forall₂ R (before ++ a :: after) list) :
    ∃ xs b ys, list = xs ++ b :: ys ∧ List.Forall₂ R before xs ∧ R a b ∧ List.Forall₂ R after ys := by
  induction before generalizing list with
  | nil =>
      obtain ⟨b, ys, own, last, rfl⟩ := List.forall₂_cons_left_iff.mp all
      exact ⟨[], b, ys, rfl, .nil, own, last⟩
  | cons e before ih =>
      obtain ⟨x, tail, first, others, rfl⟩ := List.forall₂_cons_left_iff.mp all
      obtain ⟨xs, b, ys, rfl, rest, own, last⟩ := ih others
      exact ⟨x :: xs, b, ys, rfl, .cons first rest, own, last⟩

/-- The members of a union with one member in the midst of the others. -/
theorem Stands.union_cases {before after : List TypeExpr} {part : TypeExpr}
    (stands : Stands op c env (.union (before ++ part :: after)) t) :
    ∃ xs u ys, List.Forall₂ (Stands op c env) before xs ∧ Stands op c env part u ∧
      List.Forall₂ (Stands op c env) after ys ∧ c.arena.Joined (xs ++ u :: ys) t := by
  cases stands with
  | base is | literal is => cases is
  | union length parts joined =>
      obtain ⟨xs, u, ys, rfl, first, own, last⟩ :=
        split_beside (List.forall₂_iff_zip.mpr ⟨length, @parts⟩)
      exact ⟨xs, u, ys, first, own, last, joined⟩

/-- What a union of `part` and of others comes to for type parameters: the type `t`, which is kept for
the types `list`, namely `u` for the part and what the others are flattened to. -/
structure KeptFor (c : Checker) (env : String → Option TypeId) (before after : List TypeExpr)
    (part : TypeExpr) (xs ys list : List TypeId) (u t : TypeId) : Prop where
  first : List.Forall₂ (Stands Waits c env) before xs
  own : Stands Waits c env part u
  last : List.Forall₂ (Stands Waits c env) after ys
  inside : ∀ v ∈ xs ++ ys, v.index < c.arena.size
  differ : ∀ v ∈ c.arena.flattenUnion (xs ++ ys), v ≠ u
  info : c.arena.info t = ⟨.union list, none⟩
  members : ∀ v, v ∈ list ↔ v = u ∨ v ∈ c.arena.flattenUnion (xs ++ ys)
  again : c.arena.Joined list t

theorem Stands.keptFor (ready : Ready n p c) {before after : List TypeExpr} {part : TypeExpr}
    (params : ∀ name t, env name = some t → ∃ x, c.arena.info t = ⟨.typeParameter x, none⟩)
    (open_ : isOpen part = true) (firm : ∀ e ∈ before ++ after, isFirm e = true)
    (others : before ++ after ≠ []) (stands : Stands Waits c env (.union (before ++ part :: after)) t) :
    ∃ xs ys list u, KeptFor c env before after part xs ys list u t := by
  obtain ⟨xs, u, ys, first, own, last, joined⟩ := stands.union_cases
  have beside : List.Forall₂ (Stands Waits c env) (before ++ after) (xs ++ ys) :=
    List.rel_append first last
  obtain ⟨stays, atom⟩ := own.stays_of_open ready params open_
  obtain ⟨w, listed⟩ := exists_mem_of_firm ready firm others beside
  have kept := mem_of_firm ready firm beside
  have differ : ∀ v ∈ c.arena.flattenUnion (xs ++ ys), v ≠ u := by
    rintro v here rfl
    exact Bool.false_ne_true (atom.symm.trans (kept v here).2)
  obtain ⟨list, found, members, again⟩ :=
    joined.of_beside stays (fun v here => (kept v here).1) listed (differ w listed)
  refine ⟨xs, ys, list, u, first, own, last, fun v here => joined.inside v ?_, differ,
    ready.regular.unnamed _ t found, members, again⟩
  simp only [List.mem_append, List.mem_cons] at here ⊢
  tauto

/-- The union of one type and of keywords and literals is the same in any order. -/
theorem Stands.union_beside (ready : Ready n p c) (binds : Binds n p op c names env)
    {before after : List TypeExpr} {part : TypeExpr} {r : TypeId} {xs ys all : List TypeId}
    (firm : ∀ e ∈ before ++ after, isFirm e = true) (first : List.Forall₂ (Stands op c env) before xs)
    (own : Stands op c env part r) (last : List.Forall₂ (Stands op c env) after ys)
    (members : ∀ y, y ∈ all ↔ y = r ∨ y ∈ c.arena.flattenUnion (xs ++ ys))
    (joined : c.arena.Joined all t) : Stands op c env (.union (before ++ part :: after)) t := by
  have parts : List.Forall₂ (Stands op c env) (before ++ part :: after) (xs ++ r :: ys) :=
    List.rel_append first (.cons own last)
  have inside : ∀ u ∈ xs ++ r :: ys, u.index < c.arena.size := by
    intro u listed
    obtain ⟨e, -, stands⟩ := (beside parts).2 u listed
    exact stands.inside ready binds.inside fun data t => binds.there c data t ready
  have others := mem_of_firm ready firm (List.rel_append first last)
  refine .union_of_parts parts ⟨inside, Arena.flattenUnion_inside ready.sound.houses inside, ?_⟩
  rw [← Arena.union_beside (fun u listed => (others u listed).1) members]
  exact joined.made

end Checker

end ApiDocs
