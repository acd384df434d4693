import ApiDocs.Bindings.Growth
import ApiDocs.Checker.State
import ApiDocs.Ty.Growth

set_option autoImplicit false

/-!
What work on a checker does to its state. Types and symbols are added and never taken away; answers
that are known stay as they are; a question that is being worked out is entered on the way in and
taken out on the way back. Only places that were reserved on the way are written twice.
-/

namespace ApiDocs

/-! ### Known answers -/

namespace Memo

variable {κ α : Type} [BEq κ] [Hashable κ]

/-- Known answers stay, and the same questions are being worked out. -/
structure Extends (m m' : Memo κ α) : Prop where
  known : ∀ k a, m.find? k = some a → m'.find? k = some a
  running : m'.running = m.running

theorem Extends.refl (m : Memo κ α) : m.Extends m := ⟨fun _ _ found => found, rfl⟩

theorem Extends.trans {a b c : Memo κ α} (first : a.Extends b) (second : b.Extends c) :
    a.Extends c where
  known k x found := second.known k x (first.known k x found)
  running := second.running.trans first.running

variable [LawfulBEq κ] [LawfulHashable κ]

@[simp] theorem find?_leave_self (m : Memo κ α) (k : κ) (a : α) : (m.leave k a).find? k = some a :=
  Std.HashMap.getElem?_insert_self

theorem find?_leave_other (m : Memo κ α) (k other : κ) (a : α) (differs : other ≠ k) :
    (m.leave k a).find? other = m.find? other := by
  unfold leave find?
  rw [Std.HashMap.getElem?_insert, if_neg]
  simpa using differs.symm

/-- A question that was not answered before gets its answer. -/
theorem Extends.leave {m m' : Memo κ α} {k : κ} (inner : (m.enter k).Extends m')
    (unknown : m.find? k = none) (a : α) : m.Extends (m'.leave k a) where
  known other x found := by
    have differs : other ≠ k := by
      intro same
      rw [same, unknown] at found
      cases found
    rw [find?_leave_other m' k other a differs]
    exact inner.known other x found
  running := by
    unfold Memo.leave
    rw [inner.running]
    exact List.erase_cons_head k m.running

end Memo

/-! ### Work -/

/-- What is found when the members of a type of `a` are worked out, which ends at `c`: those of an
object are its own; those of an instance are those of its symbol, if the arguments are the
parameters. A type whose alias is still being read has none. -/
structure Denotes (a : Arena) (c : Checker) (t : TypeId) (found : Shape) : Prop where
  missing : a.size ≤ t.index → found = {}
  placeholder : ∀ s, a.info t = .placeholder s → found = {}
  object : ∀ s, a.data t = .object s → found = s
  reference : ∀ s args, a.data t = .reference s args →
    found = {} ∨ c.structures.find? s = some found ∨
      ∃ params, params ≠ [] ∧ params ≠ args ∧ c.typeParams[s]? = some params

/-- The ways from one state to another. Places below `n` are not filled. -/
inductive Work : Nat → Checker → Checker → Prop where
  | refl {n : Nat} (c : Checker) : Work n c c
  | trans {n : Nat} {a b c : Checker} (first : Work n a b) (second : Work n b c) : Work n a c
  | types {n : Nat} {c : Checker} {arena : Arena} (grown : c.arena.Extends arena) :
      Work n c { c with arena }
  | symbols {n : Nat} {c : Checker} {bindings : Bindings} (grown : c.bindings.Extends bindings) :
      Work n c { c with bindings }
  | fillAlias {n : Nat} {c : Checker} {t : TypeId} {s : SymbolId} (later : n ≤ t.index)
      (reserved : c.arena.info t = .placeholder s) (info : TypeInfo) :
      Work n c { c with arena := c.arena.set t info }
  | fillParam {n : Nat} {c : Checker} {t : TypeId} {old : TypeParameter} (later : n ≤ t.index)
      (reserved : c.arena.data t = .typeParameter old) (param : TypeParameter) :
      Work n c { c with arena := c.arena.setData t (.typeParameter param) }
  | declare {n : Nat} {c c' : Checker} {s : SymbolId} (unknown : c.declared[s]? = none)
      (inner : Work n c c') (t : TypeId) :
      Work n c { c' with declared := c'.declared.insert s t }
  | params {n : Nat} {c : Checker} {s : SymbolId} (unknown : c.typeParams[s]? = none)
      (ids : List TypeId) : Work n c { c with typeParams := c.typeParams.insert s ids }
  | body {n : Nat} {c c' : Checker} {s : SymbolId}
      (inner : Work n { c with declaring := s :: c.declaring } c') :
      Work n c { c' with declaring := c'.declaring.erase s }
  | value {n : Nat} {c c' : Checker} {s : SymbolId} (unknown : c.values.find? s = none)
      (inner : Work n { c with values := c.values.enter s } c') (t : TypeId) :
      Work n c { c' with values := c'.values.leave s t }
  | members {n : Nat} {c c' : Checker} {s : SymbolId} (unknown : c.structures.find? s = none)
      (free : s ∉ c.structures.running)
      (inner : Work n { c with structures := c.structures.enter s } c') (shape : Shape) :
      Work n c { c' with structures := c'.structures.leave s shape }
  | shape {n : Nat} {c c' : Checker} {t : TypeId} {found : Shape} (unknown : c.shapes.find? t = none)
      (inner : Work c.arena.size { c with shapes := c.shapes.enter t } c')
      (denotes : Denotes c.arena c' t found) :
      Work n c { c' with shapes := c'.shapes.leave t found }
  | evaluate {n : Nat} {c c' : Checker} {t result : TypeId} (unknown : c.evaluated.find? t = none)
      (inner : Work n { c with evaluated := c.evaluated.enter t } c')
      (plain : (c.arena.data t).isOperator = false → result = t) :
      Work n c { c' with evaluated := c'.evaluated.leave t result }
  | element {n : Nat} {c c' : Checker} (unknown : c.elementType = none) (inner : Work n c c')
      (found : Option TypeId) : Work n c { c' with elementType := some found }
  | giveUp {n : Nat} (c : Checker) : Work n c { c with gaveUp := true }

theorem Work.mono {m n : Nat} {c c' : Checker} (work : Work n c c') (le : m ≤ n) : Work m c c' := by
  induction work with
  | refl c => exact .refl c
  | trans _ _ first second => exact .trans (first le) (second le)
  | types grown => exact .types grown
  | symbols grown => exact .symbols grown
  | fillAlias later reserved info => exact .fillAlias (Nat.le_trans le later) reserved info
  | fillParam later reserved param => exact .fillParam (Nat.le_trans le later) reserved param
  | declare unknown _ t inner => exact .declare unknown (inner le) t
  | params unknown ids => exact .params unknown ids
  | body _ inner => exact .body (inner le)
  | value unknown _ t inner => exact .value unknown (inner le) t
  | members unknown free _ shape inner => exact .members unknown free (inner le) shape
  | shape unknown inner denotes => exact .shape unknown inner denotes
  | evaluate unknown _ plain inner => exact .evaluate unknown (inner le) plain
  | element unknown _ found inner => exact .element unknown (inner le) found
  | giveUp c => exact .giveUp c

/-! ### What work leaves alone -/

/-- Types below `n`, symbols and answers stay as they are, and the same questions are being worked
out. -/
structure Checker.Extends (n : Nat) (c c' : Checker) : Prop where
  size : c.arena.size ≤ c'.arena.size
  info : ∀ t : TypeId, t.index < n → c'.arena.info t = c.arena.info t
  bindings : c.bindings.Extends c'.bindings
  declared : ∀ (s : SymbolId) (t : TypeId), c.declared[s]? = some t → c'.declared[s]? = some t
  declaring : c'.declaring = c.declaring
  values : c.values.Extends c'.values
  typeParams : ∀ (s : SymbolId) (ids : List TypeId),
    c.typeParams[s]? = some ids → c'.typeParams[s]? = some ids
  structures : c.structures.Extends c'.structures
  shapes : c.shapes.Extends c'.shapes
  evaluated : c.evaluated.Extends c'.evaluated
  elementType : ∀ found, c.elementType = some found → c'.elementType = some found
  gaveUp : c.gaveUp = true → c'.gaveUp = true

namespace Checker.Extends

theorem refl (n : Nat) (c : Checker) : Checker.Extends n c c :=
  ⟨Nat.le_refl _, fun _ _ => rfl, .refl _, fun _ _ h => h, rfl, .refl _, fun _ _ h => h, .refl _,
    .refl _, .refl _, fun _ h => h, id⟩

theorem trans {n : Nat} {a b c : Checker} (first : Checker.Extends n a b)
    (second : Checker.Extends n b c) : Checker.Extends n a c where
  size := Nat.le_trans first.size second.size
  info t below := (second.info t below).trans (first.info t below)
  bindings := first.bindings.trans second.bindings
  declared s t known := second.declared s t (first.declared s t known)
  declaring := second.declaring.trans first.declaring
  values := first.values.trans second.values
  typeParams s ids known := second.typeParams s ids (first.typeParams s ids known)
  structures := first.structures.trans second.structures
  shapes := first.shapes.trans second.shapes
  evaluated := first.evaluated.trans second.evaluated
  elementType found known := second.elementType found (first.elementType found known)
  gaveUp before := second.gaveUp (first.gaveUp before)

theorem mono {m n : Nat} {c c' : Checker} (kept : Checker.Extends n c c') (le : m ≤ n) :
    Checker.Extends m c c' :=
  { kept with info := fun t below => kept.info t (Nat.lt_of_lt_of_le below le) }

end Checker.Extends

/-- Entering a key that is not there keeps the entries that are. -/
theorem getElem?_insert_of_unknown {κ α : Type} [BEq κ] [Hashable κ] [LawfulBEq κ]
    [LawfulHashable κ] {table : Std.HashMap κ α} {start : Std.HashMap κ α} {k other : κ} {x : α}
    (unknown : start[k]? = none) (found : start[other]? = some x)
    (kept : table[other]? = some x) (a : α) : (table.insert k a)[other]? = some x := by
  rw [Std.HashMap.getElem?_insert, if_neg]
  · exact kept
  · intro same
    rw [← eq_of_beq same, unknown] at found
    cases found

theorem Work.extends {n : Nat} {c c' : Checker} (work : Work n c c') (start : n ≤ c.arena.size) :
    Checker.Extends n c c' := by
  induction work with
  | refl c => exact .refl _ c
  | trans _ _ first second =>
      have left := first start
      exact left.trans (second (Nat.le_trans start left.size))
  | @types n c arena grown =>
      exact { Checker.Extends.refl n c with
        size := grown.size
        info := fun t below => grown.info t (Nat.lt_of_lt_of_le below start) }
  | @symbols n c bindings grown => exact { Checker.Extends.refl n c with bindings := grown }
  | @fillAlias n c t s later _ info =>
      refine { Checker.Extends.refl n c with size := ?_, info := ?_ }
      · exact Nat.le_of_eq (Arena.size_set _ _ _).symm
      · intro other below
        refine Arena.info_set_other _ _ _ _ fun same => ?_
        subst same
        exact Nat.not_lt_of_le later below
  | @fillParam n c t old later _ param =>
      refine { Checker.Extends.refl n c with size := ?_, info := ?_ }
      · exact Nat.le_of_eq (Arena.size_setData _ _ _).symm
      · intro other below
        refine Arena.info_setData_other _ _ _ _ fun same => ?_
        subst same
        exact Nat.not_lt_of_le later below
  | declare unknown _ t inner =>
      have inside := inner start
      exact { inside with
        declared := fun other x known =>
          getElem?_insert_of_unknown unknown known (inside.declared other x known) t }
  | @params n c s unknown ids =>
      exact { Checker.Extends.refl n c with
        typeParams := fun other x known => getElem?_insert_of_unknown unknown known known ids }
  | @body n c c' s _ inner =>
      have inside := inner start
      refine { inside with declaring := ?_ }
      dsimp only
      rw [inside.declaring]
      exact List.erase_cons_head s c.declaring
  | value unknown _ t inner =>
      have inside := inner start
      exact { inside with values := inside.values.leave unknown t }
  | members unknown _ _ shape inner =>
      have inside := inner start
      exact { inside with structures := inside.structures.leave unknown shape }
  | @shape n c c' t found unknown _ denotes inner =>
      have inside := inner (Nat.le_refl _)
      exact { inside with
        info := fun other below => inside.info other (Nat.lt_of_lt_of_le below start)
        shapes := inside.shapes.leave unknown found }
  | evaluate unknown _ _ inner =>
      have inside := inner start
      exact { inside with evaluated := inside.evaluated.leave unknown _ }
  | element unknown _ found inner =>
      have inside := inner start
      refine { inside with elementType := fun other known => ?_ }
      rw [unknown] at known
      cases known
  | @giveUp n c => exact { Checker.Extends.refl n c with gaveUp := fun _ => rfl }

end ApiDocs
