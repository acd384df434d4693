import Mathlib.Data.List.Permutation
import Mathlib.Logic.Relation
import ApiDocs.Checker

set_option autoImplicit false

/-!
Substitutions that do not touch a type. A substitution goes down into the parts of a type, and a type
can be part of itself. Where every key that can be met is mapped to itself, the type is its own
result and the state stays as it is, so that no type gets a second identity. It follows that the
shortcut for an instance of a symbol at its own parameters changes nothing.
-/

namespace ApiDocs

/-! ### The parts of a type -/

def Signature.parts (s : Signature) : List TypeId := s.params.map (·.type) ++ [s.result]

def Shape.parts (s : Shape) : List TypeId :=
  s.members.map (·.type) ++ s.call.flatMap Signature.parts ++ s.construct.flatMap Signature.parts ++
    (s.stringIndex.map (·.type)).toList ++ (s.numberIndex.map (·.type)).toList

theorem Signature.mem_parts {s : Signature} {u : TypeId} :
    u ∈ s.parts ↔ (∃ x ∈ s.params, x.type = u) ∨ u = s.result := by simp [parts]

theorem Shape.mem_parts {s : Shape} {u : TypeId} :
    u ∈ s.parts ↔ (∃ m ∈ s.members, m.type = u) ∨ (∃ x ∈ s.call, u ∈ x.parts) ∨
      (∃ x ∈ s.construct, u ∈ x.parts) ∨ (∃ i ∈ s.stringIndex, i.type = u) ∨
        ∃ i ∈ s.numberIndex, i.type = u := by
  simp [parts]

/-- The types that a substitution goes on to from a type with this data. -/
def TypeData.parts : TypeData → List TypeId
  | .union members => members
  | .intersection members => members
  | .tuple items => items
  | .reference _ args => args
  | .nominal _ args => args
  | .unresolved _ args => args
  | .object shape => shape.parts
  | .keyOf inner => [inner]
  | .indexedAccess whole key => [whole, key]
  | .mapped m => [m.constraint, m.template]
  | _ => []

/-- The parts in which a key is still put in: the parameter of a mapped type is bound in its
template. -/
def TypeData.openParts (key : TypeId) : TypeData → List TypeId
  | .mapped m => if m.param = key then [m.constraint] else [m.constraint, m.template]
  | data => data.parts

def AliasRef.parts (written : Option AliasRef) : List TypeId := (written.map (·.args)).getD []

def TypeInfo.parts (info : TypeInfo) : List TypeId := AliasRef.parts info.writtenAs ++ info.data.parts

def TypeInfo.openParts (key : TypeId) (info : TypeInfo) : List TypeId :=
  AliasRef.parts info.writtenAs ++ info.data.openParts key

theorem TypeData.constraint_mem_openParts (key : TypeId) (m : MappedType) :
    m.constraint ∈ (TypeData.mapped m).openParts key := by
  dsimp only [openParts]
  split <;> exact List.mem_cons_self

theorem TypeData.template_mem_openParts {key : TypeId} {m : MappedType} (other : key ≠ m.param) :
    m.template ∈ (TypeData.mapped m).openParts key := by
  dsimp only [openParts]
  rw [if_neg other.symm]
  exact List.mem_cons_of_mem _ List.mem_cons_self

theorem TypeData.openParts_subset (key : TypeId) (data : TypeData) :
    data.openParts key ⊆ data.parts := by
  cases data with
  | mapped m =>
      dsimp only [openParts, parts]
      split <;> simp
  | _ => exact List.Subset.refl _

namespace Arena

/-- A substitution in `t` can meet `u`. -/
def Reaches (a : Arena) : TypeId → TypeId → Prop :=
  Relation.ReflTransGen fun t u => u ∈ (a.info t).parts

/-- The key is free in `t`: a substitution in `t` can meet it where it is not bound. -/
def Occurs (a : Arena) (key t : TypeId) : Prop :=
  Relation.ReflTransGen (fun t u => u ∈ (a.info t).openParts key) t key

/-- Every key of the substitution that `t` reaches is mapped to itself. -/
def Fixes (a : Arena) (map : Substitution) (t : TypeId) : Prop :=
  ∀ key image, map.lookup key = some image → a.Reaches t key → image = key

/-- Every key of the substitution that is free in `t` is mapped to itself. -/
def Spares (a : Arena) (map : Substitution) (t : TypeId) : Prop :=
  ∀ key image, map.lookup key = some image → a.Occurs key t → image = key

variable {a : Arena} {map : Substitution} {t u : TypeId}

theorem Occurs.reaches {key : TypeId} (occurs : a.Occurs key t) : a.Reaches t key :=
  Relation.ReflTransGen.mono (fun t u inside => by
    rcases List.mem_append.mp inside with arg | part
    · exact List.mem_append_left _ arg
    · exact List.mem_append_right _ (TypeData.openParts_subset key _ part)) _ _ occurs

theorem Fixes.spares (fixed : a.Fixes map t) : a.Spares map t :=
  fun key image found occurs => fixed key image found occurs.reaches

/-- What holds of a type and passes on to parts holds of all that the type reaches. -/
theorem Reaches.closed (reaches : a.Reaches t u) (holds : TypeId → Prop) (start : holds t)
    (step : ∀ t, holds t → ∀ u ∈ (a.info t).parts, holds u) : holds u := by
  induction reaches with
  | refl => exact start
  | tail _ part ih => exact step _ ih _ part

theorem Spares.arg (spared : a.Spares map t) (inside : u ∈ AliasRef.parts (a.info t).writtenAs) :
    a.Spares map u :=
  fun key image found occurs =>
    spared key image found (.head (List.mem_append_left _ inside) occurs)

theorem Spares.image (spared : a.Spares map t) {image : TypeId} (found : map.lookup t = some image) :
    image = t := spared t image found .refl

/-- A key that is taken out of a substitution leaves the other entries as they are. -/
theorem lookup_filter_ne (map : Substitution) (param key : TypeId) :
    (map.filter (·.1 ≠ param)).lookup key = if key = param then none else map.lookup key := by
  induction map with
  | nil => simp
  | cons entry rest ih =>
      obtain ⟨other, image⟩ := entry
      by_cases taken : other = param
      · rw [List.filter_cons_of_neg (by simpa using taken), ih]
        by_cases same : key = param
        · simp [same]
        · have differs : (key == other) = false := beq_eq_false_iff_ne.mpr (taken ▸ same)
          simp [List.lookup_cons, differs]
      · rw [List.filter_cons_of_pos (by simpa using taken), List.lookup_cons, List.lookup_cons, ih]
        by_cases same : key = other
        · simp [same, taken]
        · rw [beq_eq_false_iff_ne.mpr same]

theorem spares_nil (a : Arena) (t : TypeId) : a.Spares [] t := fun _ _ found => nomatch found

/-- Parameters that are put for themselves. -/
theorem spares_self (a : Arena) (params : List TypeId) (t : TypeId) :
    a.Spares (params.zip params) t := by
  intro key image found _
  obtain ⟨before, after, split, _⟩ := List.lookup_eq_some_iff.mp found
  have paired : (key, image) ∈ params.zip params := by
    rw [split]
    exact List.mem_append_right _ List.mem_cons_self
  obtain ⟨i, below, here⟩ := List.mem_iff_getElem.mp paired
  rw [List.getElem_zip] at here
  cases here
  rfl

end Arena

/-! ### Work that gives back what it is given -/

namespace Check

variable {α : Type} {p : Program} {c : Checker}

theorem bind_of_outcome {β : Type} {m : Check α} {a : α} {c' : Checker}
    (first : m.outcome p c = (a, c')) (f : α → Check β) :
    (m >>= f).outcome p c = (f a).outcome p c' := by rw [outcome_bind, first]

theorem mapM_same {f : α → Check α} {list : List α}
    (same : ∀ x ∈ list, (f x).outcome p c = (x, c)) : (list.mapM f).outcome p c = (list, c) := by
  induction list with
  | nil => rfl
  | cons x rest ih =>
      rw [List.mapM_cons, bind_of_outcome (same x List.mem_cons_self),
        bind_of_outcome (ih fun y inside => same y (List.mem_cons_of_mem _ inside))]
      rfl

theorem mapM_option_same {f : α → Check α} {o : Option α}
    (same : ∀ x ∈ o, (f x).outcome p c = (x, c)) : (o.mapM f).outcome p c = (o, c) := by
  cases o with
  | none => rfl
  | some x => exact bind_of_outcome (same x rfl) fun y => pure (some y)

end Check

namespace Checker

section

variable {f : TypeId → Check TypeId} {p : Program} {c : Checker}

theorem mapSignature_same {s : Signature} (same : ∀ u ∈ s.parts, (f u).outcome p c = (u, c)) :
    (mapSignature f s).outcome p c = (s, c) := by
  have param : ∀ x ∈ s.params, (f x.type).outcome p c = (x.type, c) :=
    fun x inside => same _ (Signature.mem_parts.mpr (.inl ⟨x, inside, rfl⟩))
  unfold mapSignature
  rw [Check.bind_of_outcome (Check.mapM_same fun x inside => Check.bind_of_outcome (param x inside) _),
    Check.bind_of_outcome (same s.result (Signature.mem_parts.mpr (.inr rfl)))]
  rfl

theorem mapIndex_same {index : Option IndexInfo}
    (same : ∀ i ∈ index, (f i.type).outcome p c = (i.type, c)) :
    (mapIndex f index).outcome p c = (index, c) :=
  Check.mapM_option_same fun i found => Check.bind_of_outcome (same i found) _

theorem mapShape_same {s : Shape} (same : ∀ u ∈ s.parts, (f u).outcome p c = (u, c)) :
    (mapShape f s).outcome p c = (s, c) := by
  have members : ∀ m ∈ s.members, (f m.type).outcome p c = (m.type, c) :=
    fun m inside => same _ (Shape.mem_parts.mpr (.inl ⟨m, inside, rfl⟩))
  have call : (s.call.mapM (mapSignature f)).outcome p c = (s.call, c) :=
    Check.mapM_same fun x inside => mapSignature_same fun u part =>
      same u (Shape.mem_parts.mpr (.inr (.inl ⟨x, inside, part⟩)))
  have construct : (s.construct.mapM (mapSignature f)).outcome p c = (s.construct, c) :=
    Check.mapM_same fun x inside => mapSignature_same fun u part =>
      same u (Shape.mem_parts.mpr (.inr (.inr (.inl ⟨x, inside, part⟩))))
  have stringIndex : (mapIndex f s.stringIndex).outcome p c = (s.stringIndex, c) :=
    mapIndex_same fun i found =>
      same _ (Shape.mem_parts.mpr (.inr (.inr (.inr (.inl ⟨i, found, rfl⟩)))))
  have numberIndex : (mapIndex f s.numberIndex).outcome p c = (s.numberIndex, c) :=
    mapIndex_same fun i found =>
      same _ (Shape.mem_parts.mpr (.inr (.inr (.inr (.inr ⟨i, found, rfl⟩)))))
  unfold mapShape
  rw [Check.bind_of_outcome (Check.mapM_same fun m inside => Check.bind_of_outcome (members m inside) _),
    Check.bind_of_outcome call, Check.bind_of_outcome construct, Check.bind_of_outcome stringIndex,
    Check.bind_of_outcome numberIndex]
  rfl

end

section

variable {f : Substitution → TypeId → Check TypeId} {p : Program} {c : Checker}
  {map : Substitution}

/-- A substitution that gives back each part, also below a parameter, gives back the whole. -/
theorem mapParts_same {data : TypeData}
    (same : ∀ map u, c.arena.Spares map u → (f map u).outcome p c = (u, c))
    (spared : ∀ key image, map.lookup key = some image →
      ∀ u ∈ data.openParts key, c.arena.Occurs key u → image = key) :
    (mapParts f map data).outcome p c = (data, c) := by
  have part : ∀ u, (∀ key, u ∈ data.openParts key) → (f map u).outcome p c = (u, c) :=
    fun u inside => same map u fun key image found => spared key image found u (inside key)
  cases data with
  | union list | intersection list | tuple list | reference _ list | nominal _ list
  | unresolved _ list =>
      exact Check.bind_of_outcome (Check.mapM_same fun u inside => part u fun _ => inside) _
  | object shape =>
      exact Check.bind_of_outcome (mapShape_same fun u inside => part u fun _ => inside) _
  | keyOf inner => exact Check.bind_of_outcome (part inner fun _ => List.mem_cons_self) _
  | indexedAccess object index =>
      have key := part index fun _ => List.mem_cons_of_mem _ List.mem_cons_self
      exact (Check.bind_of_outcome (part object fun _ => List.mem_cons_self) _).trans
        (Check.bind_of_outcome key _)
  | mapped m =>
      have constraint := part m.constraint fun key => TypeData.constraint_mem_openParts key m
      have template : c.arena.Spares (map.filter (·.1 ≠ m.param)) m.template := by
        intro key image found occurs
        rw [Arena.lookup_filter_ne] at found
        split at found
        · cases found
        · rename_i other
          exact spared key image found _ (TypeData.template_mem_openParts other) occurs
      exact (Check.bind_of_outcome constraint _).trans (Check.bind_of_outcome (same _ _ template) _)
  | _ => rfl

end

variable (calls : Calls) {p : Program} {c : Checker}

theorem substituteAt_same (n : Nat) (map : Substitution) (t : TypeId) (spared : c.arena.Spares map t) :
    (substituteAt calls n map t).outcome p c = (t, c) := by
  -- by induction on the depth, so that it does not matter that types can contain themselves
  induction n generalizing map t with
  | zero =>
      unfold substituteAt
      cases found : map.lookup t with
      | none => rfl
      | some image =>
          rw [spared.image found]
          rfl
  | succ n ih =>
      unfold substituteAt
      cases found : map.lookup t with
      | some image =>
          dsimp only
          rw [spared.image found]
          rfl
      | none =>
          have parts : ∀ key image, map.lookup key = some image →
              ∀ u ∈ (c.arena.info t).data.openParts key, c.arena.Occurs key u → image = key :=
            fun key image found u inside occurs =>
              spared key image found (.head (List.mem_append_right _ inside) occurs)
          have args : ∀ a ∈ (c.arena.info t).writtenAs,
              (a.args.mapM (substituteAt calls n map)).outcome p c = (a.args, c) :=
            fun a here => Check.mapM_same fun u inside => ih map u (spared.arg (by
              simp [AliasRef.parts, Option.mem_def.mp here, inside]))
          dsimp only
          rw [Check.outcome_bind, Check.outcome_info,
            Check.bind_of_outcome (Check.mapM_option_same fun a here => Check.bind_of_outcome (args a here) _),
            Check.bind_of_outcome (mapParts_same ih parts), if_pos ⟨rfl, rfl⟩]
          rfl

theorem substituteShape_same {map : Substitution} {s : Shape}
    (spared : ∀ u ∈ s.parts, c.arena.Spares map u) :
    (substituteShape calls map s).outcome p c = (s, c) :=
  mapShape_same fun u inside => substituteAt_same calls maxDepth map u (spared u inside)

/-- The members of an instance without a shortcut: those of its symbol with the arguments put in for
the parameters. -/
def substitutedShape (symbol : SymbolId) (args : List TypeId) : Check Shape := do
  let shape ← calls.ask (.structure_ symbol)
  let params ← calls.ask (.typeParams symbol)
  substituteShape calls (params.zip args) shape

theorem instanceShape_eq (symbol : SymbolId) (args : List TypeId) (p : Program) (c : Checker) :
    (instanceShape calls symbol args).outcome p c =
      (substitutedShape calls symbol args).outcome p c := by
  unfold instanceShape substitutedShape
  simp only [Check.outcome_bind]
  split
  · rename_i short
    refine (substituteShape_same calls fun u _ => ?_).symm
    simp only [Bool.or_eq_true, List.isEmpty_iff, decide_eq_true_eq] at short
    rcases short with none | own
    · rw [none]
      exact Arena.spares_nil _ u
    · rw [own]
      exact Arena.spares_self _ args u
  · rfl

/-- A substitution that maps each of its keys that a type reaches to itself gives the type back and
leaves the state as it is. So the members of an instance are the same with the shortcut for an
instance of the parameters themselves as without. -/
theorem substitute_untouched (p : Program) (c : Checker) (map : Substitution) (t : TypeId)
    (fixed : c.arena.Fixes map t) :
    (substitute calls map t).outcome p c = (t, c) ∧
      ∀ symbol args, (instanceShape calls symbol args).outcome p c =
        (substitutedShape calls symbol args).outcome p c := by
  refine ⟨?_, fun symbol args => instanceShape_eq calls symbol args p c⟩
  unfold substitute
  split
  · rfl
  · exact substituteAt_same calls maxDepth map t fixed.spares

/-- Two type parameters, and an object written as an alias of the first that has itself as a
member. -/
def chained : Checker where
  bindings := {}
  arena :=
    let a := (Arena.initial.add (.typeParameter { name := "T" })).2
    let a := (a.add (.typeParameter { name := "U" })).2
    let value : Member := ⟨"value", ⟨14⟩, false, false, ""⟩
    let next : Member := ⟨"next", ⟨16⟩, true, false, ""⟩
    (a.addInfo ⟨.object { members := [value, next] }, some ⟨⟨0⟩, [⟨14⟩]⟩⟩).2

/-- The first parameter is put for itself, and the second is not there. -/
theorem chained_untouched :
    (substitute Checker.calls [(⟨14⟩, ⟨14⟩), (⟨15⟩, ⟨2⟩)] ⟨16⟩).outcome {} chained = (⟨16⟩, chained) := by
  refine (substitute_untouched Checker.calls {} chained _ _ fun key image found reaches => ?_).1
  have leaf : (chained.arena.info ⟨14⟩).parts = [] := by cbv
  have around : (chained.arena.info ⟨16⟩).parts = [⟨14⟩, ⟨14⟩, ⟨16⟩] := by cbv
  have met : key = ⟨14⟩ ∨ key = ⟨16⟩ := by
    refine reaches.closed (fun u => u = ⟨14⟩ ∨ u = ⟨16⟩) (.inr rfl) ?_
    rintro t (rfl | rfl) u inside
    · simp [leaf] at inside
    · simpa [around] using inside
  rcases met with rfl | rfl
  · exact (Option.some.inj found).symm
  · cases found

end Checker

end ApiDocs
