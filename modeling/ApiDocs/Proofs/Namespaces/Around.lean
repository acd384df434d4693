import ApiDocs.Proofs.Exports

set_option autoImplicit false

/-!
The namespaces around a symbol. Each of them was there before what it holds, so that going outwards
comes to an end, stays among the symbols that are there, and finds the same whatever symbols are
added.
-/

namespace ApiDocs.Bindings

variable {b b' : Bindings} {s : SymbolId}

/-- A namespace around a symbol was there before it. -/
theorem Placed.parent?_lt (placed : b.Placed) {holder : SymbolId}
    (parent : b.parent? s = some holder) : holder.index < s.index ∧ (b.symbol? holder).isSome := by
  obtain ⟨x, found, within⟩ := Option.bind_eq_some_iff.mp parent
  have earlier := placed.parent s x holder found within
  have inside := Nat.lt_trans earlier (index_lt_of_symbol? found)
  exact ⟨earlier, by simp [symbol?, inside]⟩

/-- A symbol and the namespaces around it are there. -/
theorem mem_enclosingFrom (placed : b.Placed) {n : Nat} {holder : SymbolId}
    (there : (b.symbol? s).isSome) (around : holder ∈ b.enclosingFrom n (some s)) :
    (b.symbol? holder).isSome := by
  induction n generalizing s with
  | zero => cases around
  | succ n ih =>
      rcases List.mem_cons.mp around with same | outer
      · exact same ▸ there
      · cases parent : b.parent? s with
        | none =>
            rw [parent] at outer
            cases n <;> cases outer
        | some next =>
            rw [parent] at outer
            exact ih (placed.parent?_lt parent).2 outer

theorem symbol?_keptIn (kept : b.KeptIn b') (there : (b.symbol? s).isSome) :
    b'.symbol? s = b.symbol? s := by
  obtain ⟨x, found⟩ := Option.isSome_iff_exists.mp there
  rw [found]
  exact kept.symbol s x found

/-- The namespaces around a symbol stay as they are. Each was there before what it holds, so the
number of steps that are allowed is no matter. -/
theorem enclosingFrom_keptIn (placed : b.Placed) (kept : b.KeptIn b') {n n' : Nat}
    (there : (b.symbol? s).isSome) (enough : s.index < n) (enough' : s.index < n') :
    b'.enclosingFrom n' (some s) = b.enclosingFrom n (some s) := by
  induction n generalizing n' s with
  | zero => exact absurd enough (Nat.not_lt_zero _)
  | succ n ih =>
      obtain ⟨m, rfl⟩ : ∃ m, n' = m + 1 := ⟨n' - 1, by omega⟩
      have same : b'.parent? s = b.parent? s := by simp only [parent?, symbol?_keptIn kept there]
      simp only [enclosingFrom, same, List.cons.injEq, true_and]
      cases parent : b.parent? s with
      | none => cases n <;> cases m <;> rfl
      | some holder =>
          obtain ⟨earlier, outer⟩ := placed.parent?_lt parent
          exact ih outer (by omega) (by omega)

/-! ### The way outwards -/

section

variable (placed : b.Placed)

include placed

/-- Around a symbol are the namespace that it stands in and those around that one. -/
theorem enclosing_some (s : SymbolId) : b.enclosing (some s) = s :: b.enclosing (b.parent? s) := by
  refine congrArg (s :: ·) ?_
  cases parent : b.parent? s with
  | none => cases b.symbols.size <;> rfl
  | some holder =>
      obtain ⟨x, found⟩ := Option.isSome_iff_exists.mp (placed.parent?_lt parent).2
      have inside := index_lt_of_symbol? found
      exact enclosingFrom_keptIn placed (.refl b) (placed.parent?_lt parent).2 (by omega) inside

theorem index_le_of_mem_enclosingFrom {n : Nat} {holder : SymbolId}
    (around : holder ∈ b.enclosingFrom n (some s)) : holder.index ≤ s.index := by
  induction n generalizing s with
  | zero => cases around
  | succ n ih =>
      rcases List.mem_cons.mp around with same | outer
      · exact Nat.le_of_eq (congrArg SymbolId.index same)
      · cases parent : b.parent? s with
        | none =>
            rw [parent] at outer
            cases n <;> cases outer
        | some next =>
            rw [parent] at outer
            exact Nat.le_trans (ih outer) (Nat.le_of_lt (placed.parent?_lt parent).1)

/-- Outwards, symbols come earlier and earlier. -/
theorem pairwise_enclosingFrom (n : Nat) (s : SymbolId) :
    (b.enclosingFrom n (some s)).Pairwise (fun inner outer => outer.index < inner.index) := by
  induction n generalizing s with
  | zero => exact .nil
  | succ n ih =>
      refine List.pairwise_cons.mpr ?_
      cases parent : b.parent? s with
      | none => cases n <;> exact ⟨nofun, .nil⟩
      | some next =>
          refine ⟨fun holder around => ?_, ih next⟩
          exact Nat.lt_of_le_of_lt (index_le_of_mem_enclosingFrom placed around)
            (placed.parent?_lt parent).1

end

/-! ### Symbols that are added -/

section

variable (placed : b.Placed) (kept : b.KeptIn b') (there : (b.symbol? s).isSome)

include placed kept there

theorem enclosing_keptIn : b'.enclosing (some s) = b.enclosing (some s) := by
  obtain ⟨x, found⟩ := Option.isSome_iff_exists.mp there
  have first := index_lt_of_symbol? found
  have second := index_lt_of_symbol? (kept.symbol s x found)
  exact enclosingFrom_keptIn placed kept there (by omega) (by omega)

theorem names_keptIn :
    (b'.enclosing (some s)).map b'.nameOf = (b.enclosing (some s)).map b.nameOf := by
  rw [enclosing_keptIn placed kept there]
  refine List.map_congr_left fun holder around => ?_
  have symbol := symbol?_keptIn kept (mem_enclosingFrom placed there around)
  simp only [nameOf, symbol]

theorem displayName_keptIn : b'.displayName s = b.displayName s := by
  unfold displayName
  rw [names_keptIn placed kept there]

theorem qualifiedName_keptIn : b'.qualifiedName s = b.qualifiedName s := by
  have outermost : (b.enclosing (some s)).getLast?.bind b'.symbol? =
      (b.enclosing (some s)).getLast?.bind b.symbol? := by
    cases last : (b.enclosing (some s)).getLast? with
    | none => rfl
    | some holder =>
        have around := List.mem_of_getLast? last
        exact symbol?_keptIn kept (mem_enclosingFrom placed there around)
  unfold qualifiedName
  dsimp only
  rw [names_keptIn placed kept there, enclosing_keptIn placed kept there, outermost]

theorem nominalName_keptIn : b'.nominalName s = b.nominalName s := by
  have symbol := symbol?_keptIn kept there
  unfold nominalName kind? nameOf
  rw [symbol, displayName_keptIn placed kept there]

/-- The members that the namespaces around a place have stay as they are. -/
theorem members_keptIn (space : Space) (name : String) :
    ((b'.enclosing (some s)).findSome? fun id =>
        (b'.symbol? id).bind fun x => x.members.get? space name) =
      (b.enclosing (some s)).findSome? fun id =>
        (b.symbol? id).bind fun x => x.members.get? space name := by
  have members := List.map_congr_left fun id (around : id ∈ b.enclosing (some s)) =>
    congrArg (fun found : Option Symbol => found.bind fun x => x.members.get? space name)
      (symbol?_keptIn kept (mem_enclosingFrom placed there around))
  rw [enclosing_keptIn placed kept there]
  simpa only [List.findSome?_map, Function.id_comp] using congrArg (List.findSome? id) members

end

/-- What a name stands for inside a namespace does not change. -/
theorem lookup_keptIn (placed : b.Placed) (kept : b.KeptIn b') (file : FileId)
    {inside : Option SymbolId} (there : ∀ holder ∈ inside, (b.symbol? holder).isSome)
    (space : Space) (name : String) :
    b'.lookup file inside space name = b.lookup file inside space name := by
  have scopes : b'.scope file = b.scope file := by
    unfold scope
    rw [kept.files]
  unfold lookup
  rw [scopes, kept.global]
  cases inside with
  | none => rfl
  | some holder => rw [members_keptIn placed kept (there holder rfl)]

end ApiDocs.Bindings
