import ApiDocs.Bindings.Follow

set_option autoImplicit false

/-!
Following imports and exports adds symbols and changes none.
-/

namespace ApiDocs

/-- Symbols that are there stay as they are, and so do the names of files and of the global scope.
What is new stands for a package without typings or for a whole module. -/
structure Bindings.Extends (b b' : Bindings) : Prop where
  symbol : ∀ s x, b.symbol? s = some x → b'.symbol? s = some x
  fresh : ∀ s x, b'.symbol? s = some x →
    b.symbol? s = some x ∨ x.kind = .external ∨ x.kind = .moduleNamespace
  files : b'.files = b.files
  global : b'.global = b.global

namespace Bindings.Extends

theorem refl (b : Bindings) : b.Extends b :=
  ⟨fun _ _ h => h, fun _ _ h => Or.inl h, rfl, rfl⟩

theorem trans {a b c : Bindings} (first : a.Extends b) (second : b.Extends c) : a.Extends c where
  symbol s x known := second.symbol s x (first.symbol s x known)
  fresh s x known := by
    rcases second.fresh s x known with old | new
    · exact first.fresh s x old
    · exact Or.inr new
  files := second.files.trans first.files
  global := second.global.trans first.global

theorem addSymbol (b : Bindings) (x : Symbol)
    (kind : x.kind = .external ∨ x.kind = .moduleNamespace) : b.Extends (b.addSymbol x).2 where
  symbol s y known := by
    simp only [symbol?, Bindings.addSymbol, Array.getElem?_push] at known ⊢
    split
    · rename_i last
      rw [last, Array.getElem?_eq_none (Nat.le_refl _)] at known
      cases known
    · exact known
  fresh s y known := by
    simp only [symbol?, Bindings.addSymbol, Array.getElem?_push] at known ⊢
    split at known
    · exact Or.inr (Option.some.inj known ▸ kind)
    · exact Or.inl known
  files := rfl
  global := rfl

end Bindings.Extends

namespace Bindings

theorem extends_moduleNamespace (b : Bindings) (p : Program) (file : FileId) :
    b.Extends (b.moduleNamespace p file).2 := by
  unfold moduleNamespace
  split
  · exact .refl b
  · have grown := Extends.addSymbol b
      { name := Path.moduleName (p.pathOf file), kind := .moduleNamespace, parent := none,
        global := false, decls := [⟨file, {}, .moduleNamespace file⟩] } (Or.inr rfl)
    exact ⟨grown.symbol, grown.fresh, rfl, rfl⟩

theorem extends_external (b : Bindings) (module name : String) :
    b.Extends (b.external module name).2 := by
  unfold external
  split
  · exact .refl b
  · have grown := Extends.addSymbol b
      { name, kind := .external, parent := none, global := false,
        decls := [⟨⟨0⟩, {}, .external module⟩] } (Or.inl rfl)
    exact ⟨grown.symbol, grown.fresh, rfl, rfl⟩

theorem extends_symbolFor? (b : Bindings) (p : Program) (referent : Option Referent) :
    b.Extends (b.symbolFor? p referent).2 := by
  cases referent with
  | none => exact .refl b
  | some referent =>
      cases referent with
      | symbol id => exact .refl b
      | exportsOf file => exact extends_moduleNamespace b p file
      | external module name => exact extends_external b module name

theorem extends_resolveAlias (b : Bindings) (p : Program) (s : SymbolId) (space : Space) :
    b.Extends (b.resolveAlias p s space).2 := extends_symbolFor? b p _

theorem extends_exportOf (b : Bindings) (p : Program) (file : FileId) (space : Space)
    (name : String) : b.Extends (b.exportOf p file space name).2 := extends_symbolFor? b p _

theorem extends_member (b : Bindings) (p : Program) (container : SymbolId) (space : Space)
    (name : String) : b.Extends (b.member p container space name).2 := by
  have first := extends_resolveAlias b p container space
  unfold member
  split
  · rename_i b' found
    rw [found] at first
    exact first
  · rename_i id b' found
    rw [found] at first
    split
    · exact first
    · split
      · exact first
      · exact first.trans (extends_exportOf b' p _ space name)
      · exact first.trans (extends_external b' _ name)
      · exact first

end Bindings

end ApiDocs
