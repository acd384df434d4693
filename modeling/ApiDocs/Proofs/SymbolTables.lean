import Mathlib
import ApiDocs.Proofs.Namespaces.Around
import ApiDocs.Proofs.Safety.Rules

set_option autoImplicit false

/-!
The symbols of a program and the tables that name them are well formed, from the time when the
program is bound and however imports and exports are followed later. Whatever relies on their form
may do so: the walk outwards through namespaces ends, and nothing is looked for behind the last
symbol.
-/

namespace ApiDocs

open Syntax

/-- Whether a declaration is an import or another name of a local symbol. -/
def DeclNode.isAlias : DeclNode → Bool
  | .imported _ _ => true
  | .localAlias _ => true
  | _ => false

theorem DeclNode.isAlias_iff (node : DeclNode) : node.isAlias = true ↔ node.kind = .redirect := by
  cases node <;> simp [isAlias, kind]

namespace Bindings

/-- Whether an id is the one of a symbol that is there. -/
def InRange (b : Bindings) (s : SymbolId) : Prop := s.index < b.symbols.size

theorem inRange_iff {b : Bindings} {s : SymbolId} : b.InRange s ↔ (b.symbol? s).isSome := by
  simp [InRange, symbol?]

/-! ### Namespaces and aliases -/

/-- What holds of every symbol: it stands in a namespace if it stands in another symbol, and an
alias is declared once. -/
structure Linked (b : Bindings) : Prop where
  parent : ∀ s x holder, b.symbol? s = some x → x.parent = some holder →
    b.kind? holder = some .namespaceDecl
  single : ∀ s x, b.symbol? s = some x → x.kind = .redirect → ∃ d, x.decls = [d]

namespace Linked

variable {b b' : Bindings}

/-- Symbols that stay where they are and get no declarations, if they are aliases. -/
theorem of_symbols (linked : b.Linked) (kinds : ∀ s k, b.kind? s = some k → b'.kind? s = some k)
    (old : ∀ s x, b'.symbol? s = some x → ∃ y, b.symbol? s = some y ∧ x.parent = y.parent ∧
      x.kind = y.kind ∧ (x.decls = y.decls ∨ y.kind ≠ .redirect)) : b'.Linked where
  parent s x holder found within := by
    obtain ⟨y, before, parent, _⟩ := old s x found
    exact kinds holder _ (linked.parent s y holder before (parent.symm.trans within))
  single s x found redirect := by
    obtain ⟨y, before, _, kind, same | other⟩ := old s x found
    · rw [same]
      exact linked.single s y before (kind.symm.trans redirect)
    · exact absurd (kind.symm.trans redirect) other

theorem addSymbol (linked : b.Linked) {x : Symbol}
    (parent : ∀ holder, x.parent = some holder → b.kind? holder = some .namespaceDecl)
    (single : ∃ d, x.decls = [d]) : (b.addSymbol x).2.Linked where
  parent s y holder found within := by
    refine kind?_addSymbol x ?_
    rw [symbol?_addSymbol] at found
    split at found
    · cases found
      exact parent holder within
    · exact linked.parent s y holder found within
  single s y found redirect := by
    rw [symbol?_addSymbol] at found
    split at found
    · cases found
      exact single
    · exact linked.single s y found redirect

theorem insertAll (linked : b.Linked) (t : Table) (spaces : List Space) (name : String)
    (s : SymbolId) : (b.modifyTable t fun table => table.insertAll spaces name s).Linked := by
  refine linked.of_symbols (grows_insertAll b t spaces name s).kinds fun s x found => ?_
  obtain ⟨y, members, before, rfl⟩ := symbol?_of_modifyTable t _ found
  exact ⟨y, before, rfl, rfl, Or.inl rfl⟩

/-- Kinds whose declarations are put together are no aliases. -/
theorem appendDecl (linked : b.Linked) {changed : SymbolId} {kind : SymbolKind}
    (merges : kind.merges = true) (known : b.kind? changed = some kind) (decl : SymbolDecl) :
    Linked { b with symbols := b.symbols.modify changed.index fun x =>
      { x with decls := x.decls ++ [decl] } } := by
  refine linked.of_symbols (grows_modifySymbol b changed
    (fun x => { x with decls := x.decls ++ [decl] }) (fun _ => rfl) fun _ _ _ _ h => h).kinds
    fun s x found => ?_
  rw [symbol?_modify] at found
  split at found
  · rename_i same
    obtain rfl : changed = s := congrArg SymbolId.mk same
    obtain ⟨y, before, rfl⟩ := Option.map_eq_some_iff.mp found
    refine ⟨y, before, rfl, rfl, Or.inr fun redirect => ?_⟩
    simp only [kind?, before, Option.map_some, redirect, Option.some.injEq] at known
    subst known
    cases merges
  · exact ⟨x, found, rfl, rfl, Or.inl rfl⟩

end Linked

theorem Site.Valid.parent_kind {site : Site} {b : Bindings} (valid : site.Valid b)
    {holder : SymbolId} (within : site.parent = some holder) :
    b.kind? holder = some .namespaceDecl := by
  obtain ⟨file, table, parent, global⟩ := site
  cases table with
  | file => cases valid.2.1.symm.trans within
  | global => cases valid.1.symm.trans within
  | members other =>
      cases valid.1.symm.trans within
      exact valid.2

theorem Linked.declare {b : Bindings} (linked : b.Linked) {site : Site} (valid : site.Valid b)
    (spaces : List Space) (name : String) (doc : DocComment) (node : DeclNode) :
    (b.declare site spaces name node.kind doc node).2.Linked := by
  unfold Bindings.declare
  dsimp only
  split
  · rename_i s found
    have kind := (Option.filter_eq_some_iff.mp found).2
    simp only [Bool.and_eq_true, decide_eq_true_eq] at kind
    exact linked.appendDecl kind.1 kind.2 _
  · exact (linked.addSymbol (fun holder within => valid.parent_kind within) ⟨_, rfl⟩).insertAll
      site.table spaces name _

theorem Binds.linked {n : Nat} {b b' : Bindings} (binds : Binds n b b') (linked : b.Linked) :
    b'.Linked := by
  induction binds with
  | refl => exact linked
  | trans _ _ first second => exact second (first linked)
  | declare valid spaces name doc node => exact linked.declare valid spaces name doc node
  | redirect valid =>
      exact linked.addSymbol (fun holder within => valid.parent_kind within) ⟨_, rfl⟩
  | exports | star | openFile => exact ⟨linked.parent, linked.single⟩

theorem linked_empty : Linked {} where
  parent _ _ _ found := by cases found
  single _ _ found := by cases found

theorem linked_ofProgram (p : Program) : (ofProgram p).Linked :=
  (binds_ofProgram p).linked linked_empty

/-! ### Following imports and exports -/

namespace Linked

variable {b : Bindings} (linked : b.Linked) (p : Program)

include linked

theorem moduleNamespace (file : FileId) : (b.moduleNamespace p file).2.Linked := by
  unfold Bindings.moduleNamespace
  split
  · exact linked
  · have added := linked.addSymbol (x := moduleSymbol p file) (fun _ known => by cases known) ⟨_, rfl⟩
    exact ⟨added.parent, added.single⟩

theorem external (module name : String) : (b.external module name).2.Linked := by
  unfold Bindings.external
  split
  · exact linked
  · have added := linked.addSymbol (x := externalSymbol module name) (fun _ known => by cases known) ⟨_, rfl⟩
    exact ⟨added.parent, added.single⟩

theorem symbolFor? (referent : Option Referent) : (b.symbolFor? p referent).2.Linked := by
  cases referent with
  | none => exact linked
  | some referent =>
      cases referent with
      | symbol s => exact linked
      | exportsOf file => exact linked.moduleNamespace p file
      | external module name => exact linked.external module name

theorem member (container : SymbolId) (space : Space) (name : String) :
    (b.member p container space name).2.Linked := by
  have first : (b.resolveAlias p container space).2.Linked := linked.symbolFor? p _
  unfold Bindings.member
  split
  · rename_i b' found
    rw [found] at first
    exact first
  · rename_i s b' found
    rw [found] at first
    split
    · exact first
    · split
      · exact first
      · exact first.symbolFor? p _
      · exact first.external _ name
      · exact first

end Linked

/-- A question about names that may add symbols. -/
inductive Access where
  | resolveAlias (s : SymbolId) (space : Space)
  | exportOf (file : FileId) (space : Space) (name : String)
  | member (container : SymbolId) (space : Space) (name : String)
  | moduleNamespace (file : FileId)
  | external (module name : String)

/-- The answer, and the symbols as they are then. -/
def Access.run (p : Program) (b : Bindings) : Access → Option SymbolId × Bindings
  | .resolveAlias s space => b.resolveAlias p s space
  | .exportOf file space name => b.exportOf p file space name
  | .member container space name => b.member p container space name
  | .moduleNamespace file => ((b.moduleNamespace p file).1, (b.moduleNamespace p file).2)
  | .external module name => ((b.external module name).1, (b.external module name).2)

/-- The symbols after questions were asked one after another. -/
def runAll (p : Program) (b : Bindings) (accesses : List Access) : Bindings :=
  accesses.foldl (fun b a => (a.run p b).2) b

section

variable {p : Program} {b : Bindings}

theorem Linked.run (linked : b.Linked) (a : Access) : (a.run p b).2.Linked := by
  cases a with
  | resolveAlias | exportOf => exact linked.symbolFor? p _
  | member container space name => exact linked.member p container space name
  | moduleNamespace file => exact linked.moduleNamespace p file
  | external module name => exact linked.external module name

theorem Proper.run (proper : b.Proper p) (a : Access) : (a.run p b).2.Proper p := by
  cases a with
  | resolveAlias s space => exact (b.follows_resolveAlias p s space).proper proper
  | exportOf file space name => exact (b.follows_exportOf p file space name).proper proper
  | member container space name => exact (b.follows_member p container space name).proper proper
  | moduleNamespace file => exact proper_moduleNamespace proper file
  | external module name => exact proper_external proper module name

theorem linked_runAll (linked : b.Linked) (accesses : List Access) :
    (b.runAll p accesses).Linked := by
  induction accesses generalizing b with
  | nil => exact linked
  | cons a rest ih => exact ih (linked.run a)

theorem proper_runAll (proper : b.Proper p) (accesses : List Access) :
    (b.runAll p accesses).Proper p := by
  induction accesses generalizing b with
  | nil => exact proper
  | cons a rest ih => exact ih (proper.run a)

/-- An answer is a symbol that is there. -/
theorem Proper.inRange_run (proper : b.Proper p) (a : Access) {s : SymbolId}
    (answer : (a.run p b).1 = some s) : (a.run p b).2.InRange s := by
  rw [inRange_iff]
  cases a with
  | resolveAlias redirect space =>
      exact Check.answer_there proper (l := .aliased redirect space) answer
  | exportOf file space name =>
      exact Check.answer_there proper (l := .exported file space name) answer
  | member container space name => exact Check.member_there proper answer
  | moduleNamespace file =>
      cases answer
      exact Option.isSome_iff_exists.mpr
        ⟨_, (Referent.isSymbol_symbolFor proper (.exportsOf file)).2⟩
  | external module name =>
      cases answer
      exact Option.isSome_iff_exists.mpr
        ⟨_, (Referent.isSymbol_symbolFor proper (.external module name)).2⟩

end

/-! ### Well-formed tables -/

/-- What every symbol and every table of names promises. -/
structure WellFormed (b : Bindings) : Prop where
  tables : ∀ (t : Table) space name s, (b.table t).get? space name = some s → b.InRange s
  exports : ∀ file space name s, (b.scope file).exports.get? space name = some s → b.InRange s
  declared : ∀ s x, b.symbol? s = some x → x.decls ≠ []
  parent : ∀ s x holder, b.symbol? s = some x → x.parent = some holder →
    holder.index < s.index ∧ b.kind? holder = some .namespaceDecl
  redirect : ∀ s x, b.symbol? s = some x → x.kind = .redirect →
    ∃ d, x.decls = [d] ∧ d.node.isAlias = true
  plain : ∀ s x, b.symbol? s = some x → x.kind ≠ .redirect →
    ∀ d ∈ x.decls, d.node.isAlias = false

theorem Placed.wellFormed {b : Bindings} (placed : b.Placed) (linked : b.Linked) :
    b.WellFormed where
  tables t space name s known := by
    obtain ⟨x, found, _⟩ := placed.tables t space name s known
    exact index_lt_of_symbol? found
  exports file space name s known := inRange_iff.mpr (placed.exports file space name s known)
  declared s x found := (placed.declared s x found).1
  parent s x holder found within :=
    ⟨placed.parent s x holder found within, linked.parent s x holder found within⟩
  redirect s x found kind := by
    obtain ⟨d, only⟩ := linked.single s x found kind
    refine ⟨d, only, d.node.isAlias_iff.mpr ?_⟩
    exact ((placed.declared s x found).2 d (only ▸ List.mem_singleton_self d)).trans kind
  plain s x found other d inside := by
    refine Bool.eq_false_iff.mpr fun isAlias => other ?_
    exact ((placed.declared s x found).2 d inside).symm.trans (d.node.isAlias_iff.mp isAlias)

/-- What a name stands for is there. -/
theorem Placed.inRange_lookup {b : Bindings} (placed : b.Placed) {file : FileId}
    {inside : Option SymbolId} {space : Space} {name : String} {s : SymbolId}
    (found : b.lookup file inside space name = some s) : b.InRange s := by
  have named : ∃ t : Table, (b.table t).get? space name = some s := by
    simp only [lookup, Option.orElse_eq_orElse, Option.orElse_eq_or] at found
    rcases Option.or_eq_some_iff.mp found with within | ⟨_, outside⟩
    · obtain ⟨holder, _, member⟩ := List.exists_of_findSome?_eq_some within
      obtain ⟨x, there, entry⟩ := Option.bind_eq_some_iff.mp member
      refine ⟨.members holder, ?_⟩
      simp only [table, there, Option.map_some, Option.getD_some, entry]
    · rcases Option.or_eq_some_iff.mp outside with own | ⟨_, entry⟩
      · split at own
        · exact ⟨.file file, own⟩
        · cases own
      · exact ⟨.global, entry⟩
  obtain ⟨t, entry⟩ := named
  obtain ⟨x, there, _⟩ := placed.tables t space name s entry
  exact index_lt_of_symbol? there

/-- Symbols behind the ones that are there. -/
def beside (b : Bindings) (more : Array Symbol) : Bindings :=
  { b with symbols := b.symbols ++ more }

theorem keptIn_beside (b : Bindings) (more : Array Symbol) : b.KeptIn (b.beside more) where
  symbol _ _ found := (Array.getElem?_append_left (index_lt_of_symbol? found)).trans found
  files := rfl
  global := rfl

/-- Two states of the symbols that no question about a symbol of the first tells apart. -/
structure ReadsSame (p : Program) (b b' : Bindings) : Prop where
  lookup : ∀ file inside space name, (∀ holder ∈ inside, b.InRange holder) →
    b'.lookup file inside space name = b.lookup file inside space name
  displayName : ∀ s, b.InRange s → b'.displayName s = b.displayName s
  qualifiedName : ∀ s, b.InRange s → b'.qualifiedName s = b.qualifiedName s
  followSymbol : ∀ n space s, b.InRange s → b'.followSymbol p n space s = b.followSymbol p n space s
  followExport : ∀ n space file name,
    b'.followExport p n space file name = b.followExport p n space file name

/-- Nothing is looked for behind the last symbol. -/
theorem Placed.readsSame {b b' : Bindings} (placed : b.Placed) (kept : b.KeptIn b') (p : Program) :
    ReadsSame p b b' where
  lookup file _ space name there :=
    lookup_keptIn placed kept file (fun holder within => inRange_iff.mp (there holder within)) space
      name
  displayName _ there := displayName_keptIn placed kept (inRange_iff.mp there)
  qualifiedName _ there := qualifiedName_keptIn placed kept (inRange_iff.mp there)
  followSymbol n _ s there := (placed.follow_keptIn kept n).1 s (inRange_iff.mp there)
  followExport n _ file name := (placed.follow_keptIn kept n).2 file name

/-- However imports and exports are followed, the tables of a program are well formed. Answers are
symbols that are there; the walk outwards visits a symbol, then what is around the namespace that it
stands in, ever earlier symbols that are all there; and no symbols that might lie behind the last
one make a difference. -/
theorem wellFormed_runAll (p : Program) (accesses : List Access) :
    let b := (ofProgram p).runAll p accesses
    b.WellFormed ∧
      (∀ (a : Access) s, (a.run p b).1 = some s → (a.run p b).2.InRange s) ∧
      (∀ file inside space name s, b.lookup file inside space name = some s → b.InRange s) ∧
      (b.enclosing none = [] ∧ ∀ s, b.enclosing (some s) = s :: b.enclosing (b.parent? s)) ∧
      (∀ s, (b.enclosing (some s)).Pairwise fun inner outer => outer.index < inner.index) ∧
      (∀ s, b.InRange s → ∀ around ∈ b.enclosing (some s), b.InRange around) ∧
      ∀ more : Array Symbol, ReadsSame p b (b.beside more) := by
  have proper := proper_runAll (proper_ofProgram p) accesses
  have placed := proper.toPlaced
  refine ⟨placed.wellFormed (linked_runAll (linked_ofProgram p) accesses),
    fun a _ answer => proper.inRange_run a answer, fun _ _ _ _ _ => placed.inRange_lookup,
    ⟨rfl, enclosing_some placed⟩, fun s => pairwise_enclosingFrom placed _ s,
    fun s there around inside => ?_, fun more => placed.readsSame (keptIn_beside _ more) p⟩
  exact inRange_iff.mpr (mem_enclosingFrom placed (inRange_iff.mp there) inside)

/-- A namespace in a namespace with an interface, and an import. -/
def nested : Program :=
  let interface : Decl := .interface ⟨"Leaf", [], [], []⟩
  let inner : Decl := .namespaceDecl "Inner" (.block [({}, interface)])
  let outer : Decl := .namespaceDecl "Outer" (.block [({}, inner)])
  let item (kind : ItemKind) : Item := ⟨0, 0, none, {}, kind⟩
  { files := #[⟨⟨"/a.ts", #[], [item (.exportDecl outer),
      item (.importFrom [⟨"other", .default⟩] "./b")]⟩, "/a.ts", true⟩] }

/-- The interface comes after the namespaces around it, and the import has one declaration. -/
theorem nested_wellFormed :
    let b := (ofProgram nested).runAll nested [.external "lib" "x", .resolveAlias ⟨3⟩ .type]
    b.enclosing (some ⟨2⟩) = [⟨2⟩, ⟨1⟩, ⟨0⟩] ∧ b.kind? ⟨3⟩ = some .redirect ∧
      (∀ around ∈ b.enclosing (some ⟨2⟩), b.InRange around) ∧
      (∃ x d, b.symbol? ⟨3⟩ = some x ∧ x.decls = [d] ∧ d.node.isAlias = true) ∧
      ∀ more, (b.beside more).displayName ⟨2⟩ = b.displayName ⟨2⟩ := by
  have whole := wellFormed_runAll nested [.external "lib" "x", .resolveAlias ⟨3⟩ .type]
  obtain ⟨wellFormed, -, -, -, -, inside, same⟩ := whole
  have leaf : InRange ((ofProgram nested).runAll nested
      [.external "lib" "x", .resolveAlias ⟨3⟩ .type]) ⟨2⟩ := inRange_iff.mpr (by cbv)
  have redirect : kind? ((ofProgram nested).runAll nested
      [.external "lib" "x", .resolveAlias ⟨3⟩ .type]) ⟨3⟩ = some .redirect := by cbv
  obtain ⟨x, found, kind⟩ := Option.map_eq_some_iff.mp redirect
  obtain ⟨d, only, isAlias⟩ := wellFormed.redirect ⟨3⟩ x found kind
  exact ⟨by cbv, redirect, inside ⟨2⟩ leaf, ⟨x, d, found, only, isAlias⟩,
    fun more => (same more).displayName ⟨2⟩ leaf⟩

end Bindings

end ApiDocs
