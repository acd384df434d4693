import ApiDocs.Proofs.Binding

set_option autoImplicit false

/-!
What the tables of a program promise about its symbols. Whatever a table names is a symbol that
lives there, every symbol has declarations, all of its kind, and a namespace comes before what it
holds. Binding a program establishes this, and following imports and exports keeps it.
-/

namespace ApiDocs

open Syntax

/-- Whether the names of a table can stand for the symbol. -/
def Symbol.LivesIn (x : Symbol) : Bindings.Table → Prop
  | .file file => x.parent = none ∧ x.global = false ∧ ∀ d ∈ x.decls, d.file = file
  | .global => x.parent = none ∧ x.global = true
  | .members holder => x.parent = some holder

namespace Bindings

/-- What binding a program promises. -/
structure Placed (b : Bindings) : Prop where
  tables : ∀ (t : Table) space name s, (b.table t).get? space name = some s →
    ∃ x, b.symbol? s = some x ∧ x.LivesIn t
  exports : ∀ file space name s, (b.scope file).exports.get? space name = some s →
    (b.symbol? s).isSome
  declared : ∀ s x, b.symbol? s = some x → x.decls ≠ [] ∧ ∀ d ∈ x.decls, d.node.kind = x.kind
  parent : ∀ s x holder, b.symbol? s = some x → x.parent = some holder → holder.index < s.index

/-! ### Steps -/

theorem index_lt_of_symbol? {b : Bindings} {s : SymbolId} {x : Symbol}
    (found : b.symbol? s = some x) : s.index < b.symbols.size :=
  (Array.getElem?_eq_some_iff.mp found).1

/-- A table is not touched by symbols that change beside their members. -/
theorem table_modifySymbol (b : Bindings) (changed : SymbolId) (f : Symbol → Symbol)
    (members : ∀ x, (f x).members = x.members) (t : Table) :
    table { b with symbols := b.symbols.modify changed.index f } t = b.table t := by
  cases t with
  | file | global => rfl
  | members holder =>
      simp only [table, symbol?_modify]
      split
      · cases b.symbol? holder with
        | none => rfl
        | some x => simp only [Option.map_some, Option.getD_some, members]
      · rfl

theorem table_addSymbol (b : Bindings) (x : Symbol) (empty : x.members = {}) (t : Table) :
    (b.addSymbol x).2.table t = b.table t := by
  cases t with
  | file | global => rfl
  | members holder =>
      simp only [table, symbol?_addSymbol]
      split
      · rename_i last
        have absent : b.symbol? holder = none := by
          unfold symbol?
          rw [last]
          exact Array.getElem?_eq_none (Nat.le_refl _)
        rw [absent, Option.map_some, Option.getD_some, empty]
        rfl
      · rfl

/-- The scope of a file stays as it was, or it is the one that is changed. -/
theorem scope_modify_cases (b : Bindings) (file : FileId) (f : FileScope → FileScope)
    (other : FileId) :
    scope { b with files := b.files.modify file.index f } other = b.scope other ∨
      (other = file ∧
        scope { b with files := b.files.modify file.index f } other = f (b.scope other)) := by
  rw [scope_modify]
  split
  · rename_i same
    cases there : b.files[other.index]? with
    | none => exact Or.inl (by simp only [scope, there, Option.map_none])
    | some scope =>
        refine Or.inr ⟨congrArg FileId.mk same.symm, ?_⟩
        simp only [Bindings.scope, there, Option.map_some, Option.getD_some]
  · exact Or.inl rfl

/-- Only the table that is changed changes, if it is there. -/
theorem table_modifyTable (b : Bindings) (t : Table) (f : SymbolTable → SymbolTable)
    (other : Table) :
    (b.modifyTable t f).table other = b.table other ∨
      (other = t ∧ (b.modifyTable t f).table other = f (b.table t)) := by
  cases t with
  | global =>
      cases other with
      | file | members => exact Or.inl rfl
      | global => exact Or.inr ⟨rfl, rfl⟩
  | file file =>
      cases other with
      | global | members => exact Or.inl rfl
      | file other =>
          rcases scope_modify_cases b file (fun s => { s with locals := f s.locals }) other with
            same | ⟨rfl, changed⟩
          · exact Or.inl (congrArg FileScope.locals same)
          · exact Or.inr ⟨rfl, congrArg FileScope.locals changed⟩
  | members holder =>
      cases other with
      | file | global => exact Or.inl rfl
      | members other =>
          simp only [table, modifyTable, symbol?_modify]
          split
          · rename_i same
            obtain rfl : other = holder := congrArg SymbolId.mk same.symm
            cases there : b.symbol? other with
            | none => exact Or.inl rfl
            | some x => exact Or.inr ⟨rfl, rfl⟩
          · exact Or.inl rfl

/-- Names are not touched by files that change beside their names. -/
theorem table_modifyFile (b : Bindings) (file : FileId) (f : FileScope → FileScope)
    (locals : ∀ scope, (f scope).locals = scope.locals) (t : Table) :
    table { b with files := b.files.modify file.index f } t = b.table t := by
  cases t with
  | global | members => rfl
  | file other =>
      rcases scope_modify_cases b file f other with same | ⟨_, changed⟩
      · exact congrArg FileScope.locals same
      · exact (congrArg FileScope.locals changed).trans (locals _)

theorem exports_modifyTable (b : Bindings) (t : Table) (f : SymbolTable → SymbolTable)
    (file : FileId) : ((b.modifyTable t f).scope file).exports = (b.scope file).exports := by
  cases t with
  | global | members => rfl
  | file changed =>
      rcases scope_modify_cases b changed (fun s => { s with locals := f s.locals }) file with
        same | ⟨_, after⟩
      · exact congrArg FileScope.exports same
      · exact (congrArg FileScope.exports after).trans rfl

theorem table_insertAll_cases {b : Bindings} {t other : Table} {spaces : List Space}
    {name asked : String} {s found : SymbolId} {space : Space}
    (known : ((b.modifyTable t fun table => table.insertAll spaces name s).table other).get? space
      asked = some found) :
    (b.table other).get? space asked = some found ∨ (other = t ∧ found = s) := by
  rcases table_modifyTable b t (fun table => table.insertAll spaces name s) other with
    same | ⟨rfl, changed⟩
  · rw [same] at known
    exact Or.inl known
  · rw [changed] at known
    rcases SymbolTable.get?_insertAll_cases known with before | ⟨_, new⟩
    · exact Or.inl before
    · exact Or.inr ⟨rfl, new⟩

/-- A symbol whose table changes stays the same otherwise. -/
theorem symbol?_of_modifyTable {b : Bindings} {s : SymbolId} {x : Symbol} (t : Table)
    (f : SymbolTable → SymbolTable) (found : (b.modifyTable t f).symbol? s = some x) :
    ∃ y members, b.symbol? s = some y ∧ x = { y with members } := by
  cases t with
  | file | global => exact ⟨x, x.members, found, rfl⟩
  | members holder =>
      simp only [modifyTable, symbol?_modify] at found
      split at found
      · obtain ⟨y, before, rfl⟩ := Option.map_eq_some_iff.mp found
        exact ⟨y, _, before, rfl⟩
      · exact ⟨x, x.members, found, rfl⟩

theorem symbol?_modifyTable {b : Bindings} {s : SymbolId} {x : Symbol} (t : Table)
    (f : SymbolTable → SymbolTable) (found : b.symbol? s = some x) :
    ∃ members, (b.modifyTable t f).symbol? s = some { x with members } := by
  cases t with
  | file | global => exact ⟨x.members, found⟩
  | members holder =>
      simp only [modifyTable, symbol?_modify, found]
      split
      · exact ⟨_, rfl⟩
      · exact ⟨x.members, rfl⟩

theorem symbol?_addSymbol_old {b : Bindings} {s : SymbolId} {x : Symbol} (new : Symbol)
    (found : b.symbol? s = some x) : (b.addSymbol new).2.symbol? s = some x := by
  rw [symbol?_addSymbol, if_neg (Nat.ne_of_lt (index_lt_of_symbol? found)), found]

/-- A new symbol that no table names yet. -/
theorem Placed.addSymbol {b : Bindings} (placed : b.Placed) {x : Symbol}
    (declared : x.decls ≠ [] ∧ ∀ d ∈ x.decls, d.node.kind = x.kind)
    (parent : ∀ holder, x.parent = some holder → (b.symbol? holder).isSome)
    (empty : x.members = {}) : (b.addSymbol x).2.Placed where
  tables t space name s known := by
    rw [table_addSymbol b x empty] at known
    obtain ⟨y, found, lives⟩ := placed.tables t space name s known
    exact ⟨y, symbol?_addSymbol_old x found, lives⟩
  exports file space name s known := by
    obtain ⟨y, found⟩ := Option.isSome_iff_exists.mp (placed.exports file space name s known)
    exact Option.isSome_iff_exists.mpr ⟨y, symbol?_addSymbol_old x found⟩
  declared s y found := by
    rw [symbol?_addSymbol] at found
    split at found
    · cases found
      exact declared
    · exact placed.declared s y found
  parent s y holder found within := by
    rw [symbol?_addSymbol] at found
    split at found
    · rename_i last
      cases found
      obtain ⟨z, there⟩ := Option.isSome_iff_exists.mp (parent holder within)
      rw [last]
      exact index_lt_of_symbol? there
    · exact placed.parent s y holder found within

/-- A name for a symbol that lives in the table. -/
theorem Placed.insertAll {b : Bindings} (placed : b.Placed) {t : Table} {s : SymbolId} {x : Symbol}
    (found : b.symbol? s = some x) (lives : x.LivesIn t) (spaces : List Space) (name : String) :
    (b.modifyTable t fun table => table.insertAll spaces name s).Placed where
  tables other space asked r known := by
    have before : ∃ y, b.symbol? r = some y ∧ y.LivesIn other := by
      rcases table_insertAll_cases known with before | ⟨rfl, rfl⟩
      · exact placed.tables other space asked r before
      · exact ⟨x, found, lives⟩
    obtain ⟨y, there, livesThere⟩ := before
    obtain ⟨members, after⟩ := symbol?_modifyTable t _ there
    refine ⟨_, after, ?_⟩
    cases other <;> exact livesThere
  exports file space asked r known := by
    rw [exports_modifyTable] at known
    obtain ⟨y, there⟩ := Option.isSome_iff_exists.mp (placed.exports file space asked r known)
    obtain ⟨members, after⟩ := symbol?_modifyTable t _ there
    exact Option.isSome_iff_exists.mpr ⟨_, after⟩
  declared r y after := by
    obtain ⟨z, members, before, rfl⟩ := symbol?_of_modifyTable t _ after
    exact placed.declared r z before
  parent r y holder after within := by
    obtain ⟨z, members, before, rfl⟩ := symbol?_of_modifyTable t _ after
    exact placed.parent r z holder before within

/-- A symbol lives in one table only, so one more declaration at a site whose table names it stands
in the file of the others. -/
theorem Site.Valid.livesIn_append {b : Bindings} {site : Site} (valid : site.Valid b) {t : Table}
    {x : Symbol} (lives : x.LivesIn site.table) (there : x.LivesIn t) (declared : x.decls ≠ [])
    (doc : DocComment) (node : DeclNode) :
    Symbol.LivesIn { x with decls := x.decls ++ [⟨site.file, doc, node⟩] } t := by
  cases t with
  | global | members => exact there
  | file file =>
      refine ⟨there.1, there.2.1, fun d inside => ?_⟩
      rcases List.mem_append.mp inside with old | new
      · exact there.2.2 d old
      · cases List.mem_singleton.mp new
        obtain ⟨first, listed⟩ := List.exists_mem_of_ne_nil _ declared
        obtain ⟨siteFile, table, parent, global⟩ := site
        cases table with
        | file other => exact valid.1.trans ((lives.2.2 first listed).symm.trans (there.2.2 first listed))
        | global => cases there.2.1.symm.trans lives.2
        | members holder => cases there.1.symm.trans lives

/-- One more declaration of a symbol, at a site whose table names it. -/
theorem Placed.appendDecl {b : Bindings} (placed : b.Placed) {site : Site} (valid : site.Valid b)
    {space : Space} {name : String} {s : SymbolId}
    (named : (b.table site.table).get? space name = some s) (doc : DocComment) {node : DeclNode}
    (kind : b.kind? s = some node.kind) :
    Placed { b with symbols := b.symbols.modify s.index fun x =>
      { x with decls := x.decls ++ [⟨site.file, doc, node⟩] } } := by
  obtain ⟨x, found, lives⟩ := placed.tables site.table space name s named
  have same : x.kind = node.kind := by
    unfold kind? at kind
    rw [found] at kind
    exact Option.some.inj kind
  refine ⟨fun t space asked r known => ?_, fun file space asked r known => ?_,
    fun r y after => ?_, fun r y holder after within => ?_⟩
  · rw [table_modifySymbol] at known
    · obtain ⟨y, there, livesThere⟩ := placed.tables t space asked r known
      rw [symbol?_modify, there]
      split
      · rename_i index
        obtain rfl : s = r := congrArg SymbolId.mk index
        cases there.symm.trans found
        exact ⟨_, rfl, valid.livesIn_append lives livesThere (placed.declared s x found).1 doc node⟩
      · exact ⟨y, rfl, livesThere⟩
    · exact fun _ => rfl
  · obtain ⟨y, there⟩ := Option.isSome_iff_exists.mp (placed.exports file space asked r known)
    rw [symbol?_modify, there]
    split <;> rfl
  · rw [symbol?_modify] at after
    split at after
    · rename_i index
      obtain rfl : s = r := congrArg SymbolId.mk index
      rw [found] at after
      cases after
      refine ⟨by simp, fun d inside => ?_⟩
      rcases List.mem_append.mp inside with old | new
      · exact (placed.declared s x found).2 d old
      · cases List.mem_singleton.mp new
        exact same.symm
    · exact placed.declared r y after
  · rw [symbol?_modify] at after
    split at after
    · obtain ⟨old, before, rfl⟩ := Option.map_eq_some_iff.mp after
      exact placed.parent r old holder before within
    · exact placed.parent r y holder after within

theorem Site.Valid.parent_isSome {site : Site} {b : Bindings} (valid : site.Valid b)
    {holder : SymbolId} (within : site.parent = some holder) : (b.symbol? holder).isSome := by
  obtain ⟨file, table, parent, global⟩ := site
  cases table with
  | file => cases valid.2.1.symm.trans within
  | global => cases valid.1.symm.trans within
  | members other =>
      cases valid.1.symm.trans within
      obtain ⟨x, found, _⟩ := Option.map_eq_some_iff.mp valid.2
      exact Option.isSome_iff_exists.mpr ⟨x, found⟩

/-- The symbol that a first declaration makes. -/
def declaredSymbol (site : Site) (name : String) (doc : DocComment) (node : DeclNode) : Symbol :=
  { name, kind := node.kind, parent := site.parent, global := site.global,
    decls := [⟨site.file, doc, node⟩] }

/-- A symbol with one declaration has declarations of its kind only. -/
theorem declared_singleton {x : Symbol} {file : FileId} {doc : DocComment} {node : DeclNode}
    (decls : x.decls = [⟨file, doc, node⟩]) (kind : node.kind = x.kind) :
    x.decls ≠ [] ∧ ∀ d ∈ x.decls, d.node.kind = x.kind := by
  rw [decls]
  refine ⟨List.cons_ne_nil _ _, fun d inside => ?_⟩
  cases List.mem_singleton.mp inside
  exact kind

theorem Site.Valid.lives {site : Site} {b : Bindings} (valid : site.Valid b) (name : String)
    (doc : DocComment) (node : DeclNode) :
    (declaredSymbol site name doc node).LivesIn site.table := by
  obtain ⟨file, table, parent, global⟩ := site
  cases table with
  | file other =>
      obtain ⟨here, outside, notGlobal⟩ := valid
      refine ⟨outside, notGlobal, fun d inside => ?_⟩
      cases List.mem_singleton.mp inside
      exact here
  | global => exact valid
  | members holder => exact valid.1

theorem Placed.declare {b : Bindings} (placed : b.Placed) {site : Site} (valid : site.Valid b)
    (spaces : List Space) (name : String) (doc : DocComment) (node : DeclNode) :
    (b.declare site spaces name node.kind doc node).2.Placed := by
  unfold Bindings.declare
  dsimp only
  split
  · rename_i s found
    obtain ⟨named, kind⟩ := Option.filter_eq_some_iff.mp found
    obtain ⟨space, _, known⟩ := List.exists_of_findSome?_eq_some named
    simp only [Bool.and_eq_true, decide_eq_true_eq] at kind
    exact placed.appendDecl valid known doc kind.2
  · have added := placed.addSymbol (x := declaredSymbol site name doc node)
      (declared_singleton rfl rfl) (fun holder within => valid.parent_isSome within) rfl
    exact added.insertAll ((symbol?_addSymbol _ _ _).trans (if_pos rfl))
      (valid.lives name doc node) spaces name

/-- Files may get exports that are there, and wildcard exports. -/
theorem Placed.modifyFile {b : Bindings} (placed : b.Placed) (file : FileId)
    (f : FileScope → FileScope) (locals : ∀ scope, (f scope).locals = scope.locals)
    (exports : ∀ scope space name s, (f scope).exports.get? space name = some s →
      scope.exports.get? space name = some s ∨ (b.symbol? s).isSome) :
    Placed { b with files := b.files.modify file.index f } where
  tables t space name s known := by
    rw [table_modifyFile b file f locals] at known
    exact placed.tables t space name s known
  exports other space name s known := by
    rcases scope_modify_cases b file f other with same | ⟨_, changed⟩
    · rw [same] at known
      exact placed.exports other space name s known
    · rw [changed] at known
      rcases exports (b.scope other) space name s known with before | new
      · exact placed.exports other space name s before
      · exact new
  declared := placed.declared
  parent := placed.parent

theorem Placed.openFile {b : Bindings} (placed : b.Placed) (isModule : Bool) :
    Placed { b with files := b.files.push { isModule } } where
  tables t space name s known := by
    cases t with
    | global | members => exact placed.tables _ space name s known
    | file other =>
        simp only [table, scope, Array.getElem?_push] at known
        split at known
        · cases space <;> cases known
        · exact placed.tables (.file other) space name s known
  exports other space name s known := by
    simp only [scope, Array.getElem?_push] at known
    split at known
    · cases space <;> cases known
    · exact placed.exports other space name s known
  declared := placed.declared
  parent := placed.parent

/-- What is exported was exported before or is one of the names that were bound. -/
theorem get?_foldl_insert_cases {bound : Bound} {t : SymbolTable} {space : Space} {name : String}
    {s : SymbolId}
    (known : (bound.foldl (fun t (space, name, id) => t.insert space name id) t).get? space name =
      some s) :
    t.get? space name = some s ∨ ∃ entry ∈ bound, entry.2.2 = s := by
  induction bound generalizing t with
  | nil => exact Or.inl known
  | cons entry rest ih =>
      rcases ih known with before | ⟨other, inside, same⟩
      · rcases SymbolTable.get?_insert_cases before with old | ⟨_, new⟩
        · exact Or.inl old
        · exact Or.inr ⟨entry, List.mem_cons_self, new.symm⟩
      · exact Or.inr ⟨other, List.mem_cons_of_mem _ inside, same⟩

theorem Binds.placed {n : Nat} {b b' : Bindings} (binds : Binds n b b') (placed : b.Placed) : b'.Placed := by
  induction binds with
  | refl => exact placed
  | trans _ _ first second => exact second (first placed)
  | declare valid spaces name doc node => exact placed.declare valid spaces name doc node
  | redirect valid name doc kind =>
      exact placed.addSymbol (declared_singleton rfl kind)
        (fun holder within => valid.parent_isSome within) rfl
  | @exports b bound known file =>
      refine placed.modifyFile file _ (fun _ => rfl) fun scope space name s after => ?_
      rcases get?_foldl_insert_cases after with before | ⟨entry, inside, rfl⟩
      · exact Or.inl before
      · exact Or.inr (by simpa [kind?] using known entry inside)
  | star _ file source =>
      exact placed.modifyFile file _ (fun _ => rfl) fun _ _ _ _ known => Or.inl known
  | openFile _ isModule => exact placed.openFile isModule

theorem placed_empty : Placed {} where
  tables t space _ _ known := by cases t <;> cases space <;> cases known
  exports _ space _ _ known := by cases space <;> cases known
  declared _ _ found := by cases found
  parent _ _ _ found := by cases found

/-! ### Following imports and exports -/

/-- The symbol that stands for all exports of a file. -/
def moduleSymbol (p : Program) (file : FileId) : Symbol :=
  { name := Path.moduleName (p.pathOf file), kind := .moduleNamespace, parent := none,
    global := false, decls := [⟨file, {}, .moduleNamespace file⟩] }

/-- The symbol for a name of a package without typings. -/
def externalSymbol (module name : String) : Symbol :=
  { name, kind := .external, parent := none, global := false,
    decls := [⟨⟨0⟩, {}, .external module⟩] }

/-- What the tables promise while imports and exports are followed. -/
structure Proper (b : Bindings) (p : Program) : Prop extends b.Placed where
  externals : ∀ module name s, b.externals.get? (module, name) = some s →
    b.symbol? s = some (externalSymbol module name)
  modules : ∀ file s, b.moduleNamespaces.get? file = some s → b.symbol? s = some (moduleSymbol p file)

/-- The tables of every program keep their promises. -/
theorem proper_ofProgram (p : Program) : (ofProgram p).Proper p := by
  have binds := binds_ofProgram p
  refine ⟨binds.placed placed_empty, fun module name s known => ?_, fun file s known => ?_⟩
  · rw [binds.grows.externals] at known
    cases known
  · rw [binds.grows.moduleNamespaces] at known
    cases known

theorem proper_moduleNamespace {b : Bindings} {p : Program} (proper : b.Proper p) (file : FileId) :
    (b.moduleNamespace p file).2.Proper p := by
  unfold moduleNamespace
  split
  · exact proper
  · have added := proper.toPlaced.addSymbol (x := moduleSymbol p file) (declared_singleton rfl rfl)
      (by intro _ parent; cases parent) rfl
    refine ⟨⟨added.tables, added.exports, added.declared, added.parent⟩,
      fun module name s known => ?_, fun other s known => ?_⟩
    · exact symbol?_addSymbol_old _ (proper.externals module name s known)
    · dsimp only at known
      rw [OrdMap.get?_insert] at known
      split at known
      · rename_i same
        cases known
        subst same
        exact (symbol?_addSymbol b (moduleSymbol p other) _).trans (if_pos rfl)
      · exact symbol?_addSymbol_old _ (proper.modules other s known)

theorem proper_external {b : Bindings} {p : Program} (proper : b.Proper p) (module name : String) :
    (b.external module name).2.Proper p := by
  unfold external
  split
  · exact proper
  · have added := proper.toPlaced.addSymbol (x := externalSymbol module name)
      (declared_singleton rfl rfl) (by intro _ parent; cases parent) rfl
    refine ⟨⟨added.tables, added.exports, added.declared, added.parent⟩,
      fun other asked s known => ?_, fun file s known => ?_⟩
    · dsimp only at known
      rw [OrdMap.get?_insert] at known
      split at known
      · rename_i same
        cases known
        cases same
        exact (symbol?_addSymbol b (externalSymbol module name) _).trans (if_pos rfl)
      · exact symbol?_addSymbol_old _ (proper.externals other asked s known)
    · exact symbol?_addSymbol_old _ (proper.modules file s known)

/-- What following imports and exports does: symbols and names stay as they are, and so do the
symbols that stand for packages and for modules. -/
structure Follows (p : Program) (b b' : Bindings) : Prop extends b.Extends b' where
  externals : ∀ key s, b.externals.get? key = some s → b'.externals.get? key = some s
  modules : ∀ file s, b.moduleNamespaces.get? file = some s →
    b'.moduleNamespaces.get? file = some s
  proper : b.Proper p → b'.Proper p

namespace Follows

variable {p : Program}

theorem refl (b : Bindings) : Follows p b b := ⟨.refl b, fun _ _ h => h, fun _ _ h => h, id⟩

theorem trans {a b c : Bindings} (first : Follows p a b) (second : Follows p b c) :
    Follows p a c where
  toExtends := first.toExtends.trans second.toExtends
  externals key s known := second.externals key s (first.externals key s known)
  modules file s known := second.modules file s (first.modules file s known)
  proper start := second.proper (first.proper start)

end Follows

theorem follows_moduleNamespace (b : Bindings) (p : Program) (file : FileId) :
    Follows p b (b.moduleNamespace p file).2 where
  toExtends := extends_moduleNamespace b p file
  externals key s known := by
    unfold moduleNamespace
    split <;> exact known
  modules other s known := by
    unfold moduleNamespace
    split
    · exact known
    · rename_i absent
      have differs : other ≠ file := by
        intro same
        rw [same, absent] at known
        cases known
      exact (OrdMap.get?_insert_other _ _ _ _ differs).trans known
  proper start := proper_moduleNamespace start file

theorem follows_external (b : Bindings) (p : Program) (module name : String) :
    Follows p b (b.external module name).2 where
  toExtends := extends_external b module name
  externals key s known := by
    unfold external
    split
    · exact known
    · rename_i absent
      have differs : key ≠ (module, name) := by
        intro same
        rw [same, absent] at known
        cases known
      exact (OrdMap.get?_insert_other _ _ _ _ differs).trans known
  modules file s known := by
    unfold external
    split <;> exact known
  proper start := proper_external start module name

theorem follows_symbolFor? (b : Bindings) (p : Program) (referent : Option Referent) :
    Follows p b (b.symbolFor? p referent).2 := by
  cases referent with
  | none => exact .refl b
  | some referent =>
      cases referent with
      | symbol s => exact .refl b
      | exportsOf file => exact follows_moduleNamespace b p file
      | external module name => exact follows_external b p module name

theorem follows_resolveAlias (b : Bindings) (p : Program) (s : SymbolId) (space : Space) :
    Follows p b (b.resolveAlias p s space).2 := follows_symbolFor? b p _

theorem follows_exportOf (b : Bindings) (p : Program) (file : FileId) (space : Space)
    (name : String) : Follows p b (b.exportOf p file space name).2 := follows_symbolFor? b p _

theorem follows_member (b : Bindings) (p : Program) (container : SymbolId) (space : Space)
    (name : String) : Follows p b (b.member p container space name).2 := by
  have first := follows_resolveAlias b p container space
  unfold member
  split
  · rename_i b' found
    rw [found] at first
    exact first
  · rename_i s b' found
    rw [found] at first
    split
    · exact first
    · split
      · exact first
      · exact first.trans (follows_exportOf b' p _ space name)
      · exact first.trans (follows_external b' p _ name)
      · exact first

end Bindings

end ApiDocs
