import ApiDocs.Proofs.Tables

set_option autoImplicit false

/-!
What the tables of a program promise about namespaces. A namespace is declared in both spaces, so a
name that one of them gives to a namespace is taken in the other one too. Exports stand in no
namespace, and no declaration makes a symbol for a package or for a whole module.
-/

namespace ApiDocs

open Syntax

/-- The spaces that a declaration names its symbol in. Where declarations of one kind make one
symbol, all of them name it in the same spaces. -/
def DeclNode.Fits (spaces : List Space) : DeclNode → Prop
  | .interface _ => spaces = [.type]
  | .function _ => spaces = [.value]
  | .namespaceDecl => spaces = Bindings.both
  | .external _ => False
  | .moduleNamespace _ => False
  | _ => True

theorem DeclNode.Fits.written {spaces : List Space} {node : DeclNode} (fits : node.Fits spaces) :
    node.kind ≠ .external ∧ node.kind ≠ .moduleNamespace := by
  cases node with
  | external | moduleNamespace => exact fits.elim
  | _ => exact ⟨nofun, nofun⟩

namespace Bindings

/-- Whether a name of a table stands for something. -/
def Has (b : Bindings) (t : Table) (space : Space) (name : String) : Prop :=
  ((b.table t).get? space name).isSome

theorem Has.grows {b b' : Bindings} {t : Table} {space : Space} {name : String}
    (has : b.Has t space name) (grown : b.Grows b') : b'.Has t space name := by
  obtain ⟨s, known⟩ := Option.isSome_iff_exists.mp has
  exact Option.isSome_iff_exists.mpr ⟨s, grown.names t space name s known⟩

/-- What binding a program promises about namespaces. -/
structure WellScoped (b : Bindings) : Prop extends b.Placed where
  paired : ∀ (t : Table) (space other : Space) name s, (b.table t).get? space name = some s →
    b.kind? s = some .namespaceDecl → b.Has t other name
  outermost : ∀ file space name s, (b.scope file).exports.get? space name = some s →
    b.parent? s = none
  written : ∀ s x, b.symbol? s = some x → x.kind ≠ .external ∧ x.kind ≠ .moduleNamespace

theorem kind?_of_symbol? {b : Bindings} {s : SymbolId} {x : Symbol}
    (found : b.symbol? s = some x) : b.kind? s = some x.kind := by
  rw [kind?, found, Option.map_some]

theorem parent?_of_symbol? {b : Bindings} {s : SymbolId} {x : Symbol}
    (found : b.symbol? s = some x) : b.parent? s = x.parent := by
  rw [parent?, found, Option.bind_some]

theorem mem_both (space : Space) : space ∈ both := by
  cases space <;> decide

/-! ### Steps -/

/-- Symbols that were there keep their kinds and parents. -/
def Keeps (b b' : Bindings) : Prop :=
  ∀ s x, b.symbol? s = some x → ∃ y, b'.symbol? s = some y ∧ y.kind = x.kind ∧ y.parent = x.parent

theorem Keeps.parent? {b b' : Bindings} (keeps : b.Keeps b') {s : SymbolId}
    (there : (b.symbol? s).isSome) : b'.parent? s = b.parent? s := by
  obtain ⟨x, found⟩ := Option.isSome_iff_exists.mp there
  obtain ⟨y, after, _, parent⟩ := keeps s x found
  rw [parent?_of_symbol? found, parent?_of_symbol? after, parent]

theorem Keeps.kind? {b b' : Bindings} (keeps : b.Keeps b') {s : SymbolId}
    (there : (b.symbol? s).isSome) : b'.kind? s = b.kind? s := by
  obtain ⟨x, found⟩ := Option.isSome_iff_exists.mp there
  obtain ⟨y, after, kind, _⟩ := keeps s x found
  rw [kind?_of_symbol? found, kind?_of_symbol? after, kind]

theorem keeps_addSymbol (b : Bindings) (new : Symbol) : b.Keeps (b.addSymbol new).2 :=
  fun _ x found => ⟨x, symbol?_addSymbol_old new found, rfl, rfl⟩

theorem keeps_modifySymbol (b : Bindings) (changed : SymbolId) (f : Symbol → Symbol)
    (kind : ∀ x, (f x).kind = x.kind) (parent : ∀ x, (f x).parent = x.parent) :
    b.Keeps { b with symbols := b.symbols.modify changed.index f } := by
  intro s x found
  rw [symbol?_modify, found]
  split
  · exact ⟨f x, rfl, kind x, parent x⟩
  · exact ⟨x, rfl, rfl, rfl⟩

theorem keeps_declare (b : Bindings) (site : Site) (spaces : List Space) (name : String)
    (kind : SymbolKind) (doc : DocComment) (node : DeclNode) :
    b.Keeps (b.declare site spaces name kind doc node).2 := by
  unfold declare
  dsimp only
  split
  · exact keeps_modifySymbol b _ _ (fun _ => rfl) fun _ => rfl
  · intro s x found
    obtain ⟨members, after⟩ := symbol?_modifyTable site.table _ (symbol?_addSymbol_old _ found)
    exact ⟨_, after, rfl, rfl⟩

theorem Binds.keeps {n : Nat} {b b' : Bindings} (binds : Binds n b b') : b.Keeps b' := by
  induction binds with
  | refl | exports | star | openFile => exact fun _ x found => ⟨x, found, rfl, rfl⟩
  | trans _ _ first second =>
      intro s x found
      obtain ⟨y, middle, kind, parent⟩ := first s x found
      obtain ⟨z, after, kind', parent'⟩ := second s y middle
      exact ⟨z, after, kind'.trans kind, parent'.trans parent⟩
  | declare => exact keeps_declare _ _ _ _ _ _ _
  | redirect => exact keeps_addSymbol _ _

/-- What a step must say about what is new: names of namespaces, exports and symbols. -/
theorem WellScoped.next {b b' : Bindings} (wellScoped : b.WellScoped) {n : Nat}
    (binds : Binds n b b')
    (names : ∀ t space name s, (b'.table t).get? space name = some s →
      (b.table t).get? space name = some s ∨
        (b'.kind? s = some .namespaceDecl → ∀ other, b'.Has t other name))
    (exports : ∀ file space name s, (b'.scope file).exports.get? space name = some s →
      (b.scope file).exports.get? space name = some s ∨ b'.parent? s = none)
    (symbols : ∀ s y, b'.symbol? s = some y → b.symbol? s = none →
      y.kind ≠ .external ∧ y.kind ≠ .moduleNamespace) : b'.WellScoped where
  toPlaced := binds.placed wellScoped.toPlaced
  paired t space other name s known kind := by
    rcases names t space name s known with before | new
    · obtain ⟨x, found, _⟩ := wellScoped.tables t space name s before
      rw [binds.keeps.kind? (Option.isSome_iff_exists.mpr ⟨x, found⟩)] at kind
      exact (wellScoped.paired t space other name s before kind).grows binds.grows
    · exact new kind other
  outermost file space name s known := by
    rcases exports file space name s known with before | new
    · rw [binds.keeps.parent? (wellScoped.exports file space name s before)]
      exact wellScoped.outermost file space name s before
    · exact new
  written s y after := by
    cases found : b.symbol? s with
    | none => exact symbols s y after found
    | some x =>
        obtain ⟨z, there, kind, _⟩ := binds.keeps s x found
        cases there.symm.trans after
        rw [kind]
        exact wellScoped.written s x found

/-- A declaration adds to a symbol of its kind that its name stands for. -/
theorem merging?_eq_some {b : Bindings} {site : Site} {spaces : List Space} {name : String}
    {kind : SymbolKind} {s : SymbolId} (found : b.merging? site spaces name kind = some s) :
    (∃ space ∈ spaces, (b.table site.table).get? space name = some s) ∧ kind.merges = true ∧
      b.kind? s = some kind := by
  obtain ⟨named, same⟩ := Option.filter_eq_some_iff.mp found
  simp only [Bool.and_eq_true, decide_eq_true_eq] at same
  exact ⟨List.exists_of_findSome?_eq_some named, same⟩

theorem declare_merging {b : Bindings} {site : Site} {spaces : List Space} {name : String}
    {kind : SymbolKind} {s : SymbolId} (found : b.merging? site spaces name kind = some s)
    (doc : DocComment) (node : DeclNode) :
    b.declare site spaces name kind doc node =
      (s, { b with symbols := b.symbols.modify s.index fun x =>
        { x with decls := x.decls ++ [⟨site.file, doc, node⟩] } }) := by
  simp only [declare, found]

theorem declare_new {b : Bindings} {site : Site} {spaces : List Space} {name : String}
    (doc : DocComment) (node : DeclNode) (absent : b.merging? site spaces name node.kind = none) :
    b.declare site spaces name node.kind doc node =
      (⟨b.symbols.size⟩, (b.addSymbol (declaredSymbol site name doc node)).2.modifyTable site.table
        fun t => t.insertAll spaces name ⟨b.symbols.size⟩) := by
  simp only [declare, absent]
  rfl

theorem wellScoped_declare {b : Bindings} (wellScoped : b.WellScoped) {site : Site}
    (valid : site.Valid b) (spaces : List Space) (name : String) (doc : DocComment)
    (node : DeclNode) (fits : node.Fits spaces) :
    (b.declare site spaces name node.kind doc node).2.WellScoped := by
  have binds := Binds.declare valid spaces name doc node
  have kind := kind?_declare b site spaces name node.kind doc node
  cases merging : b.merging? site spaces name node.kind with
  | some s =>
      rw [declare_merging merging] at binds ⊢
      refine wellScoped.next binds (fun t space asked r known => Or.inl ?_)
        (fun _ _ _ _ known => Or.inl known) fun r y after absent => ?_
      · rwa [table_modifySymbol] at known
        exact fun _ => rfl
      · rw [symbol?_modify, absent] at after
        split at after <;> cases after
  | none =>
      rw [declare_new doc node merging] at binds kind ⊢
      refine wellScoped.next binds (fun t space asked r known => ?_)
        (fun file space asked r known => Or.inl ?_) fun r y after absent => ?_
      · rcases table_modifyTable (b.addSymbol (declaredSymbol site name doc node)).2 site.table
          (fun t => t.insertAll spaces name ⟨b.symbols.size⟩) t with same | ⟨rfl, changed⟩
        · rw [same, table_addSymbol b _ rfl] at known
          exact Or.inl known
        · rw [changed, table_addSymbol b _ rfl] at known
          rcases SymbolTable.get?_insertAll_cases known with before | ⟨rfl, rfl⟩
          · exact Or.inl before
          -- The new symbol is a namespace only if it is named in both spaces.
          · refine Or.inr fun isNamespace other => ?_
            cases node with
            | namespaceDecl =>
                rw [Has, changed, fits]
                exact SymbolTable.get?_insertAll_isSome _ (mem_both other) _ _
            | _ => cases kind.symm.trans isNamespace
      · rwa [exports_modifyTable] at known
      · obtain ⟨z, members, before, rfl⟩ := symbol?_of_modifyTable _ _ after
        rw [symbol?_addSymbol, absent] at before
        split at before
        · cases before
          exact fits.written
        · cases before

theorem parent?_declare {b : Bindings} (placed : b.Placed) {site : Site} (valid : site.Valid b)
    (spaces : List Space) (name : String) (doc : DocComment) (node : DeclNode) :
    let r := b.declare site spaces name node.kind doc node
    r.2.parent? r.1 = site.parent := by
  intro r
  have lives : ∀ x : Symbol, x.LivesIn site.table → x.parent = site.parent := by
    intro x lives
    obtain ⟨file, table, parent, global⟩ := site
    cases table with
    | file => exact lives.1.trans valid.2.1.symm
    | global => exact lives.1.trans valid.1.symm
    | members => exact lives.trans valid.1.symm
  cases merging : b.merging? site spaces name node.kind with
  | some s =>
      obtain ⟨⟨space, _, known⟩, _⟩ := merging?_eq_some merging
      obtain ⟨x, found, there⟩ := placed.tables site.table space name s known
      have same : r.1 = s := by simp only [r, declare_merging merging]
      rw [same, (keeps_declare b site spaces name node.kind doc node).parent?
        (Option.isSome_iff_exists.mpr ⟨x, found⟩), parent?_of_symbol? found]
      exact lives x there
  | none =>
      simp only [r, declare_new doc node merging]
      have new : (b.addSymbol (declaredSymbol site name doc node)).2.symbol? ⟨b.symbols.size⟩ =
          some (declaredSymbol site name doc node) := (symbol?_addSymbol _ _ _).trans (if_pos rfl)
      obtain ⟨members, found⟩ := symbol?_modifyTable site.table
        (fun t => t.insertAll spaces name ⟨b.symbols.size⟩) new
      exact parent?_of_symbol? found

/-! ### The walk -/

/-- A state of the walk, with the names that were bound last: their symbols stand in the namespace
where the declarations stand. -/
structure BindsScoped (site : Site) (r : Bound × Bindings) : Prop extends r.2.WellScoped where
  known : r.1.Known r.2
  around : ∀ entry ∈ r.1, r.2.parent? entry.2.2 = site.parent

theorem BindsScoped.later {site : Site} {bound : Bound} {b b' : Bindings} {n : Nat}
    (sofar : BindsScoped site (bound, b)) (binds : Binds n b b') (wellScoped : b'.WellScoped) :
    BindsScoped site (bound, b') where
  toWellScoped := wellScoped
  known := sofar.known.grows binds.grows
  around entry inside := by
    have there : (b.symbol? entry.2.2).isSome := by
      simpa only [kind?, Option.isSome_map] using sofar.known entry inside
    exact (binds.keeps.parent? there).trans (sofar.around entry inside)

theorem bindsScoped_bindName {b : Bindings} (wellScoped : b.WellScoped) {site : Site}
    (valid : site.Valid b) (spaces : List Space) (name : String) (doc : DocComment)
    (node : DeclNode) (fits : node.Fits spaces) :
    BindsScoped site (b.bindName site spaces name node.kind doc node) where
  toWellScoped := wellScoped_declare wellScoped valid spaces name doc node fits
  known := (binds_bindName valid spaces name doc node).known
  around entry inside := by
    obtain ⟨space, _, rfl⟩ := List.mem_map.mp inside
    exact parent?_declare wellScoped.toPlaced valid spaces name doc node

theorem bindsScoped_foldVariables {site : Site} (doc : DocComment) (isConst : Bool)
    (declarators : List Declarator) (sofar : Bound × Bindings) (valid : site.Valid sofar.2)
    (start : BindsScoped site sofar) :
    BindsScoped site (declarators.foldl (bindVariable site doc isConst) sofar) := by
  induction declarators generalizing sofar with
  | nil => exact start
  | cons d rest ih =>
      have binds := (binds_foldVariables doc isConst [d] sofar valid start.known).binds
      have step : BindsScoped site (bindVariable site doc isConst sofar d) := by
        unfold bindVariable
        cases d.name with
        | ident name =>
            have new := bindsScoped_bindName start.toWellScoped valid [.value] name doc
              (.variable isConst d) trivial
            have old := start.later (Binds.declare valid [.value] name doc (.variable isConst d))
              new.toWellScoped
            refine ⟨new.toWellScoped, fun entry inside => ?_, fun entry inside => ?_⟩
            all_goals rcases List.mem_append.mp inside with before | now
            · exact old.known entry before
            · exact new.known entry now
            · exact old.around entry before
            · exact new.around entry now
        | _ => exact start
      exact ih _ (valid.grows binds.grows) step

mutual

theorem bindsScoped_bindDecl {b : Bindings} (wellScoped : b.WellScoped) {site : Site}
    (valid : site.Valid b) (doc : DocComment) :
    (decl : Decl) → BindsScoped site (b.bindDecl site doc decl)
  | .classDecl name class_ =>
      bindsScoped_bindName wellScoped valid both name doc (.classDecl class_) trivial
  | .function name function =>
      bindsScoped_bindName wellScoped valid [.value] name doc (.function function) rfl
  | .variableList isConst declarators =>
      bindsScoped_foldVariables doc isConst declarators ([], b) valid ⟨wellScoped, nofun, nofun⟩
  | .interface i => bindsScoped_bindName wellScoped valid [.type] i.name doc (.interface i) rfl
  | .typeAlias a => bindsScoped_bindName wellScoped valid [.type] a.name doc (.typeAlias a) trivial
  | .enum name => bindsScoped_bindName wellScoped valid both name doc .enum trivial
  | .namespaceDecl name body => by
      unfold bindDecl
      split
      · have outside : Site.Valid ⟨site.file, .global, none, true⟩ b := ⟨rfl, rfl⟩
        exact ⟨wellScoped_bindBody wellScoped outside body, nofun, nofun⟩
      · have step := bindsScoped_bindName wellScoped valid both name doc .namespaceDecl rfl
        have inside := valid_members b site name doc site.global
        exact step.later (binds_bindBody inside body)
          (wellScoped_bindBody step.toWellScoped inside body)
  | .other => ⟨wellScoped, nofun, nofun⟩

theorem wellScoped_bindBody {b : Bindings} (wellScoped : b.WellScoped) {site : Site}
    (valid : site.Valid b) : (body : NamespaceBody) → (b.bindBody site body).WellScoped
  | .block declarations => wellScoped_bindDecls wellScoped valid declarations
  | .nested name doc body =>
      wellScoped_bindBody
        (wellScoped_declare wellScoped valid both name doc .namespaceDecl rfl)
        (valid_members b site name doc site.global) body

theorem wellScoped_bindDecls {b : Bindings} (wellScoped : b.WellScoped) {site : Site}
    (valid : site.Valid b) :
    (declarations : List (DocComment × Decl)) → (b.bindDecls site declarations).WellScoped
  | [] => wellScoped
  | item :: rest =>
      wellScoped_bindDecls (wellScoped_bindDocDecl wellScoped valid item)
        (valid.grows (binds_bindDocDecl valid item).grows) rest

theorem wellScoped_bindDocDecl {b : Bindings} (wellScoped : b.WellScoped) {site : Site}
    (valid : site.Valid b) : (item : DocComment × Decl) → (b.bindDocDecl site item).WellScoped
  | (doc, decl) => (bindsScoped_bindDecl wellScoped valid doc decl).toWellScoped

end

/-- Exports of what was bound at the top of a file. -/
theorem BindsScoped.exported {site : Site} {bound exported : Bound} {b : Bindings}
    (sofar : BindsScoped site (bound, b)) (outside : site.parent = none) (file : FileId)
    (listed : ∀ entry ∈ exported, ∃ other ∈ bound, other.2.2 = entry.2.2) :
    (b.exportAll file exported).WellScoped := by
  have known : exported.Known b := by
    intro entry inside
    obtain ⟨other, bound, same⟩ := listed entry inside
    exact same ▸ sofar.known other bound
  refine sofar.toWellScoped.next (.exports known file) (fun t space name s known => Or.inl ?_)
    (fun other space name s known => ?_) fun s y after absent => ?_
  · rwa [exportAll, table_modifyFile] at known
    exact fun _ => rfl
  · rcases scope_modify_cases b file _ other with same | ⟨_, changed⟩
    · rw [exportAll, same] at known
      exact Or.inl known
    · rw [exportAll, changed] at known
      rcases get?_foldl_insert_cases known with before | ⟨entry, inside, rfl⟩
      · exact Or.inl before
      · obtain ⟨other, bound, same⟩ := listed entry inside
        exact Or.inr (same ▸ (sofar.around other bound).trans outside)
  · cases absent.symm.trans after

/-- Exports of a declaration, under whatever name. -/
theorem wellScoped_exportBoth {b : Bindings} (wellScoped : b.WellScoped) {site : Site}
    (outside : site.parent = none) {s : SymbolId} {kind : SymbolKind}
    (known : b.kind? s = some kind) (around : b.parent? s = site.parent) (file : FileId)
    (name : String) : (b.exportBoth file name s).WellScoped := by
  have sofar : BindsScoped site ([(.type, name, s)], b) := by
    refine ⟨wellScoped, fun entry inside => ?_, fun entry inside => ?_⟩
    all_goals cases List.mem_singleton.mp inside
    · exact Option.isSome_iff_exists.mpr ⟨kind, known⟩
    · exact around
  refine sofar.exported outside file fun entry inside => ?_
  obtain ⟨space, _, rfl⟩ := List.mem_map.mp inside
  exact ⟨_, List.mem_singleton_self _, rfl⟩

theorem wellScoped_redirect {b : Bindings} (wellScoped : b.WellScoped) {site : Site}
    (valid : site.Valid b) (name : String) (doc : DocComment) {node : DeclNode}
    (kind : node.kind = .redirect) :
    (b.addSymbol (redirectSymbol site name doc node)).2.WellScoped := by
  refine wellScoped.next (.redirect valid name doc kind) (fun t space asked s known => Or.inl ?_)
    (fun _ _ _ _ known => Or.inl known) fun s y after absent => ?_
  · rwa [table_addSymbol b _ rfl] at known
  · rw [symbol?_addSymbol, absent] at after
    split at after
    · cases after
      exact ⟨nofun, nofun⟩
    · cases after

theorem wellScoped_bindExport {b : Bindings} (wellScoped : b.WellScoped) {site : Site}
    (valid : site.Valid b) (outside : site.parent = none) (doc : DocComment)
    (source : Option String) (specifier : ExportSpecifier) :
    (b.bindExport site doc source specifier).WellScoped := by
  unfold bindExport
  split
  · rename_i name node exported
    have kind := kind_exportNode? exported
    have new := (symbol?_addSymbol b (redirectSymbol site name doc node) ⟨b.symbols.size⟩).trans
      (if_pos rfl)
    exact wellScoped_exportBoth (wellScoped_redirect wellScoped valid name doc kind) outside
      (kind?_of_symbol? new) (parent?_of_symbol? new) site.file name
  · exact wellScoped

theorem wellScoped_bindDefault {b : Bindings} (wellScoped : b.WellScoped) {site : Site}
    (valid : site.Valid b) (outside : site.parent = none) (doc : DocComment) (decl : DefaultDecl) :
    (b.bindDefault site doc decl).WellScoped := by
  have exported : ∀ {r : Bound × Bindings}, BindsScoped site r →
      (r.2.exportAll site.file
        (r.1.map fun bound => (bound.1, defaultName, bound.2.2))).WellScoped := by
    intro r sofar
    refine sofar.exported outside site.file fun entry inside => ?_
    obtain ⟨old, listed, rfl⟩ := List.mem_map.mp inside
    exact ⟨old, listed, rfl⟩
  cases decl with
  | classDecl name class_ =>
      exact exported (bindsScoped_bindName wellScoped valid both _ doc (.classDecl class_) trivial)
  | function name function =>
      exact exported (bindsScoped_bindName wellScoped valid [.value] _ doc (.function function) rfl)
  | interface i =>
      exact exported (bindsScoped_bindName wellScoped valid [.type] i.name doc (.interface i) rfl)

/-- What every round of a loop keeps, the loop keeps. -/
theorem wellScoped_foldl {α : Type} {site : Site} {f : Bindings → α → Bindings} (list : List α)
    (binds : ∀ b x, site.Valid b → Binds 0 b (f b x))
    (step : ∀ b x, site.Valid b → b.WellScoped → (f b x).WellScoped) {b : Bindings}
    (valid : site.Valid b) (wellScoped : b.WellScoped) : (list.foldl f b).WellScoped := by
  induction list generalizing b with
  | nil => exact wellScoped
  | cons x rest ih => exact ih (valid.grows (binds b x valid).grows) (step b x valid wellScoped)

theorem wellScoped_bindItem {b : Bindings} (wellScoped : b.WellScoped) {site : Site}
    (valid : site.Valid b) (outside : site.parent = none) (item : Item) :
    (bindItem site b item).WellScoped := by
  obtain ⟨_, _, _, doc, kind⟩ := item
  cases kind with
  | statement | otherModule => exact wellScoped
  | decl decl => exact (bindsScoped_bindDecl wellScoped valid doc decl).toWellScoped
  | exportDecl decl =>
      exact (bindsScoped_bindDecl wellScoped valid doc decl).exported outside site.file
        fun entry inside => ⟨entry, inside, rfl⟩
  | exportDefault decl => exact wellScoped_bindDefault wellScoped valid outside doc decl
  | exportValue name =>
      cases name with
      | none => exact wellScoped
      | some name =>
          exact wellScoped_exportBoth
            (wellScoped_declare wellScoped valid both defaultName doc (.localAlias name) trivial)
            outside (kind?_declare b site both defaultName .redirect doc (.localAlias name))
            (parent?_declare wellScoped.toPlaced valid both defaultName doc (.localAlias name))
            site.file defaultName
  | exportNamed specifiers source =>
      exact wellScoped_foldl specifiers (fun _ s valid => binds_bindExport valid doc source s)
        (fun _ s valid wellScoped => wellScoped_bindExport wellScoped valid outside doc source s)
        valid wellScoped
  | exportAll source =>
      refine wellScoped.next (.star b site.file source) (fun t space name s known => Or.inl ?_)
        (fun other space name s known => Or.inl ?_) fun s y after absent => ?_
      · have same := table_modifyFile b site.file
          (fun s => { s with stars := s.stars ++ [source] }) (fun _ => rfl) t
        exact same ▸ known
      · rcases scope_modify_cases b site.file
          (fun s => { s with stars := s.stars ++ [source] }) other with same | ⟨_, changed⟩
        · exact same ▸ known
        · exact (congrArg FileScope.exports changed) ▸ known
      · cases absent.symm.trans after
  | importFrom specifiers source =>
      exact wellScoped_foldl specifiers
        (fun _ s valid => .declare valid both s.localName doc (.imported source s.name))
        (fun _ s valid wellScoped => wellScoped_declare wellScoped valid both s.localName doc
          (.imported source s.name) trivial) valid wellScoped

theorem wellScoped_openFile {b : Bindings} (wellScoped : b.WellScoped) (isModule : Bool) :
    WellScoped { b with files := b.files.push { isModule } } := by
  refine wellScoped.next (.openFile b isModule) (fun t space name s known => Or.inl ?_)
    (fun file space name s known => Or.inl ?_) fun s y after absent => ?_
  · cases t with
    | global | members => exact known
    | file other =>
        simp only [table, scope, Array.getElem?_push] at known
        split at known
        · cases space <;> cases known
        · exact known
  · simp only [scope, Array.getElem?_push] at known
    split at known
    · cases space <;> cases known
    · exact known
  · cases absent.symm.trans after

theorem wellScoped_foldItems {b : Bindings} (wellScoped : b.WellScoped) (file : FileId)
    (source : SourceText) (items : List Item) :
    (items.foldl (bindItem (topSite file source)) b).WellScoped :=
  wellScoped_foldl items (fun _ item valid => binds_bindItem valid item)
    (fun _ item valid wellScoped => wellScoped_bindItem wellScoped valid rfl item)
    (valid_topSite file source b) wellScoped

theorem wellScoped_empty : WellScoped {} where
  toPlaced := placed_empty
  paired t space _ _ _ known := by cases t <;> cases space <;> cases known
  outermost _ space _ _ known := by cases space <;> cases known
  written _ _ found := by cases found

theorem wellScoped_files (p : Program) (ids : List FileId) {b : Bindings}
    (wellScoped : b.WellScoped) : (ids.foldl (bindFileOf p) b).WellScoped := by
  induction ids generalizing b with
  | nil => exact wellScoped
  | cons id rest ih =>
      refine ih ?_
      unfold bindFileOf
      split
      · exact wellScoped_foldItems (wellScoped_openFile wellScoped _) id _ _
      · exact wellScoped

theorem wellScoped_ofProgram (p : Program) : (ofProgram p).WellScoped :=
  wellScoped_files p p.fileIds wellScoped_empty

end Bindings

end ApiDocs
