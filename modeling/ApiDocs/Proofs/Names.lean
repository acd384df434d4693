import ApiDocs.Checker

set_option autoImplicit false

/-!
A name of a file or of the global scope stands for a symbol of that name outside of all namespaces,
and a type alias has the declaration that it is read from. Both hold once a program is bound, and
following imports and exports keeps them.
-/

namespace ApiDocs

open Syntax

namespace SymbolTable

theorem get?_insert_cases {t : SymbolTable} {space other : Space} {name : String} {s : SymbolId}
    {asked : String} {found : SymbolId}
    (known : (t.insert space name s).get? other asked = some found) :
    t.get? other asked = some found ∨ (asked = name ∧ found = s) := by
  have table : ∀ m : OrdMap String SymbolId, (m.insertNew name s).get? asked = some found →
      m.get? asked = some found ∨ (asked = name ∧ found = s) := by
    intro m known
    unfold OrdMap.insertNew at known
    split at known
    · exact Or.inl known
    · rw [OrdMap.get?_insert] at known
      split at known
      · rename_i same
        exact Or.inr ⟨same, (Option.some.inj known).symm⟩
      · exact Or.inl known
  cases space <;> cases other
  · exact table t.types known
  · exact Or.inl known
  · exact Or.inl known
  · exact table t.values known

theorem get?_insertAll_cases {t : SymbolTable} {spaces : List Space} {other : Space} {name : String}
    {s : SymbolId} {asked : String} {found : SymbolId}
    (known : (t.insertAll spaces name s).get? other asked = some found) :
    t.get? other asked = some found ∨ (asked = name ∧ found = s) := by
  induction spaces generalizing t with
  | nil => exact Or.inl known
  | cons space rest ih =>
      rcases ih known with before | new
      · exact get?_insert_cases before
      · exact Or.inr new

end SymbolTable

namespace Bindings

/-- The symbol has that name and stands in no namespace. -/
def TopLevel (b : Bindings) (s : SymbolId) (name : String) : Prop :=
  ∃ x, b.symbol? s = some x ∧ x.name = name ∧ x.parent = none

/-- Whether a table is one of a file or the global one. -/
def Table.isOuter : Table → Bool
  | .file _ => true
  | .global => true
  | .members _ => false

/-- What the tables of a program promise about its symbols. -/
structure Named (b : Bindings) : Prop where
  names : ∀ t : Table, t.isOuter → ∀ space name s, (b.table t).get? space name = some s →
    b.TopLevel s name
  aliases : ∀ s x, b.symbol? s = some x → x.kind = .typeAlias →
    (x.decls.findSome? Checker.aliasDecl?).isSome

/-- Symbols of outer tables stand in no namespace. -/
def Site.Proper (site : Site) : Prop := site.table.isOuter → site.parent = none

/-! ### Steps -/

/-- What a change of a symbol leaves alone. -/
structure Same (x x' : Symbol) : Prop where
  name : x'.name = x.name
  parent : x'.parent = x.parent
  kind : x'.kind = x.kind
  decls : ∃ more, x'.decls = x.decls ++ more

theorem symbol?_modify (b : Bindings) (changed : SymbolId) (f : Symbol → Symbol) (s : SymbolId) :
    symbol? { b with symbols := b.symbols.modify changed.index f } s =
      if changed.index = s.index then (b.symbol? s).map f else b.symbol? s :=
  Array.getElem?_modify

/-- A change of a symbol that keeps its name, place and declarations. -/
theorem Named.modifySymbol {b : Bindings} (valid : b.Named) (changed : SymbolId)
    (f : Symbol → Symbol) (same : ∀ x, Same x (f x)) :
    Named { b with symbols := b.symbols.modify changed.index f } where
  names t outer space name s known := by
    have before : (b.table t).get? space name = some s := by
      cases t with
      | file | global => exact known
      | members => cases outer
    obtain ⟨x, found, named, top⟩ := valid.names t outer space name s before
    unfold TopLevel
    rw [symbol?_modify, found]
    split
    · exact ⟨f x, rfl, (same x).name.trans named, (same x).parent.trans top⟩
    · exact ⟨x, rfl, named, top⟩
  aliases s x found kind := by
    rw [symbol?_modify] at found
    split at found
    · obtain ⟨old, before, rfl⟩ := Option.map_eq_some_iff.mp found
      obtain ⟨more, decls⟩ := (same old).decls
      have written := valid.aliases s old before ((same old).kind ▸ kind)
      rw [decls, List.findSome?_append, Option.isSome_or, written, Bool.true_or]
    · exact valid.aliases s x found kind

theorem symbol?_addSymbol (b : Bindings) (x : Symbol) (s : SymbolId) :
    (b.addSymbol x).2.symbol? s = if s.index = b.symbols.size then some x else b.symbol? s :=
  Array.getElem?_push

theorem TopLevel.addSymbol {b : Bindings} {s : SymbolId} {name : String}
    (there : b.TopLevel s name) (x : Symbol) : (b.addSymbol x).2.TopLevel s name := by
  obtain ⟨y, found, named, top⟩ := there
  have differs : s.index ≠ b.symbols.size := by
    intro last
    unfold symbol? at found
    rw [last, Array.getElem?_eq_none (Nat.le_refl _)] at found
    cases found
  exact ⟨y, by rw [symbol?_addSymbol, if_neg differs, found], named, top⟩

theorem Named.addSymbol {b : Bindings} (valid : b.Named) (x : Symbol)
    (written : x.kind = .typeAlias → (x.decls.findSome? Checker.aliasDecl?).isSome) :
    (b.addSymbol x).2.Named where
  names t outer space name s known := by
    have before : (b.table t).get? space name = some s := by
      cases t with
      | file | global => exact known
      | members => cases outer
    exact (valid.names t outer space name s before).addSymbol x
  aliases s y found kind := by
    rw [symbol?_addSymbol] at found
    split at found
    · cases found
      exact written kind
    · exact valid.aliases s y found kind

/-- A file whose scope changes. -/
theorem scope_modify (b : Bindings) (file : FileId) (f : FileScope → FileScope) (other : FileId) :
    scope { b with files := b.files.modify file.index f } other =
      if file.index = other.index then ((b.files[other.index]?).map f).getD {} else b.scope other := by
  unfold scope
  dsimp only
  rw [Array.getElem?_modify]
  split <;> rfl

/-- A name that is entered in a table stands for a symbol of that name. -/
theorem Named.insertAll {b : Bindings} (valid : b.Named) (t : Table) (spaces : List Space)
    {name : String} {s : SymbolId} (top : t.isOuter → b.TopLevel s name) :
    (b.modifyTable t fun table => table.insertAll spaces name s).Named := by
  cases t with
  | members holder =>
      exact valid.modifySymbol holder _ fun x => ⟨rfl, rfl, rfl, [], (List.append_nil _).symm⟩
  | global =>
      refine ⟨fun t outer space asked found known => ?_, valid.aliases⟩
      cases t with
      | file file => exact valid.names (.file file) rfl space asked found known
      | members => cases outer
      | global =>
          rcases SymbolTable.get?_insertAll_cases known with before | ⟨rfl, rfl⟩
          · exact valid.names .global rfl space asked found before
          · exact top rfl
  | file file =>
      refine ⟨fun t outer space asked found known => ?_, valid.aliases⟩
      cases t with
      | global => exact valid.names .global rfl space asked found known
      | members => cases outer
      | file other =>
          simp only [table, modifyTable, scope_modify] at known
          split at known
          · cases there : b.files[other.index]? with
            | none =>
                rw [there] at known
                cases space <;> cases known
            | some scope =>
                rw [there] at known
                rcases SymbolTable.get?_insertAll_cases known with before | ⟨rfl, rfl⟩
                · refine valid.names (.file other) rfl space asked found ?_
                  simp only [table, Bindings.scope, there, Option.getD_some]
                  exact before
                · exact top rfl
          · exact valid.names (.file other) rfl space asked found known

theorem named_declare {b : Bindings} (valid : b.Named) {site : Site} (proper : site.Proper)
    (spaces : List Space) (name : String) (kind : SymbolKind) (doc : DocComment) (node : DeclNode)
    (written : kind = .typeAlias → ∃ decl, node = .typeAlias decl) :
    (b.declare site spaces name kind doc node).2.Named := by
  unfold declare
  dsimp only
  split
  · exact valid.modifySymbol _ _ fun x => ⟨rfl, rfl, rfl, _, rfl⟩
  · refine Named.insertAll (valid.addSymbol _ fun same => ?_) site.table spaces fun outer => ?_
    · obtain ⟨decl, rfl⟩ := written same
      rfl
    · exact ⟨_, (symbol?_addSymbol _ _ _).trans (if_pos rfl), rfl, proper outer⟩

/-! ### Binding a program -/

theorem named_bindVariables {b : Bindings} (valid : b.Named) {site : Site} (proper : site.Proper)
    (doc : DocComment) (isConst : Bool) (declarators : List Declarator) :
    (b.bindVariables site doc isConst declarators).2.Named := by
  unfold bindVariables
  generalize ([] : Bound) = bound
  induction declarators generalizing b bound with
  | nil => exact valid
  | cons d rest ih =>
      rw [List.foldl_cons]
      cases d.name with
      | ident name => exact ih (named_declare valid proper [.value] name .variable doc _ nofun) _
      | _ => exact ih valid _

/-- The members of a namespace stand in it. -/
theorem proper_members (file : FileId) (s : SymbolId) (global : Bool) :
    Site.Proper ⟨file, .members s, some s, global⟩ := nofun

mutual

theorem named_bindDecl {b : Bindings} (valid : b.Named) {site : Site} (proper : site.Proper)
    (doc : DocComment) : (decl : Decl) → (b.bindDecl site doc decl).2.Named
  | .classDecl name _ => named_declare valid proper both name .classDecl doc _ nofun
  | .function name _ => named_declare valid proper [.value] name .function doc _ nofun
  | .variableList isConst declarators => named_bindVariables valid proper doc isConst declarators
  | .interface i => named_declare valid proper [.type] i.name .interface doc _ nofun
  | .typeAlias a => named_declare valid proper [.type] a.name .typeAlias doc _ fun _ => ⟨a, rfl⟩
  | .enum name => named_declare valid proper both name .enum doc _ nofun
  | .namespaceDecl name body => by
      unfold bindDecl
      split
      · exact named_bindBody valid (fun _ => rfl) body
      · exact named_bindBody (named_declare valid proper both name .namespaceDecl doc _ nofun)
          (proper_members _ _ _) body
  | .other => valid

theorem named_bindBody {b : Bindings} (valid : b.Named) {site : Site} (proper : site.Proper) :
    (body : NamespaceBody) → (b.bindBody site body).Named
  | .block declarations => named_bindDecls valid proper declarations
  | .nested name doc body =>
      named_bindBody (named_declare valid proper both name .namespaceDecl doc _ nofun)
        (proper_members _ _ _) body

theorem named_bindDecls {b : Bindings} (valid : b.Named) {site : Site} (proper : site.Proper) :
    (items : List (DocComment × Decl)) → (b.bindDecls site items).Named
  | [] => valid
  | item :: rest => named_bindDecls (named_bindDocDecl valid proper item) proper rest

theorem named_bindDocDecl {b : Bindings} (valid : b.Named) {site : Site} (proper : site.Proper) :
    (item : DocComment × Decl) → (b.bindDocDecl site item).Named
  | (doc, decl) => named_bindDecl valid proper doc decl

end

/-- Exports and wildcards of a file do not touch its names. -/
theorem Named.modifyFile {b : Bindings} (valid : b.Named) (file : FileId)
    (f : FileScope → FileScope) (same : ∀ scope, (f scope).locals = scope.locals) :
    Named { b with files := b.files.modify file.index f } := by
  refine ⟨fun t outer space name s known => ?_, valid.aliases⟩
  cases t with
  | global => exact valid.names .global rfl space name s known
  | members => cases outer
  | file other =>
      refine valid.names (.file other) rfl space name s ?_
      simp only [table, scope_modify] at known ⊢
      split at known
      · unfold scope
        cases there : b.files[other.index]? with
        | none =>
            rw [there] at known
            exact known
        | some scope =>
            rw [there, Option.map_some, Option.getD_some, same] at known
            exact known
      · exact known

theorem named_exportAll {b : Bindings} (valid : b.Named) (file : FileId) (bound : Bound) :
    (b.exportAll file bound).Named := valid.modifyFile file _ fun _ => rfl

theorem named_bindDefault {b : Bindings} (valid : b.Named) {site : Site} (proper : site.Proper)
    (doc : DocComment) (decl : DefaultDecl) : (b.bindDefault site doc decl).Named := by
  refine named_exportAll ?_ _ _
  cases decl with
  | classDecl name _ => exact named_declare valid proper both _ .classDecl doc _ nofun
  | function name _ => exact named_declare valid proper [.value] _ .function doc _ nofun
  | interface i => exact named_declare valid proper [.type] _ .interface doc _ nofun

theorem named_bindExport {b : Bindings} (valid : b.Named) (site : Site) (doc : DocComment)
    (source : Option String) (specifier : ExportSpecifier) :
    (b.bindExport site doc source specifier).Named := by
  unfold bindExport
  split
  · refine named_exportAll (valid.addSymbol _ fun redirect => ?_) _ _
    cases redirect
  · exact valid

theorem named_foldl {α : Type} {f : Bindings → α → Bindings} (list : List α)
    (step : ∀ b x, b.Named → (f b x).Named) {b : Bindings} (valid : b.Named) :
    (list.foldl f b).Named := by
  induction list generalizing b with
  | nil => exact valid
  | cons x rest ih => exact ih (step b x valid)

theorem named_bindItem {b : Bindings} (valid : b.Named) {site : Site} (proper : site.Proper)
    (item : Item) : (bindItem site b item).Named := by
  obtain ⟨_, _, _, doc, kind⟩ := item
  cases kind with
  | statement => exact valid
  | decl decl => exact named_bindDecl valid proper doc decl
  | exportDecl decl => exact named_exportAll (named_bindDecl valid proper doc decl) _ _
  | exportDefault decl => exact named_bindDefault valid proper doc decl
  | exportValue name =>
      cases name with
      | none => exact valid
      | some name => exact named_exportAll (named_declare valid proper both _ .redirect doc _ nofun) _ _
  | exportNamed specifiers source =>
      exact named_foldl specifiers (fun b s valid => named_bindExport valid site doc source s) valid
  | exportAll source => exact valid.modifyFile site.file _ fun _ => rfl
  | importFrom specifiers source =>
      exact named_foldl specifiers
        (fun b s valid => named_declare valid proper both s.localName .redirect doc _ nofun) valid
  | otherModule => exact valid

/-- A new file has no names. -/
theorem Named.addFile {b : Bindings} (valid : b.Named) (isModule : Bool) :
    Named { b with files := b.files.push { isModule } } := by
  refine ⟨fun t outer space name s known => ?_, valid.aliases⟩
  cases t with
  | global => exact valid.names .global rfl space name s known
  | members => cases outer
  | file file =>
      simp only [table, scope, Array.getElem?_push] at known
      split at known
      · cases space <;> cases known
      · exact valid.names (.file file) rfl space name s known

theorem named_bindFile {b : Bindings} (valid : b.Named) (file : FileId) (source : SourceText) :
    (b.bindFile file source).Named :=
  named_foldl source.items
    (fun _ item valid => named_bindItem valid (fun _ => rfl) item) (valid.addFile source.isModule)

theorem named_empty : Named {} where
  names t _ space _ _ known := by
    cases t <;> cases space <;> cases known
  aliases _ _ found := by cases found

/-- The tables of every program keep their promises. -/
theorem named_ofProgram (p : Program) : (ofProgram p).Named := by
  refine named_foldl p.fileIds (fun b file valid => ?_) named_empty
  split
  · exact named_bindFile valid file _
  · exact valid

/-! ### What follows for names -/

/-- New symbols stand for packages and modules: no table knows them, and none is an alias. -/
theorem Named.extends {b b' : Bindings} (valid : b.Named) (grown : b.Extends b') : b'.Named where
  names t outer space name s known := by
    have before : (b.table t).get? space name = some s := by
      cases t with
      | global =>
          simp only [table, grown.global] at known ⊢
          exact known
      | members => cases outer
      | file file =>
          simp only [table, scope, grown.files] at known ⊢
          exact known
    obtain ⟨x, found, rest⟩ := valid.names t outer space name s before
    exact ⟨x, grown.symbol s x found, rest⟩
  aliases s x found kind := by
    rcases grown.fresh s x found with old | external | whole
    · exact valid.aliases s x old kind
    · rw [external] at kind
      cases kind
    · rw [whole] at kind
      cases kind

/-- A name that is looked up outside of all namespaces stands for a symbol of that name. -/
theorem Named.topLevel_of_lookup {b : Bindings} (valid : b.Named) {file : FileId} {space : Space}
    {name : String} {s : SymbolId} (found : b.lookup file none space name = some s) :
    b.TopLevel s name := by
  have outside : b.enclosing none = [] := rfl
  simp only [Bindings.lookup, outside, List.findSome?_nil, Option.orElse_eq_orElse, Option.orElse_eq_or,
    Option.none_or] at found
  rcases Option.or_eq_some_iff.mp found with here | ⟨_, global⟩
  · split at here
    · exact valid.names (.file file) rfl space name s here
    · cases here
  · exact valid.names .global rfl space name s global

/-- What a name stands for outside of all namespaces does not change. -/
theorem Extends.lookup {b b' : Bindings} (grown : b.Extends b') (file : FileId) (space : Space)
    (name : String) : b'.lookup file none space name = b.lookup file none space name := by
  have scope : b'.scope file = b.scope file := by
    unfold Bindings.scope
    rw [grown.files]
  unfold Bindings.lookup
  rw [scope, grown.global]
  rfl

theorem TopLevel.extends {b b' : Bindings} {s : SymbolId} {name : String} (top : b.TopLevel s name)
    (grown : b.Extends b') : b'.TopLevel s name := by
  obtain ⟨x, found, rest⟩ := top
  exact ⟨x, grown.symbol s x found, rest⟩

/-- Outside of all namespaces a symbol is shown by its plain name. -/
theorem TopLevel.displayName {b : Bindings} {s : SymbolId} {name : String}
    (top : b.TopLevel s name) : b.displayName s = name := by
  obtain ⟨x, found, rfl, outside⟩ := top
  have parent : b.parent? s = none := by simp only [parent?, found, Option.bind_some, outside]
  have around : b.enclosing (some s) = [s] := by
    unfold enclosing enclosingFrom
    rw [parent]
    cases b.symbols.size <;> rfl
  simp [Bindings.displayName, around, nameOf, found]

theorem TopLevel.nominalName {b : Bindings} {s : SymbolId} {name : String}
    (top : b.TopLevel s name) : b.nominalName s = name := by
  unfold Bindings.nominalName
  split
  · obtain ⟨x, found, rfl, _⟩ := top
    simp [nameOf, found]
  · exact top.displayName

end Bindings

end ApiDocs
