import ApiDocs.Proofs.Names

set_option autoImplicit false

/-!
The walk that binds a program. It is made of five steps: a name is declared, an export gets a symbol
of its own, a file gets exports, a file gets a wildcard export, a file is opened. No step takes a
name or a kind away, and what all of them keep holds of every program.
-/

namespace ApiDocs

open Syntax

/-- The kind of symbol that a declaration makes. -/
def DeclNode.kind : DeclNode → SymbolKind
  | .typeAlias _ => .typeAlias
  | .interface _ => .interface
  | .classDecl _ => .classDecl
  | .function _ => .function
  | .variable _ _ => .variable
  | .enum => .enum
  | .namespaceDecl => .namespaceDecl
  | .imported _ _ => .redirect
  | .localAlias _ => .redirect
  | .external _ => .external
  | .moduleNamespace _ => .moduleNamespace

namespace SymbolTable

theorem get?_insert_kept {t : SymbolTable} {other : Space} {asked : String} {found : SymbolId}
    (space : Space) (name : String) (s : SymbolId) (known : t.get? other asked = some found) :
    (t.insert space name s).get? other asked = some found := by
  have table : ∀ m : OrdMap String SymbolId, m.get? asked = some found →
      (m.insertNew name s).get? asked = some found := by
    intro m known
    unfold OrdMap.insertNew
    split
    · exact known
    · rename_i absent
      rw [OrdMap.get?_insert_other _ _ _ _ ?_]
      · exact known
      · intro same
        subst same
        simp [OrdMap.contains, known] at absent
  cases space <;> cases other
  · exact table t.types known
  · exact known
  · exact known
  · exact table t.values known

theorem get?_insertAll_kept {t : SymbolTable} {other : Space} {asked : String} {found : SymbolId}
    (spaces : List Space) (name : String) (s : SymbolId)
    (known : t.get? other asked = some found) :
    (t.insertAll spaces name s).get? other asked = some found := by
  induction spaces generalizing t with
  | nil => exact known
  | cons space rest ih => exact ih (get?_insert_kept space name s known)

/-- A name that was entered stands for something. -/
theorem get?_insert_isSome (t : SymbolTable) (space : Space) (name : String) (s : SymbolId) :
    ((t.insert space name s).get? space name).isSome := by
  have table : ∀ m : OrdMap String SymbolId, ((m.insertNew name s).get? name).isSome := by
    intro m
    unfold OrdMap.insertNew
    split
    · assumption
    · simp
  cases space
  · exact table t.types
  · exact table t.values

theorem get?_insertAll_isSome (t : SymbolTable) {spaces : List Space} {space : Space}
    (listed : space ∈ spaces) (name : String) (s : SymbolId) :
    ((t.insertAll spaces name s).get? space name).isSome := by
  induction spaces generalizing t with
  | nil => cases listed
  | cons first rest ih =>
      rcases List.mem_cons.mp listed with same | later
      · subst same
        obtain ⟨found, known⟩ :=
          Option.isSome_iff_exists.mp (get?_insert_isSome t space name s)
        exact Option.isSome_iff_exists.mpr ⟨found, get?_insertAll_kept rest name s known⟩
      · exact ih (t.insert first name s) later

end SymbolTable

namespace Bindings

/-- Symbols keep their kinds, names keep their symbols, and files stay what they are. Nothing is
followed yet. -/
structure Grows (b b' : Bindings) : Prop where
  kinds : ∀ s k, b.kind? s = some k → b'.kind? s = some k
  names : ∀ (t : Table) space name s,
    (b.table t).get? space name = some s → (b'.table t).get? space name = some s
  files : b.files.size ≤ b'.files.size
  modules : ∀ f : FileId, f.index < b.files.size → (b'.scope f).isModule = (b.scope f).isModule
  externals : b'.externals = b.externals
  moduleNamespaces : b'.moduleNamespaces = b.moduleNamespaces

namespace Grows

theorem refl (b : Bindings) : b.Grows b :=
  ⟨fun _ _ h => h, fun _ _ _ _ h => h, Nat.le_refl _, fun _ _ => rfl, rfl, rfl⟩

theorem trans {a b c : Bindings} (first : a.Grows b) (second : b.Grows c) : a.Grows c where
  kinds s k known := second.kinds s k (first.kinds s k known)
  names t space name s known := second.names t space name s (first.names t space name s known)
  files := Nat.le_trans first.files second.files
  modules f inside :=
    (second.modules f (Nat.lt_of_lt_of_le inside first.files)).trans (first.modules f inside)
  externals := second.externals.trans first.externals
  moduleNamespaces := second.moduleNamespaces.trans first.moduleNamespaces

end Grows

/-! ### Steps -/

theorem scope_modify_self (b : Bindings) {file : FileId} (inside : file.index < b.files.size)
    (f : FileScope → FileScope) :
    scope { b with files := b.files.modify file.index f } file = f (b.scope file) := by
  rw [scope_modify, if_pos rfl]
  simp only [scope, Array.getElem?_eq_getElem inside, Option.map_some, Option.getD_some]

theorem kind?_addSymbol {b : Bindings} {s : SymbolId} {k : SymbolKind} (x : Symbol)
    (known : b.kind? s = some k) : (b.addSymbol x).2.kind? s = some k := by
  obtain ⟨y, found, kind⟩ := Option.map_eq_some_iff.mp known
  have differs : s.index ≠ b.symbols.size := by
    intro last
    unfold symbol? at found
    rw [last, Array.getElem?_eq_none (Nat.le_refl _)] at found
    cases found
  unfold kind?
  rw [symbol?_addSymbol, if_neg differs, found, Option.map_some, kind]

theorem kind?_addSymbol_self (b : Bindings) (x : Symbol) :
    (b.addSymbol x).2.kind? (b.addSymbol x).1 = some x.kind := by
  have found : (b.addSymbol x).2.symbol? (b.addSymbol x).1 = some x :=
    (symbol?_addSymbol b x _).trans (if_pos rfl)
  unfold kind?
  rw [found, Option.map_some]

theorem grows_addSymbol (b : Bindings) (x : Symbol) : b.Grows (b.addSymbol x).2 where
  kinds _ _ known := kind?_addSymbol x known
  names t space name s known := by
    cases t with
    | file | global => exact known
    | members holder =>
        simp only [table, symbol?_addSymbol] at known ⊢
        split
        · rename_i last
          have absent : b.symbol? holder = none := by
            unfold symbol?
            rw [last]
            exact Array.getElem?_eq_none (Nat.le_refl _)
          rw [absent] at known
          cases space <;> cases known
        · exact known
  files := Nat.le_refl _
  modules _ _ := rfl
  externals := rfl
  moduleNamespaces := rfl

theorem grows_modifySymbol (b : Bindings) (changed : SymbolId) (f : Symbol → Symbol)
    (kind : ∀ x, (f x).kind = x.kind)
    (members : ∀ x space name s, x.members.get? space name = some s →
      (f x).members.get? space name = some s) :
    b.Grows { b with symbols := b.symbols.modify changed.index f } where
  kinds s k known := by
    obtain ⟨x, found, same⟩ := Option.map_eq_some_iff.mp known
    unfold kind?
    rw [symbol?_modify, found]
    split
    · rw [Option.map_some, Option.map_some, kind, same]
    · rw [Option.map_some, same]
  names t space name s known := by
    cases t with
    | file | global => exact known
    | members holder =>
        simp only [table, symbol?_modify] at known ⊢
        cases found : b.symbol? holder with
        | none =>
            rw [found] at known
            cases space <;> cases known
        | some x =>
            rw [found] at known
            split
            · exact members x space name s known
            · exact known
  files := Nat.le_refl _
  modules _ _ := rfl
  externals := rfl
  moduleNamespaces := rfl

theorem grows_modifyFile (b : Bindings) (file : FileId) (f : FileScope → FileScope)
    (isModule : ∀ scope, (f scope).isModule = scope.isModule)
    (locals : ∀ scope space name s, scope.locals.get? space name = some s →
      (f scope).locals.get? space name = some s) :
    b.Grows { b with files := b.files.modify file.index f } where
  kinds _ _ known := known
  names t space name s known := by
    cases t with
    | global | members => exact known
    | file other =>
        simp only [table, scope_modify] at known ⊢
        split
        · cases there : b.files[other.index]? with
          | none =>
              simp only [scope, there] at known
              cases space <;> cases known
          | some scope =>
              simp only [Bindings.scope, there] at known
              exact locals scope space name s known
        · exact known
  files := Nat.le_of_eq Array.size_modify.symm
  modules other inside := by
    rw [scope_modify]
    split
    · simp only [Bindings.scope, Array.getElem?_eq_getElem inside, Option.map_some,
        Option.getD_some, isModule]
    · rfl
  externals := rfl
  moduleNamespaces := rfl

theorem grows_insertAll (b : Bindings) (t : Table) (spaces : List Space) (name : String)
    (s : SymbolId) : b.Grows (b.modifyTable t fun table => table.insertAll spaces name s) := by
  cases t with
  | file file =>
      exact grows_modifyFile b file _ (fun _ => rfl)
        fun _ _ _ _ known => SymbolTable.get?_insertAll_kept spaces name s known
  | members holder =>
      exact grows_modifySymbol b holder _ (fun _ => rfl)
        fun _ _ _ _ known => SymbolTable.get?_insertAll_kept spaces name s known
  | global =>
      refine { Grows.refl b with names := fun t space asked found known => ?_ }
      cases t with
      | file | members => exact known
      | global => exact SymbolTable.get?_insertAll_kept spaces name s known

theorem grows_declare (b : Bindings) (site : Site) (spaces : List Space) (name : String)
    (kind : SymbolKind) (doc : DocComment) (node : DeclNode) :
    b.Grows (b.declare site spaces name kind doc node).2 := by
  unfold declare
  dsimp only
  split
  · exact grows_modifySymbol b _ _ (fun _ => rfl) fun _ _ _ _ known => known
  · exact (grows_addSymbol b _).trans (grows_insertAll _ _ _ _ _)

theorem size_declare (b : Bindings) (site : Site) (spaces : List Space) (name : String)
    (kind : SymbolKind) (doc : DocComment) (node : DeclNode) :
    (b.declare site spaces name kind doc node).2.files.size = b.files.size := by
  unfold declare
  dsimp only
  split
  · rfl
  · cases site.table with
    | file file => exact Array.size_modify
    | global | members => rfl

/-- A declared symbol is of the kind that it was declared with. -/
theorem kind?_declare (b : Bindings) (site : Site) (spaces : List Space) (name : String)
    (kind : SymbolKind) (doc : DocComment) (node : DeclNode) :
    let r := b.declare site spaces name kind doc node
    r.2.kind? r.1 = some kind := by
  unfold declare
  dsimp only
  split
  · rename_i s found
    have same : b.kind? s = some kind := by
      have filtered := (Option.filter_eq_some_iff.mp found).2
      simp only [Bool.and_eq_true, decide_eq_true_eq] at filtered
      exact filtered.2
    exact (grows_modifySymbol b s (fun x => { x with decls := x.decls ++ [⟨site.file, doc, node⟩] })
      (fun _ => rfl) fun _ _ _ _ known => known).kinds s kind same
  · exact (grows_insertAll _ _ _ _ _).kinds _ _ (kind?_addSymbol_self b _)

theorem grows_openFile (b : Bindings) (isModule : Bool) :
    b.Grows { b with files := b.files.push { isModule } } where
  kinds _ _ known := known
  names t space name s known := by
    cases t with
    | global | members => exact known
    | file file =>
        simp only [table, scope, Array.getElem?_push] at known ⊢
        split
        · rename_i last
          rw [last, Array.getElem?_eq_none (Nat.le_refl _)] at known
          cases space <;> cases known
        · exact known
  files := by
    rw [Array.size_push]
    exact Nat.le_succ _
  modules file inside := by
    simp only [scope, Array.getElem?_push, if_neg (Nat.ne_of_lt inside)]
  externals := rfl
  moduleNamespaces := rfl

theorem grows_exportAll (b : Bindings) (file : FileId) (bound : Bound) :
    b.Grows (b.exportAll file bound) :=
  grows_modifyFile b file _ (fun _ => rfl) fun _ _ _ _ known => known

/-! ### The walk -/

/-- Where a declaration can stand: at the top of a module, in the global scope, or in a
namespace. -/
def Site.Valid (site : Site) (b : Bindings) : Prop :=
  match site.table with
  | .file file => site.file = file ∧ site.parent = none ∧ site.global = false
  | .global => site.parent = none ∧ site.global = true
  | .members holder => site.parent = some holder ∧ b.kind? holder = some .namespaceDecl

theorem Site.Valid.grows {site : Site} {b b' : Bindings} (valid : site.Valid b)
    (grown : b.Grows b') : site.Valid b' := by
  obtain ⟨file, table, parent, global⟩ := site
  cases table with
  | file | global => exact valid
  | members holder => exact ⟨valid.1, grown.kinds holder _ valid.2⟩

/-- The symbols that were bound are there. -/
def Bound.Known (bound : Bound) (b : Bindings) : Prop :=
  ∀ entry ∈ bound, (b.kind? entry.2.2).isSome

theorem Bound.Known.grows {bound : Bound} {b b' : Bindings} (known : bound.Known b)
    (grown : b.Grows b') : bound.Known b' := by
  intro entry inside
  obtain ⟨kind, found⟩ := Option.isSome_iff_exists.mp (known entry inside)
  exact Option.isSome_iff_exists.mpr ⟨kind, grown.kinds _ kind found⟩

/-- A symbol that is known to exports only and stands for something else. -/
def redirectSymbol (site : Site) (name : String) (doc : DocComment) (node : DeclNode) : Symbol :=
  { name, kind := .redirect, parent := site.parent, global := false,
    decls := [⟨site.file, doc, node⟩] }

/-- The ways from one state of the symbols to another while a program is bound, with the number of
files that are opened. -/
inductive Binds : Nat → Bindings → Bindings → Prop where
  | refl (b : Bindings) : Binds 0 b b
  | trans {m n : Nat} {a b c : Bindings} (first : Binds m a b) (second : Binds n b c) :
      Binds (m + n) a c
  | declare {b : Bindings} {site : Site} (valid : site.Valid b) (spaces : List Space)
      (name : String) (doc : DocComment) (node : DeclNode) :
      Binds 0 b (b.declare site spaces name node.kind doc node).2
  | redirect {b : Bindings} {site : Site} (valid : site.Valid b) (name : String)
      (doc : DocComment) {node : DeclNode} (kind : node.kind = .redirect) :
      Binds 0 b (b.addSymbol (redirectSymbol site name doc node)).2
  | exports {b : Bindings} {bound : Bound} (known : bound.Known b) (file : FileId) :
      Binds 0 b (b.exportAll file bound)
  | star (b : Bindings) (file : FileId) (source : String) : Binds 0 b (b.addStar file source)
  | openFile (b : Bindings) (isModule : Bool) :
      Binds 1 b { b with files := b.files.push { isModule } }

theorem Binds.grows {n : Nat} {b b' : Bindings} (binds : Binds n b b') : b.Grows b' := by
  induction binds with
  | refl b => exact .refl b
  | trans _ _ first second => exact first.trans second
  | declare _ spaces name doc node => exact grows_declare _ _ spaces name _ doc node
  | redirect => exact grows_addSymbol _ _
  | exports _ file => exact grows_exportAll _ file _
  | star b file _ => exact grows_modifyFile b file _ (fun _ => rfl) fun _ _ _ _ known => known
  | openFile b isModule => exact grows_openFile b isModule

theorem Binds.size {n : Nat} {b b' : Bindings} (binds : Binds n b b') :
    b'.files.size = b.files.size + n := by
  induction binds with
  | refl | redirect => rfl
  | trans _ _ first second => rw [second, first, Nat.add_assoc]
  | declare _ spaces name doc node => exact size_declare _ _ spaces name _ doc node
  | exports | star => exact Array.size_modify
  | openFile => exact Array.size_push _

/-- The state that a walk leaves, and the names that it has bound. -/
structure BindsNames (b : Bindings) (r : Bound × Bindings) : Prop where
  binds : Binds 0 b r.2
  known : r.1.Known r.2

theorem binds_bindName {b : Bindings} {site : Site} (valid : site.Valid b) (spaces : List Space)
    (name : String) (doc : DocComment) (node : DeclNode) :
    BindsNames b (b.bindName site spaces name node.kind doc node) where
  binds := .declare valid spaces name doc node
  known entry inside := by
    obtain ⟨space, _, rfl⟩ := List.mem_map.mp inside
    exact Option.isSome_iff_exists.mpr ⟨_, kind?_declare b site spaces name node.kind doc node⟩

/-- One round of the loop that binds variables. -/
def bindVariable (site : Site) (doc : DocComment) (isConst : Bool) (sofar : Bound × Bindings)
    (d : Declarator) : Bound × Bindings :=
  match d.name with
  | .ident name _ _ =>
      let r := sofar.2.bindName site [.value] name .variable doc (.variable isConst d)
      (sofar.1 ++ r.1, r.2)
  | _ => sofar

theorem bindVariables_eq (b : Bindings) (site : Site) (doc : DocComment) (isConst : Bool)
    (declarators : List Declarator) :
    b.bindVariables site doc isConst declarators =
      declarators.foldl (bindVariable site doc isConst) ([], b) := rfl

theorem binds_foldVariables {site : Site} (doc : DocComment) (isConst : Bool)
    (declarators : List Declarator) (sofar : Bound × Bindings) (valid : site.Valid sofar.2)
    (known : sofar.1.Known sofar.2) :
    BindsNames sofar.2 (declarators.foldl (bindVariable site doc isConst) sofar) := by
  induction declarators generalizing sofar with
  | nil => exact ⟨.refl _, known⟩
  | cons d rest ih =>
      have step : BindsNames sofar.2 (bindVariable site doc isConst sofar d) := by
        unfold bindVariable
        cases d.name with
        | ident name =>
            have bound := binds_bindName valid [.value] name doc (.variable isConst d)
            refine ⟨bound.binds, fun entry inside => ?_⟩
            rcases List.mem_append.mp inside with old | new
            · exact known.grows bound.binds.grows entry old
            · exact bound.known entry new
        | _ => exact ⟨.refl _, known⟩
      have all := ih _ (valid.grows step.binds.grows) step.known
      exact ⟨step.binds.trans all.binds, all.known⟩

theorem binds_bindVariables {b : Bindings} {site : Site} (valid : site.Valid b)
    (doc : DocComment) (isConst : Bool) (declarators : List Declarator) :
    BindsNames b (b.bindVariables site doc isConst declarators) :=
  binds_foldVariables doc isConst declarators ([], b) valid nofun

/-- A namespace is declared before what it holds. -/
theorem valid_members (b : Bindings) (site : Site) (name : String) (doc : DocComment)
    (global : Bool) :
    let r := b.declare site both name .namespaceDecl doc .namespaceDecl
    Site.Valid ⟨site.file, .members r.1, some r.1, global⟩ r.2 :=
  ⟨rfl, kind?_declare b site both name .namespaceDecl doc .namespaceDecl⟩

mutual

theorem binds_bindDecl {b : Bindings} {site : Site} (valid : site.Valid b) (doc : DocComment) :
    (decl : Decl) → BindsNames b (b.bindDecl site doc decl)
  | .classDecl name class_ => binds_bindName valid both name doc (.classDecl class_)
  | .function name function => binds_bindName valid [.value] name doc (.function function)
  | .variableList isConst declarators => binds_bindVariables valid doc isConst declarators
  | .interface i => binds_bindName valid [.type] i.name doc (.interface i)
  | .typeAlias a => binds_bindName valid [.type] a.name doc (.typeAlias a)
  | .enum name => binds_bindName valid both name doc .enum
  | .namespaceDecl name body => by
      unfold bindDecl
      split
      · have outside : Site.Valid ⟨site.file, .global, none, true⟩ b := ⟨rfl, rfl⟩
        exact ⟨binds_bindBody outside body, nofun⟩
      · have step := binds_bindName valid both name doc .namespaceDecl
        have inner := binds_bindBody (valid_members b site name doc site.global) body
        exact ⟨step.binds.trans inner, step.known.grows inner.grows⟩
  | .other => ⟨.refl b, nofun⟩

theorem binds_bindBody {b : Bindings} {site : Site} (valid : site.Valid b) :
    (body : NamespaceBody) → Binds 0 b (b.bindBody site body)
  | .block declarations => binds_bindDecls valid declarations
  | .nested name doc body =>
      (Binds.declare valid both name doc .namespaceDecl).trans
        (binds_bindBody (valid_members b site name doc site.global) body)

theorem binds_bindDecls {b : Bindings} {site : Site} (valid : site.Valid b) :
    (declarations : List (DocComment × Decl)) → Binds 0 b (b.bindDecls site declarations)
  | [] => .refl b
  | item :: rest =>
      have first := binds_bindDocDecl valid item
      first.trans (binds_bindDecls (valid.grows first.grows) rest)

theorem binds_bindDocDecl {b : Bindings} {site : Site} (valid : site.Valid b) :
    (item : DocComment × Decl) → Binds 0 b (b.bindDocDecl site item)
  | (doc, decl) => (binds_bindDecl valid doc decl).binds

end

theorem binds_exportBoth {b : Bindings} {s : SymbolId} {kind : SymbolKind}
    (known : b.kind? s = some kind) (file : FileId) (name : String) :
    Binds 0 b (b.exportBoth file name s) := by
  refine .exports (fun entry inside => ?_) file
  obtain ⟨space, _, rfl⟩ := List.mem_map.mp inside
  exact Option.isSome_iff_exists.mpr ⟨kind, known⟩

/-- Names that were bound can be exported as the default. -/
theorem BindsNames.exportDefault {b : Bindings} {r : Bound × Bindings} (bound : BindsNames b r)
    (file : FileId) :
    Binds 0 b (r.2.exportAll file (r.1.map fun (space, _, id) => (space, defaultName, id))) := by
  refine bound.binds.trans (.exports (fun entry inside => ?_) file)
  obtain ⟨old, listed, rfl⟩ := List.mem_map.mp inside
  exact bound.known old listed

theorem binds_bindDefault {b : Bindings} {site : Site} (valid : site.Valid b) (doc : DocComment)
    (decl : DefaultDecl) : Binds 0 b (b.bindDefault site doc decl) := by
  cases decl with
  | classDecl name class_ =>
      exact (binds_bindName valid both _ doc (.classDecl class_)).exportDefault site.file
  | function name function =>
      exact (binds_bindName valid [.value] _ doc (.function function)).exportDefault site.file
  | interface i =>
      exact (binds_bindName valid [.type] i.name doc (.interface i)).exportDefault site.file

theorem kind_exportNode? {source : Option String} {specifier : ExportSpecifier} {name : String}
    {node : DeclNode} (exported : exportNode? source specifier = some (name, node)) :
    node.kind = .redirect := by
  cases specifier <;> cases source <;> cases exported <;> rfl

theorem binds_bindExport {b : Bindings} {site : Site} (valid : site.Valid b) (doc : DocComment)
    (source : Option String) (specifier : ExportSpecifier) :
    Binds 0 b (b.bindExport site doc source specifier) := by
  unfold bindExport
  split
  · rename_i name node exported
    exact (Binds.redirect valid name doc (kind_exportNode? exported)).trans
      (binds_exportBoth (kind?_addSymbol_self b (redirectSymbol site name doc node)) _ _)
  · exact .refl b

/-- What every round of a loop is a walk of, the loop is a walk of. -/
theorem binds_foldl {α : Type} {site : Site} {f : Bindings → α → Bindings} (list : List α)
    (step : ∀ b x, site.Valid b → Binds 0 b (f b x)) {b : Bindings} (valid : site.Valid b) :
    Binds 0 b (list.foldl f b) := by
  induction list generalizing b with
  | nil => exact .refl b
  | cons x rest ih =>
      have first := step b x valid
      exact first.trans (ih (valid.grows first.grows))

theorem binds_bindItem {b : Bindings} {site : Site} (valid : site.Valid b) (item : Item) :
    Binds 0 b (bindItem site b item) := by
  obtain ⟨_, _, _, doc, kind⟩ := item
  cases kind with
  | statement | otherModule => exact .refl b
  | decl decl => exact (binds_bindDecl valid doc decl).binds
  | exportDecl decl =>
      have bound := binds_bindDecl valid doc decl
      exact bound.binds.trans (.exports bound.known site.file)
  | exportDefault decl => exact binds_bindDefault valid doc decl
  | exportValue name =>
      cases name with
      | none => exact .refl b
      | some name =>
          exact (Binds.declare valid both defaultName doc (.localAlias name)).trans
            (binds_exportBoth
              (kind?_declare b site both defaultName .redirect doc (.localAlias name)) _ _)
  | exportNamed specifiers source =>
      exact binds_foldl specifiers (fun _ s valid => binds_bindExport valid doc source s) valid
  | exportAll source => exact .star b site.file source
  | importFrom specifiers source =>
      exact binds_foldl specifiers
        (fun _ s valid => .declare valid both s.localName doc (.imported source s.name)) valid

/-- Where the items of a file stand. -/
def topSite (file : FileId) (source : SourceText) : Site :=
  ⟨file, if source.isModule then .file file else .global, none, !source.isModule⟩

theorem valid_topSite (file : FileId) (source : SourceText) (b : Bindings) :
    (topSite file source).Valid b := by
  unfold topSite Site.Valid
  cases source.isModule
  · exact ⟨rfl, rfl⟩
  · exact ⟨rfl, rfl, rfl⟩

theorem binds_bindFile (b : Bindings) (file : FileId) (source : SourceText) :
    Binds 1 b (b.bindFile file source) := by
  have items := binds_foldl source.items (fun _ item valid => binds_bindItem valid item)
    (valid_topSite file source { b with files := b.files.push { isModule := source.isModule } })
  exact (Binds.openFile b source.isModule).trans items

/-- Binds a file of a program. -/
def bindFileOf (p : Program) (b : Bindings) (id : FileId) : Bindings :=
  match p.file? id with
  | some f => b.bindFile id f.source
  | none => b

theorem binds_files {p : Program} (ids : List Nat) (there : ∀ i ∈ ids, i < p.files.size)
    (b : Bindings) : Binds ids.length b ((ids.map FileId.mk).foldl (bindFileOf p) b) := by
  induction ids generalizing b with
  | nil => exact .refl b
  | cons i rest ih =>
      have first : Binds 1 b (bindFileOf p b ⟨i⟩) := by
        have inside := there i List.mem_cons_self
        have found : p.file? ⟨i⟩ = some p.files[i] := Array.getElem?_eq_getElem inside
        simp only [bindFileOf, found]
        exact binds_bindFile b ⟨i⟩ _
      have later := ih (fun i inside => there i (List.mem_cons_of_mem _ inside)) (bindFileOf p b ⟨i⟩)
      rw [List.length_cons, Nat.add_comm]
      exact first.trans later

/-- Every program is bound by such a walk. -/
theorem binds_ofProgram (p : Program) : Binds p.files.size {} (ofProgram p) := by
  have all := binds_files (p := p) _ (fun _ inside => List.mem_range.mp inside) {}
  rwa [List.length_range] at all

/-- The state in which a file is opened. -/
def boundBefore (p : Program) (file : FileId) : Bindings :=
  ((List.range file.index).map FileId.mk).foldl (bindFileOf p) {}

theorem binds_before {p : Program} {file : FileId} {f : SourceFile}
    (found : p.file? file = some f) : Binds file.index {} (boundBefore p file) := by
  have inside : file.index < p.files.size := (Array.getElem?_eq_some_iff.mp found).1
  have before := binds_files (p := p) (List.range file.index)
    (fun i below => Nat.lt_trans (List.mem_range.mp below) inside) {}
  rwa [List.length_range] at before

theorem binds_after {p : Program} {file : FileId} {f : SourceFile}
    (found : p.file? file = some f) :
    ∃ n, Binds n ((boundBefore p file).bindFile file f.source) (ofProgram p) := by
  have inside : file.index < p.files.size := (Array.getElem?_eq_some_iff.mp found).1
  obtain ⟨later, count⟩ := Nat.exists_eq_add_of_le (Nat.succ_le_of_lt inside)
  have ids : p.fileIds = (List.range file.index).map FileId.mk ++
      file :: ((List.range later).map (file.index + 1 + ·)).map FileId.mk := by
    unfold Program.fileIds
    rw [count, Nat.succ_eq_add_one, List.range_add, List.map_append, List.range_succ,
      List.map_append, List.append_assoc]
    rfl
  have after := binds_files (p := p) ((List.range later).map (file.index + 1 + ·))
    (fun i above => by
      obtain ⟨n, below, rfl⟩ := List.mem_map.mp above
      have := List.mem_range.mp below
      omega)
    (bindFileOf p (boundBefore p file) file)
  have here : ∀ b, bindFileOf p b file = b.bindFile file f.source := fun b => by
    simp only [bindFileOf, found]
  have whole : ofProgram p = (p.fileIds).foldl (bindFileOf p) {} := rfl
  rw [whole, ids, List.foldl_append, List.foldl_cons]
  rw [here] at after ⊢
  exact ⟨_, after⟩

/-- The scope of a file has the number of the file. -/
theorem size_boundBefore {p : Program} {file : FileId} {f : SourceFile}
    (found : p.file? file = some f) : (boundBefore p file).files.size = file.index := by
  have size := (binds_before found).size
  rwa [Array.size_empty, Nat.zero_add] at size

/-- The state in which a file has been opened, and the first of its items have been bound. -/
def boundUpTo (p : Program) (file : FileId) (f : SourceFile) (before : List Item) : Bindings :=
  before.foldl (bindItem (topSite file f.source))
    { boundBefore p file with
      files := (boundBefore p file).files.push { isModule := f.source.isModule } }

theorem size_boundUpTo {p : Program} {file : FileId} {f : SourceFile} (found : p.file? file = some f)
    (before : List Item) : file.index < (boundUpTo p file f before).files.size := by
  have items := binds_foldl before (fun _ item valid => binds_bindItem valid item)
    (valid_topSite file f.source (boundUpTo p file f []))
  have opened : (boundUpTo p file f []).files.size = file.index + 1 := by
    rw [boundUpTo, List.foldl_nil, Array.size_push, size_boundBefore found]
  have size : (boundUpTo p file f before).files.size = _ := items.size
  rw [size, opened]
  exact Nat.lt_succ_self _

/-- Every item of a program is bound after those before it, in the scope of its file. -/
theorem binds_boundUpTo {p : Program} {file : FileId} {f : SourceFile} (found : p.file? file = some f)
    {before after : List Item} {item : Item} (items : f.source.items = before ++ item :: after) :
    ∃ n, Binds n (bindItem (topSite file f.source) (boundUpTo p file f before) item)
      (ofProgram p) := by
  obtain ⟨n, later⟩ := binds_after found
  have whole : (boundBefore p file).bindFile file f.source =
      after.foldl (bindItem (topSite file f.source))
        (bindItem (topSite file f.source) (boundUpTo p file f before) item) := by
    change f.source.items.foldl _ _ = _
    rw [items, List.foldl_append, List.foldl_cons]
    rfl
  rw [whole] at later
  exact ⟨_, (binds_foldl after (fun _ item valid => binds_bindItem valid item)
    (valid_topSite file f.source _)).trans later⟩

theorem binds_item {p : Program} {file : FileId} {f : SourceFile} (found : p.file? file = some f)
    {item : Item} (inside : item ∈ f.source.items) :
    ∃ (b : Bindings) (n : Nat), file.index < b.files.size ∧
      Binds n (bindItem (topSite file f.source) b item) (ofProgram p) := by
  obtain ⟨before, after, items⟩ := List.append_of_mem inside
  obtain ⟨n, later⟩ := binds_boundUpTo found items
  exact ⟨_, n, size_boundUpTo found before, later⟩

theorem isModule_ofProgram {p : Program} {file : FileId} {f : SourceFile}
    (found : p.file? file = some f) :
    ((ofProgram p).scope file).isModule = f.source.isModule := by
  obtain ⟨n, later⟩ := binds_after found
  have size := size_boundBefore found
  generalize boundBefore p file = b at size later
  let opened : Bindings := { b with files := b.files.push { isModule := f.source.isModule } }
  have items : Binds 0 opened (b.bindFile file f.source) :=
    binds_foldl f.source.items (fun _ item valid => binds_bindItem valid item)
      (valid_topSite file f.source opened)
  have there : file.index < opened.files.size := by
    rw [Array.size_push, size]
    exact Nat.lt_succ_self _
  rw [(items.trans later).grows.modules file there]
  simp only [opened, scope, ← size, Array.getElem?_push_size, Option.getD_some]

end Bindings

end ApiDocs
