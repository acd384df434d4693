import ApiDocs.Proofs.Content
import ApiDocs.Proofs.Tables

set_option autoImplicit false

/-!
The exported items of a file. The name of each of them is one of the scope of the file, so that what
it stands for was declared there and nowhere else.
-/

namespace ApiDocs

/-- An exported item: what it declares, and its name. -/
structure Exported where
  role : Role
  name : String

namespace Exported

/-- The symbol that the name of an item stands for in its file. -/
def symbol? (p : Program) (file : FileId) (x : Exported) : Option SymbolId :=
  (Bindings.ofProgram p).lookup file none x.role.space x.name

end Exported

namespace Syntax

/-- Variables are exported by plain names only. -/
def Declarator.exported? (d : Declarator) : Option Exported :=
  match d.name with
  | .ident name _ _ => some ⟨.variableDecl d, name⟩
  | _ => none

def Decl.exported : Decl → List Exported
  | .typeAlias a => [⟨.type, a.name⟩]
  | .interface i => [⟨.type, i.name⟩]
  | .classDecl name _ => [⟨.classDecl, name⟩]
  | .function name _ => [⟨.function, name⟩]
  | .variableList _ declarators => declarators.filterMap (·.exported?)
  | _ => []

/-- What an item exports. In an ambient module every declaration is exported; a default export needs
a name. -/
def ItemKind.exported (ambient : Bool) : ItemKind → List Exported
  | .exportDecl d => d.exported
  | .exportDefault (.classDecl (some name) _) => [⟨.classDecl, name⟩]
  | .exportDefault (.function (some name) _) => [⟨.function, name⟩]
  | .exportDefault (.interface i) => [⟨.type, i.name⟩]
  | .decl d => if ambient then d.exported else []
  | _ => []

namespace SourceText

/-- The declarations of a declaration file that is a module are exported without being marked. -/
def isAmbient (s : SourceText) : Bool := Path.isDeclarationFile s.path && s.isModule

/-- The exported items of a file, in order. -/
def exported (s : SourceText) : List Exported :=
  s.items.flatMap fun item => item.kind.exported s.isAmbient

/-- A file with exported items is a module. -/
theorem isModule_of_mem_exported {s : SourceText} {x : Exported} (listed : x ∈ s.exported) :
    s.isModule = true := by
  obtain ⟨item, inside, exports⟩ := List.mem_flatMap.mp listed
  have marked : item.kind.isModule = true → s.isModule = true := fun isModule =>
    List.any_eq_true.mpr ⟨item, inside, isModule⟩
  cases kind : item.kind with
  | decl decl =>
      cases ambient : s.isAmbient with
      | true => exact (Bool.and_eq_true_iff.mp ambient).2
      | false =>
          rw [kind, ambient] at exports
          cases exports
  | statement =>
      rw [kind] at exports
      cases exports
  | _ => exact marked (by rw [kind]; rfl)

end SourceText

end Syntax

/-! ### Names of exported items -/

namespace Bindings

open Syntax

/-- The name of an item stands for something in a table. -/
def Taken (b : Bindings) (t : Table) (x : Exported) : Prop :=
  ((b.table t).get? x.role.space x.name).isSome

theorem Taken.grows {b b' : Bindings} {t : Table} {x : Exported} (taken : b.Taken t x)
    (grown : b.Grows b') : b'.Taken t x := by
  obtain ⟨s, known⟩ := Option.isSome_iff_exists.mp taken
  exact Option.isSome_iff_exists.mpr ⟨s, grown.names t _ _ s known⟩

/-- The scope of the file is there, and the items of the file are declared in it. -/
structure InModule (b : Bindings) (site : Site) (file : FileId) : Prop where
  table : site.table = .file file
  inside : file.index < b.files.size

theorem InModule.grows {b b' : Bindings} {site : Site} {file : FileId}
    (here : b.InModule site file) (grown : b.Grows b') : b'.InModule site file :=
  ⟨here.table, Nat.lt_of_lt_of_le here.inside grown.files⟩

/-- A name that was bound is taken: in all of its spaces if it was new, and in its only one if it was
bound before. -/
theorem taken_bindName {b : Bindings} {site : Site} {file : FileId} (here : b.InModule site file)
    (role : Role) (spaces : List Space) (name : String) (kind : SymbolKind) (doc : DocComment)
    (node : DeclNode) (listed : role.space ∈ spaces)
    (alone : kind.merges = false ∨ spaces = [role.space]) :
    (b.bindName site spaces name kind doc node).2.Taken (.file file) ⟨role, name⟩ := by
  unfold bindName declare Taken
  dsimp only
  split
  · rename_i s found
    obtain ⟨named, same⟩ := Option.filter_eq_some_iff.mp found
    rcases alone with apart | rfl
    · simp [apart] at same
    · rw [here.table, List.findSome?_singleton] at named
      exact Option.isSome_iff_exists.mpr ⟨s, named⟩
  · rw [here.table]
    simp only [modifyTable, table]
    rw [scope_modify_self (b.addSymbol _).2 here.inside]
    exact SymbolTable.get?_insertAll_isSome _ listed _ _

theorem taken_bindVariables {b : Bindings} {site : Site} {file : FileId}
    (here : b.InModule site file) (valid : site.Valid b) (doc : DocComment) (isConst : Bool)
    {declarators : List Declarator} {x : Exported}
    (listed : x ∈ declarators.filterMap (·.exported?)) :
    (b.bindVariables site doc isConst declarators).2.Taken (.file file) x := by
  obtain ⟨d, inside, exported⟩ := List.mem_filterMap.mp listed
  obtain ⟨first, rest, rfl⟩ := List.append_of_mem inside
  rw [bindVariables_eq, List.foldl_append, List.foldl_cons]
  have before := binds_foldVariables doc isConst first ([], b) valid (List.forall_mem_nil _)
  generalize first.foldl (bindVariable site doc isConst) ([], b) = sofar at before ⊢
  unfold Declarator.exported? at exported
  split at exported
  · rename_i name _ _ named
    cases exported
    have valid := valid.grows before.binds.grows
    have step := binds_foldVariables doc isConst [d] sofar valid before.known
    have here := here.grows before.binds.grows
    have taken : (bindVariable site doc isConst sofar d).2.Taken (.file file)
        ⟨.variableDecl d, name⟩ := by
      unfold bindVariable
      rw [named]
      exact taken_bindName here (.variableDecl d) [.value] name .variable doc (.variable isConst d)
        List.mem_cons_self (Or.inl rfl)
    exact taken.grows (binds_foldVariables doc isConst rest _ (valid.grows step.binds.grows)
      step.known).binds.grows
  · cases exported

theorem taken_bindDecl {b : Bindings} {site : Site} {file : FileId}
    (here : b.InModule site file) (valid : site.Valid b) (doc : DocComment) {decl : Decl}
    {x : Exported} (listed : x ∈ decl.exported) :
    (b.bindDecl site doc decl).2.Taken (.file file) x := by
  unfold bindDecl
  cases decl with
  | typeAlias a =>
      cases List.mem_singleton.mp listed
      exact taken_bindName here .type [.type] a.name .typeAlias doc (.typeAlias a)
        List.mem_cons_self (Or.inl rfl)
  | interface i =>
      cases List.mem_singleton.mp listed
      exact taken_bindName here .type [.type] i.name .interface doc (.interface i)
        List.mem_cons_self (Or.inr rfl)
  | classDecl name class_ =>
      cases List.mem_singleton.mp listed
      exact taken_bindName here .classDecl both name .classDecl doc (.classDecl class_)
        (List.mem_cons_of_mem _ List.mem_cons_self) (Or.inl rfl)
  | function name function =>
      cases List.mem_singleton.mp listed
      exact taken_bindName here .function [.value] name .function doc (.function function)
        List.mem_cons_self (Or.inr rfl)
  | variableList isConst declarators => exact taken_bindVariables here valid doc isConst listed
  | _ => cases listed

theorem taken_bindDefault {b : Bindings} {site : Site} {file : FileId}
    (here : b.InModule site file) (doc : DocComment) {decl : DefaultDecl} {ambient : Bool}
    {x : Exported} (listed : x ∈ (ItemKind.exportDefault decl).exported ambient) :
    (b.bindDefault site doc decl).Taken (.file file) x := by
  unfold bindDefault
  refine Taken.grows ?_ (grows_exportAll _ _ _)
  cases decl with
  | classDecl name class_ =>
      cases name with
      | none => cases listed
      | some name =>
          cases List.mem_singleton.mp listed
          exact taken_bindName here .classDecl both name .classDecl doc (.classDecl class_)
            (List.mem_cons_of_mem _ List.mem_cons_self) (Or.inl rfl)
  | function name function =>
      cases name with
      | none => cases listed
      | some name =>
          cases List.mem_singleton.mp listed
          exact taken_bindName here .function [.value] name .function doc (.function function)
            List.mem_cons_self (Or.inr rfl)
  | interface i =>
      cases List.mem_singleton.mp listed
      exact taken_bindName here .type [.type] i.name .interface doc (.interface i)
        List.mem_cons_self (Or.inr rfl)

theorem taken_bindItem {b : Bindings} {site : Site} {file : FileId} (here : b.InModule site file)
    (valid : site.Valid b) {ambient : Bool} {item : Item} {x : Exported}
    (listed : x ∈ item.kind.exported ambient) :
    (bindItem site b item).Taken (.file file) x := by
  obtain ⟨_, _, _, doc, kind⟩ := item
  cases kind with
  | exportDecl decl => exact (taken_bindDecl here valid doc listed).grows (grows_exportAll _ _ _)
  | decl decl =>
      cases ambient with
      | true => exact taken_bindDecl here valid doc listed
      | false => cases listed
  | exportDefault decl => exact taken_bindDefault here doc listed
  | _ => cases listed

/-- A symbol lives in one file. -/
theorem Placed.file_unique {b : Bindings} (placed : b.Placed) {s : SymbolId} {x : Symbol}
    (found : b.symbol? s = some x) {file other : FileId} (first : x.LivesIn (.file file))
    (second : x.LivesIn (.file other)) : file = other := by
  obtain ⟨d, inside⟩ := List.exists_mem_of_ne_nil _ (placed.declared s x found).1
  exact (first.2.2 d inside).symm.trans (second.2.2 d inside)

/-- The name of an exported item is one of the scope of its file. -/
theorem exported_local? {p : Program} {file : FileId} {f : SourceFile}
    (found : p.file? file = some f) {x : Exported} (listed : x ∈ f.source.exported) :
    ∃ s, ((ofProgram p).scope file).locals.get? x.role.space x.name = some s ∧
      x.symbol? p file = some s := by
  have isModule := isModule_ofProgram found
  rw [f.source.isModule_of_mem_exported listed] at isModule
  obtain ⟨item, inside, exported⟩ := List.mem_flatMap.mp listed
  obtain ⟨b, n, size, later⟩ := binds_item found inside
  have top : (topSite file f.source).table = .file file := by
    simp [topSite, f.source.isModule_of_mem_exported listed]
  have taken := taken_bindItem ⟨top, size⟩ (valid_topSite file f.source b) exported
  obtain ⟨s, named⟩ := Option.isSome_iff_exists.mp (taken.grows later.grows)
  have here : ((ofProgram p).scope file).locals.get? x.role.space x.name = some s := named
  refine ⟨s, here, ?_⟩
  simp [Exported.symbol?, lookup, enclosing, enclosingFrom, isModule, here]

/-- What the name of an exported item stands for was declared in its file. -/
theorem exported_symbol? {p : Program} {file : FileId} {f : SourceFile}
    (found : p.file? file = some f) {x : Exported} (listed : x ∈ f.source.exported) :
    ∃ s y, x.symbol? p file = some s ∧ (ofProgram p).symbol? s = some y ∧ y.LivesIn (.file file) := by
  obtain ⟨s, named, symbol⟩ := exported_local? found listed
  obtain ⟨y, there, lives⟩ := (proper_ofProgram p).tables (.file file) _ _ s named
  exact ⟨s, y, symbol, there, lives⟩

end Bindings

end ApiDocs
