import ApiDocs.Extract

set_option autoImplicit false

/-!
The walk over the items of a program. It is made of four steps: a symbol has its turn, a module gets
edges, a star export is noted, a module is opened. What all of them keep holds at the end.
-/

namespace ApiDocs.Extraction

open Syntax

/-- The ways in which a symbol is described, and the space in which its name is looked up. -/
inductive Describes : Space → (SymbolId → Check (Option Content)) → Prop where
  | type : Describes .type Content.ofType
  | classDecl : Describes .value Content.ofClass
  | function : Describes .value Content.ofFunction
  | variableDecl (d : Declarator) : Describes .value (Content.ofVariable d)

/-- The turn of a symbol: it is looked up, it has had none, and it is shown or not. -/
theorem visit_cases (e : Extraction) (site : ModuleSite) (space : Space) (name : String)
    (describe : SymbolId → Check (Option Content)) (p : Program) (c : Checker) :
    (e.visit site space name describe).outcome p c = (e, c) ∨
    ∃ s, c.bindings.lookup site.file none space name = some s ∧ s ∉ e.extracted ∧
      ∃ described c', (describe s).outcome p c = (described, c') ∧
        (e.visit site space name describe).outcome p c =
          (described.elim (e.claimed s) fun content =>
            (e.claimed s).store site name (c'.bindings.documentation s) content, c') := by
  unfold visit claim Check.lookup
  cases found : c.bindings.lookup site.file none space name with
  | none =>
      left
      simp [found]
  | some s =>
      by_cases known : s ∈ e.extracted
      · left
        simp [found, known]
      · right
        refine ⟨s, rfl, known, ((describe s).outcome p c).1, ((describe s).outcome p c).2, rfl, ?_⟩
        simp only [Check.outcome_bind, Check.outcome_state, Check.outcome_pure, found,
          List.contains_eq_mem, known, decide_false, Bool.false_eq_true, ↓reduceIte]
        cases ((describe s).outcome p c).1 <;> rfl

@[simp] theorem keys_store (e : Extraction) (site : ModuleSite) (name documentation : String)
    (content : Content) :
    (e.store site name documentation content).package.modules.keys = e.package.modules.keys := by
  simp [store, OrdMap.modify_eq_mapWithKey]

@[simp] theorem keys_addEdges (e : Extraction) (site : ModuleSite) (edges : List Reexport) :
    (e.addEdges site edges).package.modules.keys = e.package.modules.keys := by
  simp [addEdges, OrdMap.modify_eq_mapWithKey]

/-- A file is being read, and the module of its output path is there. -/
structure Opened (p : Program) (e : Extraction) (site : ModuleSite) : Prop where
  module : site.outPath ∈ e.package.modules.keys
  file : ∃ source, (site.file, source) ∈ p.rootFiles ∧ site.outPath = e.outputPath source.path

theorem Opened.visit {p : Program} {e : Extraction} {site : ModuleSite} (opened : Opened p e site)
    (other : ModuleSite) (space : Space) (name : String)
    (describe : SymbolId → Check (Option Content)) (c : Checker) :
    Opened p ((e.visit other space name describe).outcome p c).1 site := by
  rcases visit_cases e other space name describe p c with same | ⟨s, _, _, described, c', _, result⟩
  · rw [same]
    exact opened
  · rw [result]
    cases described with
    | none => exact ⟨opened.module, opened.file⟩
    | some content =>
        refine ⟨?_, opened.file⟩
        rw [Option.elim_some, keys_store]
        exact opened.module

theorem Opened.addEdges {p : Program} {e : Extraction} {site : ModuleSite}
    (opened : Opened p e site) (other : ModuleSite) (edges : List Reexport) :
    Opened p (e.addEdges other edges) site := by
  refine ⟨?_, opened.file⟩
  rw [keys_addEdges]
  exact opened.module

theorem opened_openModule {p : Program} (e : Extraction) {file : FileId} {source : SourceFile}
    (root : (file, source) ∈ p.rootFiles) :
    Opened p (e.openModule source) ⟨file, e.outputPath source.path⟩ := by
  refine ⟨?_, source, root, rfl⟩
  rw [← OrdMap.contains_iff]
  simp [openModule, OrdMap.contains]

theorem id_reexport? (target : String) (specifier : ExportSpecifier) (edge : Reexport)
    (named : reexport? target specifier = some edge) : edge.id = "" := by
  cases specifier with
  | named source exported => exact (Option.some.inj named) ▸ rfl
  | default name => cases named
  | wholeModule name => cases named

/-- What every step of a walk keeps. Declarations are added to the module of the file that is being
read, new edges have no id, and a module is opened once. -/
structure Keeps (p : Program) (holds : Extraction → Checker → Prop) : Prop where
  visit : ∀ (e : Extraction) c (site : ModuleSite) space name describe, Describes space describe →
    Opened p e site → holds e c →
    holds ((e.visit site space name describe).outcome p c).1
      ((e.visit site space name describe).outcome p c).2
  edges : ∀ (e : Extraction) c (site : ModuleSite) edges, (∀ edge ∈ edges, edge.id = "") →
    holds e c → holds (e.addEdges site edges) c
  star : ∀ (e : Extraction) c site target, holds e c → holds (e.addStar site target) c
  module : ∀ (e : Extraction) c source, e.outputPath source.path ∉ e.package.modules.keys →
    holds e c → holds (e.openModule source) c

namespace Keeps

variable {p : Program} {holds : Extraction → Checker → Prop} (keeps : Keeps p holds)
include keeps

theorem visitDecl (site : ModuleSite) (decl : Decl) (e : Extraction) (c : Checker)
    (opened : Opened p e site) (start : holds e c) :
    let r := (e.visitDecl site decl).outcome p c
    holds r.1 r.2 ∧ Opened p r.1 site := by
  have turn : ∀ (e : Extraction) c space name describe, Describes space describe →
      holds e c ∧ Opened p e site →
      let r := (e.visit site space name describe).outcome p c
      holds r.1 r.2 ∧ Opened p r.1 site := fun e c space name describe kind ⟨here, opened⟩ =>
    ⟨keeps.visit e c site space name describe kind opened here, opened.visit site space name _ c⟩
  cases decl with
  | typeAlias decl => exact turn e c _ _ _ .type ⟨start, opened⟩
  | interface interface => exact turn e c _ _ _ .type ⟨start, opened⟩
  | classDecl name class_ => exact turn e c _ _ _ .classDecl ⟨start, opened⟩
  | function name function => exact turn e c _ _ _ .function ⟨start, opened⟩
  | variableList isConst declarators =>
      refine Check.foldlM_keeps
        (fun e c => holds e c ∧ Opened p e site) _ declarators ?_
        e c ⟨start, opened⟩
      intro e c d _ here
      cases named : d.name with
      | ident name optional type => exact turn e c _ _ _ (.variableDecl d) here
      | _ => exact here
  | _ => exact ⟨start, opened⟩

theorem visitReexport (site : ModuleSite) (specifiers : List ExportSpecifier) (source : String)
    (e : Extraction) (c : Checker) (opened : Opened p e site) (start : holds e c) :
    holds (e.visitReexport site p specifiers source) c ∧
      Opened p (e.visitReexport site p specifiers source) site := by
  unfold Extraction.visitReexport
  split
  · exact ⟨start, opened⟩
  · rename_i target _
    refine ⟨keeps.edges e c site _ ?_ start, opened.addEdges site _⟩
    intro edge listed
    obtain ⟨specifier, _, named⟩ := List.mem_filterMap.mp listed
    exact id_reexport? target specifier edge named

theorem visitStar (site : ModuleSite) (source : String) (e : Extraction) (c : Checker)
    (opened : Opened p e site) (start : holds e c) :
    holds (e.visitStar site p source) c ∧ Opened p (e.visitStar site p source) site := by
  unfold Extraction.visitStar
  split
  · exact ⟨start, opened⟩
  · exact ⟨keeps.star e c site _ start, opened.module, opened.file⟩

theorem visitItem (site : ModuleSite) (ambient : Bool) (item : Item) (e : Extraction)
    (c : Checker) (opened : Opened p e site) (start : holds e c) :
    let r := (Extraction.visitItem site ambient e item).outcome p c
    holds r.1 r.2 ∧ Opened p r.1 site := by
  have named : ∀ space name describe, Describes space describe →
      let r := (e.visit site space name describe).outcome p c
      holds r.1 r.2 ∧ Opened p r.1 site := fun space name describe kind =>
    ⟨keeps.visit e c site space name describe kind opened start, opened.visit site space name _ c⟩
  obtain ⟨_, _, _, _, kind⟩ := item
  cases kind with
  | exportDecl decl => exact keeps.visitDecl site decl e c opened start
  | exportDefault decl =>
      cases decl with
      | classDecl name class_ =>
          cases name with
          | none => exact ⟨start, opened⟩
          | some name => exact named _ _ _ .classDecl
      | function name function =>
          cases name with
          | none => exact ⟨start, opened⟩
          | some name => exact named _ _ _ .function
      | interface interface => exact named _ _ _ .type
  | exportNamed specifiers source =>
      cases source with
      | none => exact ⟨start, opened⟩
      | some source => exact keeps.visitReexport site specifiers source e c opened start
  | exportAll source => exact keeps.visitStar site source e c opened start
  | decl decl =>
      cases ambient with
      | true => exact keeps.visitDecl site decl e c opened start
      | false => exact ⟨start, opened⟩
  | _ => exact ⟨start, opened⟩

theorem visitFile {file : FileId} {source : SourceFile} (root : (file, source) ∈ p.rootFiles)
    (e : Extraction) (c : Checker) (start : holds e c) :
    let r := (e.visitFile file source).outcome p c
    holds r.1 r.2 := by
  unfold Extraction.visitFile
  dsimp only
  split
  · exact start
  · rename_i absent
    rw [OrdMap.contains_iff] at absent
    have all := Check.foldlM_keeps
      (fun e' c => holds e' c ∧ Opened p e' ⟨file, e.outputPath source.path⟩)
      (Extraction.visitItem ⟨file, e.outputPath source.path⟩
        (Path.isDeclarationFile source.source.path && source.source.isModule))
      source.source.items
      (fun e' c item _ here => keeps.visitItem ⟨file, _⟩ _ item e' c here.2 here.1)
      (e.openModule source) c
      ⟨keeps.module e c source absent start, opened_openModule e root⟩
    exact all.1

/-- What every step keeps holds at the end of a walk. -/
theorem visitAll (e : Extraction) (c : Checker) (start : holds e c) :
    let r := e.visitAll.outcome p c
    holds r.1 r.2 := by
  unfold Extraction.visitAll
  dsimp only [Check.outcome_bind, Check.outcome_read]
  exact Check.foldlM_keeps holds _ p.rootFiles
    (fun e c _ root here => keeps.visitFile root e c here) e c start

end Keeps

end ApiDocs.Extraction
