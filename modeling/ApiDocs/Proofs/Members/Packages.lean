import ApiDocs.Proofs.Members.Shown
import ApiDocs.Proofs.Exact

set_option autoImplicit false

/-!
Names of members are unique everywhere: in the tables of a checker after any questions, and in what
the documentation of a program shows.
-/

namespace ApiDocs

open Check Syntax

/-! ### Declarations -/

/-- What a declaration shows has names that are distinct in each object, and those of the properties
and methods of a class are distinct together. -/
structure DeclarationBody.Distinct (body : DeclarationBody) : Prop where
  objects : NamesDistinct body.nodes
  members : ∀ properties constructors methods, body = .classDecl properties constructors methods →
    (properties.map (·.name) ++ methods.map (·.name)).Nodup

namespace Content

/-- What is shown, if anything is, is distinct. -/
abbrev Describes (m : Check (Option Content)) : Prop :=
  Ensures m fun shown => ∀ content ∈ shown, content.body.Distinct

theorem describes_ofType (s : SymbolId) : Describes (ofType s) := by
  refine .skip fun t => (Render.shows_declaredBound t).bind fun shown first => ?_
  refine (Render.shows_typeParameters s).bind fun parameters second => .pure fun content same => ?_
  cases same
  exact ⟨namesDistinct_append.mpr ⟨first, second⟩, nofun⟩

theorem distinct_classBody {members : Render.ClassMembers} (shown : members.Shown)
    (distinct : members.names.Nodup) : (classBody members).Distinct := by
  constructor
  · simp only [classBody, DeclarationBody.nodes, namesDistinct_append, namesDistinct_flatMap,
      List.forall_mem_map]
    exact ⟨⟨shown.properties, shown.constructors⟩, shown.methods⟩
  · intro properties constructors methods same
    cases same
    rw [List.map_map, List.map_map]
    exact distinct

theorem describes_ofClass (s : SymbolId) : Describes (ofClass s) := by
  refine .skip fun value => .skip fun t => ?_
  refine (Render.shows_componentProps? value).bind fun component given => ?_
  split
  · refine .pure fun content same => ?_
    cases same
    exact ⟨given _ rfl, nofun⟩
  · refine (Render.shows_classMembers? value).bind fun members found => .pure fun content same => ?_
    obtain ⟨class_, there, rfl⟩ := Option.map_eq_some_iff.mp same
    exact distinct_classBody (found class_ there).1 (found class_ there).2

theorem describes_ofCallable (t : TypeId) : Describes (ofCallable t) := by
  refine (Render.shows_componentProps? t).bind fun component given => ?_
  split
  · refine .pure fun content same => ?_
    cases same
    exact ⟨given _ rfl, nofun⟩
  · refine (Render.shows_function? t).bind fun signature found => .pure fun content same => ?_
    obtain ⟨s, there, rfl⟩ := Option.map_eq_some_iff.mp same
    exact ⟨found s there, nofun⟩

theorem describes_ofVariable (d : Declarator) (s : SymbolId) : Describes (ofVariable d s) := by
  refine .skip fun t => (describes_ofCallable t).bind fun callable given => ?_
  split
  · exact .pure given
  · split
    · refine (Render.shows_bound t).bind fun shown here => .pure fun content same => ?_
      cases same
      exact ⟨here, nofun⟩
    · exact .pure nofun

end Content

namespace Extraction

theorem Describes.distinct {space : Space} {describe : SymbolId → Check (Option Content)}
    (describes : Describes space describe) (s : SymbolId) : Content.Describes (describe s) := by
  cases describes with
  | type => exact Content.describes_ofType s
  | classDecl => exact Content.describes_ofClass s
  | function => exact .skip fun t => Content.describes_ofCallable t
  | variableDecl d => exact Content.describes_ofVariable d s

end Extraction

/-! ### Packages -/

/-- What all declarations of a package show has a property. -/
def Package.Shows (holds : DeclarationBody → Prop) (p : Package) : Prop :=
  ∀ path m, p.modules.get? path = some m → ∀ id d, m.declarations.get? id = some d → holds d.body

/-- All declarations of a package are distinct. -/
def Package.Distinct (p : Package) : Prop :=
  ∀ path m, p.modules.get? path = some m → ∀ id d, m.declarations.get? id = some d → d.body.Distinct

section

/- A property of what declarations show, and the states of a checker in which they are described. -/
variable {holds : DeclarationBody → Prop} {good : Checker → Prop}

namespace Extraction

theorem shows_store {e : Extraction} (shows_ : e.package.Shows holds) {content : Content}
    (here : holds content.body) (site : ModuleSite) (name documentation : String) :
    (e.store site name documentation content).package.Shows holds := by
  intro path m there id d listed
  rcases get?_store_cases there listed with ⟨-, -, rfl⟩ | ⟨old, before, known⟩
  · exact here
  · exact shows_ path old before id d known

theorem keeps_shows {p : Program}
    (described : ∀ space describe, Describes space describe → ∀ s c, good c →
      good ((describe s).outcome p c).2 ∧ ∀ content ∈ ((describe s).outcome p c).1, holds content.body) :
    Keeps p fun e c => good c ∧ e.package.Shows holds where
  visit e c site space name describe kind _ start := by
    rcases visit_cases e site space name describe p c with same | ⟨s, _, _, shown, c', given, result⟩
    · rw [same]
      exact start
    · obtain ⟨after, here⟩ := described space describe kind s c start.1
      rw [given] at after here
      rw [result]
      refine ⟨after, ?_⟩
      have claimed : (e.claimed s).package.Shows holds := start.2
      cases shown with
      | none => exact claimed
      | some content => exact shows_store claimed (here content rfl) site name _
  edges e c site edges _ start := by
    refine ⟨start.1, fun path m there id d listed => ?_⟩
    obtain ⟨old, before, _, same, _⟩ := get?_addEdges_cases there
    exact start.2 path old before id d (same ▸ listed)
  star e c site target start := start
  module e c source _ start := by
    refine ⟨start.1, fun path m there id d listed => ?_⟩
    rcases get?_openModule_cases there with ⟨-, empty, -⟩ | before
    · rw [empty, OrdMap.get?_empty] at listed
      cases listed
    · exact start.2 path m before id d listed

end Extraction

namespace Package

/-- Linking leaves what declarations show. -/
theorem Shows.linked {p : Package} (shows_ : p.Shows holds)
    (edges : String → Module → List Reexport) : (p.linked edges).Shows holds := by
  intro path m there id d listed
  obtain ⟨old, before, rfl⟩ := module_of_linked there
  obtain ⟨own, known, rfl⟩ := declaration_of_linked listed
  exact shows_ path old before id own known

theorem shows_empty (name outDir : String) : (Package.empty name outDir).Shows holds := by
  intro path m there
  cases there

/-- What is shown of each declaration of a program when it has its turn stands in the package. -/
theorem shows_addProgram {program : Program} (start : good (Checker.ofProgram program))
    (described : ∀ space describe, Extraction.Describes space describe → ∀ s c, good c →
      good ((describe s).outcome program c).2 ∧
        ∀ content ∈ ((describe s).outcome program c).1, holds content.body)
    (name outDir packagePath : String) :
    ((Package.empty name outDir).addProgram packagePath program).Shows holds := by
  have collected := (Extraction.keeps_shows described).visitAll
    { package := Package.empty name outDir, packagePath } (Checker.ofProgram program)
    ⟨start, shows_empty name outDir⟩
  rw [addProgram_eq_linked (readAll_collected name outDir packagePath program).valid]
  exact collected.2.linked _

end Package

end

/-! ### Programs -/

namespace Checker

/-- The states of a checker: questions were asked one after the other, of any kind and about
anything. -/
inductive Asked (p : Program) : Checker → Prop where
  | nothing : Asked p (ofProgram p)
  | question {α : Type} {c : Checker} (before : Asked p c) (q : Query α) :
      Asked p ((Checker.calls.ask q).outcome p c).2
  | elementType {c : Checker} (before : Asked p c) : Asked p (Check.elementType?.outcome p c).2

theorem Asked.distinct {p : Program} {c : Checker} (asked : Asked p c) : c.Distinct := by
  induction asked with
  | nothing => exact distinct_ofProgram p
  | question _ q ih => exact (NeatCalls.ask q p _ ih).1
  | elementType _ ih =>
      have neat : Neat Check.elementType? := neat_elementType?
      exact (neat.ensures p _ ih).1

end Checker

/-- After any questions, no two members of a shape that a checker of the program holds have one name.
In the documentation of the program no two properties of an object do, and no two members of a class,
be they properties or methods. -/
theorem member_names_distinct (program : Program) :
    (∀ c, Checker.Asked program c → c.Distinct) ∧ ∀ name outDir packagePath,
      ((Package.empty name outDir).addProgram packagePath program).Distinct := by
  refine ⟨fun c asked => asked.distinct, fun name outDir packagePath => ?_⟩
  have described : ∀ space describe, Extraction.Describes space describe → ∀ s c, c.Distinct →
      ((describe s).outcome program c).2.Distinct ∧
        ∀ content ∈ ((describe s).outcome program c).1, content.body.Distinct :=
    fun _ _ kind s c => kind.distinct s program c
  exact Package.shows_addProgram (Checker.distinct_ofProgram program) described name outDir packagePath

/-- An interface with two members `x` and one `y`, and a class with a property and a method `z`. -/
def overlapping : Program :=
  let item (decl : Decl) : Item := ⟨0, 0, none, {}, .exportDecl decl⟩
  let member (name : String) (i : Intrinsic) : TypeMember :=
    .property name (some (.intrinsic i)) false false {}
  let function : FunctionExpr := ⟨[], [], some (.intrinsic .void), .none, false, false⟩
  { files := #[⟨⟨"/a.ts", #[], [
      item (.interface ⟨"A", [], [], [member "x" .number, member "x" .string, member "y" .number]⟩),
      item (.classDecl "C" ⟨[], none, [], [
        .property "z" (some (.intrinsic .number)) none false false {},
        .method "z" function .method false {}]⟩)]⟩, "/a.ts", true⟩] }

set_option maxRecDepth 20000 in
/-- The interface has one member `x`, and what is documented is distinct. -/
theorem overlapping_names_distinct :
    let declared := (Check.declaredType ⟨0⟩).outcome overlapping (Checker.ofProgram overlapping)
    let shown := (Check.shape declared.1).outcome overlapping declared.2
    shown.1.members.map (·.name) = ["x", "y"] ∧ shown.2.Distinct ∧
      ((Package.empty "p" "out").addProgram "/" overlapping).Distinct := by
  refine ⟨by cbv, ?_, (member_names_distinct overlapping).2 "p" "out" "/"⟩
  exact (member_names_distinct overlapping).1 _
    (.question (.question .nothing (.declaredType ⟨0⟩)) (.shape _))

end ApiDocs
