import ApiDocs.Proofs.Exports
import ApiDocs.Proofs.Namespaces.Blocks
import ApiDocs.Proofs.Repeat

set_option autoImplicit false

/-!
Members of namespaces by their qualified names. A qualified name looks for the namespace among
values first, so what a block declares is found by it exactly if the name of the block stands, as a
value, for the symbol that the block got.
-/

namespace ApiDocs

open Syntax

namespace Bindings

/-! ### Where chains end -/

section

variable {p : Program} {b b' : Bindings} {space : Space}

/-- A chain that does not end where it starts ends outside of all namespaces. -/
theorem WellScoped.reach_outermost (wellScoped : b.WellScoped) (n : Nat) :
    (∀ s t, (b.reach p space n).symbol s (.symbol t) → t = s ∨ b.parent? t = none) ∧
      ∀ file name t, (b.reach p space n).exported file name (.symbol t) → b.parent? t = none := by
  induction n with
  | zero => exact ⟨fun _ _ => False.elim, fun _ _ _ => False.elim⟩
  | succ n ih =>
      obtain ⟨symbols, exported⟩ := ih
      refine ⟨fun s t step => ?_, fun file name t step => ?_⟩
      · cases step with
        | itself => exact Or.inl rfl
        | @localAlias file name target _ _ entry next =>
            right
            rcases symbols target t next with rfl | outside
            · obtain ⟨x, found, lives⟩ := wellScoped.tables (.file file) space name t entry
              exact (parent?_of_symbol? found).trans lives.1
            · exact outside
        | imported _ _ _ next => exact Or.inr (exported _ _ t next)
      · cases step with
        | @own s _ entry next =>
            rcases symbols s t next with rfl | outside
            · exact wellScoped.outermost file space name t entry
            · exact outside
        | star _ _ _ _ next => exact exported _ _ t next

/-- What is looked up among exports stands in no namespace. -/
theorem Proper.parent?_symbolFor (proper : b.Proper p) {r : Referent}
    (outside : ∀ t, r = .symbol t → b.parent? t = none) :
    (b.symbolFor p r).2.parent? (b.symbolFor p r).1 = none := by
  have stands := Referent.isSymbol_symbolFor proper r
  cases r with
  | symbol s => exact outside s rfl
  | exportsOf file => exact parent?_of_symbol? stands.2
  | external module name => exact parent?_of_symbol? stands.2

theorem table_extends (grown : b.Extends b') {t : Table} {name : String} {s : SymbolId}
    (known : (b.table t).get? space name = some s) : (b'.table t).get? space name = some s := by
  cases t with
  | file file => simpa only [table, scope, grown.files] using known
  | global => simpa only [table, grown.global] using known
  | members holder =>
      cases found : b.symbol? holder with
      | none =>
          simp only [table, found] at known
          cases space <;> cases known
      | some x =>
          simp only [table, found] at known
          simpa only [table, grown.symbol holder x found] using known

/-- A name is looked up where it is declared before anywhere else. Only a module looks into its own
names before those of the global scope. -/
theorem lookup_site (grown : b.Extends b') {site : Site} (valid : site.Valid b)
    (isOpen : site.table.Open b)
    (nearest : site.table = .global → (b'.scope site.file).isModule = false) {name : String}
    {s : SymbolId} (known : (b.table site.table).get? space name = some s) :
    b'.lookup site.file site.parent space name = some s := by
  have later := table_extends grown known
  obtain ⟨file, table, parent, global⟩ := site
  cases table with
  | file other =>
      have here : file = other := valid.1
      have outside : parent = none := valid.2.1
      subst here outside
      have isModule : (b'.scope file).isModule = true := by
        rw [scope, grown.files]
        exact isOpen.2
      have own : (b'.scope file).locals.get? space name = some s := later
      simp [lookup, enclosing, enclosingFrom, isModule, own]
  | global =>
      cases valid.1
      have own : b'.global.get? space name = some s := later
      simp [lookup, enclosing, enclosingFrom, nearest rfl, own]
  | members holder =>
      cases valid.1
      have own : ((b'.symbol? holder).bind fun x => x.members.get? space name) = some s := by
        cases found : b'.symbol? holder with
        | none =>
            simp only [Bindings.table, found] at later
            cases space <;> cases later
        | some x =>
            simp only [Bindings.table, found] at later
            exact later
      simp [lookup, enclosing, enclosingFrom, own]

/-- The members of a symbol that a container stands for are those of its table, if it is a
namespace; other declarations have none. -/
theorem member_of_symbol (wellScoped : b.WellScoped) (grown : b.Extends b') {holder t : SymbolId}
    (there : (b.symbol? holder).isSome)
    (stands : b.followSymbol p maxSteps space holder = some (.symbol t)) (name : String) :
    b'.member p holder space name =
      (if b.kind? t = some .namespaceDecl then (b.table (.members t)).get? space name else none,
        b') := by
  obtain ⟨x, found, plain⟩ := (reach_plain maxSteps).1 holder t
    (((wellScoped.toPlaced.follow_eq_some_iff maxSteps).1 holder _).mp stands)
  have leads : b'.resolveAlias p holder space = (some t, b') := by
    unfold resolveAlias
    rw [(wellScoped.toPlaced.follow_keptIn grown.keptIn maxSteps).1 holder there, stands]
    rfl
  obtain ⟨inner, whole⟩ := wellScoped.written t x found
  unfold member
  simp only [leads, grown.symbol t x found, kind?_of_symbol? found, table, found, Option.map_some,
    Option.getD_some]
  cases kind : x.kind with
  | namespaceDecl => simp
  | external => exact absurd kind inner
  | moduleNamespace => exact absurd kind whole
  | _ => simp

theorem parent?_exportOf (wellScoped : b.WellScoped) (grown : b.Extends b') (proper : b'.Proper p)
    {file : FileId} {name : String} {u : SymbolId}
    (found : (b'.exportOf p file space name).1 = some u) :
    (b'.exportOf p file space name).2.parent? u = none := by
  have same : b'.followExport p maxSteps space file name =
      b.followExport p maxSteps space file name :=
    (wellScoped.toPlaced.follow_keptIn grown.keptIn maxSteps).2 file name
  unfold exportOf at found ⊢
  rw [same] at found ⊢
  cases follow : b.followExport p maxSteps space file name with
  | none =>
      rw [follow] at found
      cases found
  | some r =>
      rw [follow] at found
      cases found
      refine proper.parent?_symbolFor fun t ends => ?_
      rw [ends] at follow
      have reached := ((wellScoped.toPlaced.follow_eq_some_iff maxSteps).2 file name _).mp follow
      obtain ⟨x, there, _⟩ := (reach_plain maxSteps).2 file name t reached
      have outside := (wellScoped.reach_outermost maxSteps).2 file name t reached
      rw [parent?_of_symbol? there] at outside
      exact (parent?_of_symbol? (grown.symbol t x there)).trans outside

/-- A member of something that is no symbol of the program stands in no namespace. -/
theorem parent?_member (wellScoped : b.WellScoped) (grown : b.Extends b') (proper : b'.Proper p)
    {holder : SymbolId} (there : (b.symbol? holder).isSome)
    (elsewhere : ∀ t, b.followSymbol p maxSteps space holder ≠ some (.symbol t)) {name : String}
    {u : SymbolId} (found : (b'.member p holder space name).1 = some u) :
    (b'.member p holder space name).2.parent? u = none := by
  have same : b'.followSymbol p maxSteps space holder = b.followSymbol p maxSteps space holder :=
    (wellScoped.toPlaced.follow_keptIn grown.keptIn maxSteps).1 holder there
  cases follow : b.followSymbol p maxSteps space holder with
  | none =>
      have nothing : b'.resolveAlias p holder space = (none, b') := by
        unfold resolveAlias
        rw [same, follow]
        rfl
      simp only [member, nothing] at found
      cases found
  | some r =>
      have leads : b'.resolveAlias p holder space =
          (some (b'.symbolFor p r).1, (b'.symbolFor p r).2) := by
        unfold resolveAlias
        rw [same, follow]
        rfl
      have stands := Referent.isSymbol_symbolFor proper r
      have after : (b'.symbolFor p r).2.Proper p :=
        (follows_symbolFor? b' p (some r)).proper proper
      have later : b.Extends (b'.symbolFor p r).2 :=
        grown.trans (extends_symbolFor? b' p (some r))
      generalize b'.symbolFor p r = answer at leads stands after later
      cases r with
      | symbol t => exact absurd follow (elsewhere t)
      | exportsOf file =>
          have exports : b'.member p holder space name = answer.2.exportOf p file space name := by
            simp only [member, leads, stands.2]
            rfl
          rw [exports] at found ⊢
          exact parent?_exportOf wellScoped later after found
      | external module =>
          have named : b'.member p holder space name =
              (some (answer.2.symbolFor p (.external module name)).1,
                (answer.2.symbolFor p (.external module name)).2) := by
            simp only [member, leads, stands.2]
            rfl
          rw [named] at found ⊢
          cases found
          exact after.parent?_symbolFor nofun

/-- A member of the symbol of a namespace is what a container has under the name exactly if the
container stands for that symbol. -/
theorem member_eq_iff (wellScoped : b.WellScoped) (grown : b.Extends b') (proper : b'.Proper p)
    {holder s found : SymbolId} (there : (b.symbol? holder).isSome)
    (isNamespace : b.kind? s = some .namespaceDecl) {name : String}
    (known : (b.table (.members s)).get? space name = some found) :
    (b'.member p holder space name).1 = some found ↔
      b.followSymbol p maxSteps space holder = some (.symbol s) := by
  obtain ⟨x, member, within⟩ := wellScoped.tables (.members s) space name found known
  constructor
  · intro same
    by_cases leads : ∃ t, b.followSymbol p maxSteps space holder = some (.symbol t)
    · obtain ⟨t, leads⟩ := leads
      rw [member_of_symbol wellScoped grown there leads] at same
      dsimp only at same
      split at same
      · obtain ⟨y, again, inside⟩ := wellScoped.tables (.members t) space name found same
        cases member.symm.trans again
        obtain rfl : t = s := Option.some.inj (inside.symm.trans within)
        exact leads
      · cases same
    · have outside := parent?_member wellScoped grown proper there (not_exists.mp leads) same
      have later :=
        (extends_member b' p holder space name).symbol found x (grown.symbol found x member)
      rw [parent?_of_symbol? later, show x.parent = some s from within] at outside
      cases outside
  · intro leads
    rw [member_of_symbol wellScoped grown there leads, if_pos isNamespace, known]

end

end Bindings

namespace Checker

open Bindings

/-! ### Qualified names -/

/-- Ways to name a namespace that is declared at a site: by its own name from where it stands, or
qualified by anything that stands, as a value, for the namespace around it. -/
inductive Qualifies (p : Program) (c : Checker) (site : Site) (name : String) :
    TypeScope → Entity → Prop where
  | own {scope : TypeScope} (file : scope.file = site.file) (inside : scope.inside = site.parent)
      (nearest : site.table = .global → (c.bindings.scope site.file).isModule = false) :
      Qualifies p c site name scope (.ident name)
  | within {scope : TypeScope} {outer : Entity} {around : SymbolId}
      (members : site.table = .members around)
      (stands : ((Check.resolveEntity scope outer .value).outcome p c).1 = some around) :
      Qualifies p c site name scope (.qualified outer name)

theorem outcome_resolveEntity_ident (scope : TypeScope) (name : String) (space : Space)
    (p : Program) (c : Checker) :
    (Check.resolveEntity scope (.ident name) space).outcome p c =
      (c.bindings.lookup scope.file scope.inside space name, c) := rfl

/-- Where the qualifier stands for something as a value, the name is looked up among its members. -/
theorem outcome_resolveEntity_qualified {scope : TypeScope} {outer : Entity} {p : Program}
    {c : Checker} {holder : SymbolId}
    (stands : ((Check.resolveEntity scope outer .value).outcome p c).1 = some holder)
    (name : String) (space : Space) :
    (Check.resolveEntity scope (.qualified outer name) space).outcome p c =
      (Check.member holder space name).outcome p
        ((Check.resolveEntity scope outer .value).outcome p c).2 := by
  simp only [Check.resolveEntity, Check.outcome_bind, stands, Check.outcome_pure]

section

variable {p : Program} {c : Checker} {b : Bindings} {site : Site} {part : Part} {k : Block}

/-- A way to name a namespace leads to what its name stands for as a value where it is declared. -/
theorem Qualifies.resolves (reached : Reached p c) (boundAt : BoundAt p b site part)
    (block : part.block? = some k)
    {scope : TypeScope} {e : Entity} (qualifies : Qualifies p c site k.name scope e)
    {holder : SymbolId}
    (known : ((Bindings.ofProgram p).table site.table).get? .value k.name = some holder) :
    ((Check.resolveEntity scope e .value).outcome p c).1 = some holder := by
  obtain ⟨n, binds⟩ := boundAt.opens block
  have grown : b.Grows (Bindings.ofProgram p) :=
    (grows_declare b site both k.name .namespaceDecl k.doc .namespaceDecl).trans binds.grows
  have valid := boundAt.valid.grows grown
  cases qualifies with
  | own file inside nearest =>
      rw [outcome_resolveEntity_ident, file, inside]
      exact lookup_site reached.bindings valid (boundAt.isOpen.grows grown) nearest known
  | @within outer around members there =>
      let first := (Check.resolveEntity scope outer .value).outcome p c
      have later : Reached p first.2 := reached.after _
      have isNamespace : (Bindings.ofProgram p).kind? around = some .namespaceDecl := by
        unfold Site.Valid at valid
        rw [members] at valid
        exact valid.2
      obtain ⟨x, found, kind⟩ := Option.map_eq_some_iff.mp isNamespace
      have itself : (Bindings.ofProgram p).followSymbol p maxSteps .value around =
          some (.symbol around) := followSymbol_plain found (kind ▸ nofun) 32
      have member := member_of_symbol (wellScoped_ofProgram p) later.bindings
        (Option.isSome_iff_exists.mpr ⟨x, found⟩) itself k.name
      rw [outcome_resolveEntity_qualified there]
      refine (congrArg Prod.fst member).trans ?_
      rw [if_pos isNamespace, ← members]
      exact known

/-- What a block of a namespace declares is among the members of the symbol of the block. By its
qualified name it is found exactly if the name of the block stands for that symbol as a value, and
it does so exactly if nothing else had the name as a value before the block. If a class, a function,
a variable or an enum had it, nothing is found. -/
theorem members_by_qualified_name (reached : Reached p c) (sound : c.Sound p)
    (occurs : Occurs p b site part) (block : part.block? = some k)
    {scope : TypeScope} {e : Entity} (qualifies : Qualifies p c site k.name scope e) {space : Space}
    {name : String} (listed : (space, name) ∈ k.body.declares) :
    let program := Bindings.ofProgram p
    let own := k.symbol b site
    let answer := ((Check.resolveEntity scope (.qualified e name) space).outcome p c).1
    ∃ holder found,
      (program.table site.table).get? .value k.name = some holder ∧
      (program.table (.members own)).get? space name = some found ∧
      (holder = own ↔ ∀ other, (b.table site.table).get? .value k.name = some other → other = own) ∧
      (answer = some found ↔
        program.followSymbol p maxSteps space holder = some (.symbol own)) ∧
      (program.kind? holder ≠ some .redirect → (answer = some found ↔ holder = own)) ∧
      (program.kind? holder ≠ some .redirect → program.kind? holder ≠ some .namespaceDecl →
        answer = none) := by
  have boundAt := occurs.boundAt
  intro program own answer
  obtain ⟨holder, named⟩ := Option.isSome_iff_exists.mp (boundAt.has_name block)
  obtain ⟨found, member⟩ := Option.isSome_iff_exists.mp (boundAt.has_member block listed)
  have wellScoped : program.WellScoped := wellScoped_ofProgram p
  obtain ⟨x, there, _⟩ := wellScoped.tables site.table .value k.name holder named
  have known : (program.symbol? holder).isSome := Option.isSome_iff_exists.mpr ⟨x, there⟩
  have resolves := qualifies.resolves reached boundAt block named
  let first := (Check.resolveEntity scope e .value).outcome p c
  have later : Reached p first.2 := reached.after _
  have safe : Check.Safe p c (Check.resolveEntity scope e .value) := inferInstance
  have proper : first.2.bindings.Proper p := (safe.outcome c (.refl c) sound).1.bindings
  have answered : answer = (first.2.bindings.member p holder space name).1 :=
    congrArg Prod.fst (outcome_resolveEntity_qualified resolves name space)
  have exactly : answer = some found ↔
      program.followSymbol p maxSteps space holder = some (.symbol own) := by
    rw [answered]
    exact member_eq_iff wellScoped later.bindings proper known (boundAt.kind?_symbol block) member
  have itself : program.kind? holder ≠ some .redirect →
      program.followSymbol p maxSteps space holder = some (.symbol holder) := by
    intro plain
    refine followSymbol_plain there (fun kind => plain ?_) 32
    rw [kind?_of_symbol? there, kind]
  refine ⟨holder, found, named, member, boundAt.holder_iff block named, exactly, fun plain => ?_,
    fun plain other => ?_⟩
  · rw [exactly, itself plain]
    simp
  · rw [answered, member_of_symbol wellScoped later.bindings known (itself plain), if_neg other]

end

/-- A file with an interface, and two blocks of a namespace of its name behind it. -/
def reopenedSource : SourceText :=
  let item (decl : Decl) : Item := ⟨0, 0, none, {}, .exportDecl decl⟩
  let block (name : String) : NamespaceBody := .block [({}, .typeAlias ⟨name, [], .members []⟩)]
  ⟨"/a.ts", #[], [item (.interface ⟨"N", [], [], []⟩), item (.namespaceDecl "N" (block "A")),
    item (.namespaceDecl "N" (block "B"))]⟩

def reopened : Program := { files := #[⟨reopenedSource, "/a.ts", true⟩] }

set_option maxRecDepth 20000 in
/-- The first block has the name as a value, and its member is found. -/
theorem first_block_found :
    let top := topSite ⟨0⟩ reopenedSource
    ∃ b part k, Occurs reopened b top part ∧ part.block? = some k ∧
      (Space.type, "A") ∈ k.body.declares ∧
      Qualifies reopened (ofProgram reopened) top k.name { file := ⟨0⟩ } (.ident "N") ∧
      ∃ found, ((Bindings.ofProgram reopened).table (.members (k.symbol b top))).get? .type "A" =
          some found ∧
        ((Check.resolveEntity { file := ⟨0⟩ } (.qualified (.ident "N") "A") .type).outcome reopened
          (ofProgram reopened)).1 = some found := by
  intro top
  have occurs := @Occurs.item reopened ⟨0⟩ _ (reopenedSource.items.take 1)
    (reopenedSource.items.drop 2) _ _ rfl rfl rfl
  have qualifies : Qualifies reopened (ofProgram reopened) top "N" { file := ⟨0⟩ } (.ident "N") :=
    .own rfl rfl nofun
  obtain ⟨holder, found, named, member, own, _, plain, _⟩ := members_by_qualified_name
    (.refl _) (sound_ofProgram reopened) occurs rfl qualifies (List.mem_singleton_self _)
  have free := own.mpr fun other before => by cases before
  have isNamespace := occurs.boundAt.kind?_symbol (k := ⟨"N", {}, _⟩) rfl
  rw [← free] at isNamespace
  exact ⟨_, _, _, occurs, rfl, List.mem_singleton_self _, qualifies, found, member,
    (plain (isNamespace ▸ nofun)).mpr free⟩

set_option maxRecDepth 20000 in
/-- The second block got a symbol that nothing leads to, so its member is lost. -/
theorem second_block_lost :
    let second : Block := ⟨"N", {}, .block [({}, .typeAlias ⟨"B", [], .members []⟩)]⟩
    (∃ b part, Occurs reopened b (topSite ⟨0⟩ reopenedSource) part ∧ part.block? = some second) ∧
      (Space.type, "B") ∈ second.body.declares ∧
      ((Check.resolveEntity { file := ⟨0⟩ } (.qualified (.ident "N") "B") .type).outcome reopened
        (ofProgram reopened)).1 = none := by
  have occurs := @Occurs.item reopened ⟨0⟩ _ (reopenedSource.items.take 2)
    (reopenedSource.items.drop 3) _ _ rfl rfl rfl
  refine ⟨⟨_, _, occurs, rfl⟩, List.mem_singleton_self _, ?_⟩
  cbv

end Checker

end ApiDocs
