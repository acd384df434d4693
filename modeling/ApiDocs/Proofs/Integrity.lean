import Std.Data.String.ToNat
import ApiDocs.Proofs.Links
import ApiDocs.Proofs.Walk

set_option autoImplicit false

/-!
The tables of a package agree with each other: ids are given once and in order, each declaration is
found where its id is recorded, and links lead to declarations and back.
-/

namespace ApiDocs

/-- Whether types can refer to a declaration of that kind. -/
def DeclarationKind.isType : DeclarationKind → Bool
  | .type => true
  | .classDecl => true
  | .component => true
  | .function => false
  | .variable => false

/-- What the tables of a package promise each other. -/
structure Package.Consistent (p : Package) : Prop where
  ids : p.declarationModule.keys = (List.range p.declarationCount).map toString
  ownPath : ∀ path m, p.modules.get? path = some m → m.outPath = path
  ownId : ∀ path m id d, p.modules.get? path = some m → m.declarations.get? id = some d → d.id = id
  home : ∀ id path, p.declarationModule.get? id = some path ↔
    ∃ m, p.modules.get? path = some m ∧ id ∈ m.declarations.keys
  typeLinks : ∀ id ∈ p.typeDeclaration.values, ∃ d, p.declaration? id = some d ∧ d.kind.isType
  edges : ∀ path m, p.modules.get? path = some m → ∀ edge ∈ m.reexports, edge.isResolved →
    ∃ target d, p.modules.get? edge.path = some target ∧
      target.declarations.get? edge.id = some d ∧ d.name = edge.sourceName
  backLinks : ∀ path m id d, p.modules.get? path = some m → m.declarations.get? id = some d →
    d.exportedIn = p.modules.entries.flatMap fun (other, m) =>
      (m.reexports.filter fun e => e.path = path ∧ e.id = d.id).map fun e => ⟨other, e.name⟩

/-- A declaration is still found in a package that records the same modules and has kept their
declarations. -/
theorem Package.declaration?_mono {p q : Package} (same : q.declarationModule = p.declarationModule)
    (kept : ∀ path m, p.modules.get? path = some m →
      ∃ new, q.modules.get? path = some new ∧ new.declarations = m.declarations)
    {id : String} {d : Declaration} (found : p.declaration? id = some d) :
    q.declaration? id = some d := by
  obtain ⟨path, recorded, rest⟩ := Option.bind_eq_some_iff.mp found
  obtain ⟨m, there, listed⟩ := Option.bind_eq_some_iff.mp rest
  obtain ⟨new, after, equal⟩ := kept path m there
  have recordedToo : q.declarationModule.get? id = some path := same ▸ recorded
  have listedToo : new.declarations.get? id = some d := equal ▸ listed
  exact Option.bind_eq_some_iff.mpr ⟨path, recordedToo,
    Option.bind_eq_some_iff.mpr ⟨new, after, listedToo⟩⟩

namespace Extraction

/-- What holds of a package while its declarations are collected: no edge has an id yet, and no
declaration a back link. -/
structure Valid (e : Extraction) : Prop where
  ids : e.package.declarationModule.keys = (List.range e.nextId).map toString
  count : e.package.declarationCount = e.nextId
  ownPath : ∀ path m, e.package.modules.get? path = some m → m.outPath = path
  stored : ∀ path m id d, e.package.modules.get? path = some m → m.declarations.get? id = some d →
    d.id = id ∧ d.exportedIn = [] ∧ e.package.declarationModule.get? id = some path
  found : ∀ id path, e.package.declarationModule.get? id = some path →
    ∃ m, e.package.modules.get? path = some m ∧ id ∈ m.declarations.keys
  types : ∀ id ∈ e.package.typeDeclaration.values,
    ∃ d, e.package.declaration? id = some d ∧ d.kind.isType
  unlinked : ∀ path m, e.package.modules.get? path = some m → ∀ edge ∈ m.reexports, edge.id = ""

theorem valid_empty (name outDir packagePath : String) :
    Valid { package := Package.empty name outDir, packagePath } where
  ids := rfl
  count := rfl
  ownPath _ _ found := by cases found
  stored _ _ _ _ found := by cases found
  found _ _ found := by cases found
  types _ inside := by cases inside
  unlinked _ _ found := by cases found

namespace Valid

/-- The next id is new. -/
theorem fresh {e : Extraction} (valid : e.Valid) :
    toString e.nextId ∉ e.package.declarationModule.keys := by
  rw [valid.ids]
  intro inside
  obtain ⟨n, below, same⟩ := List.mem_map.mp inside
  rw [Nat.repr_injective same, List.mem_range] at below
  exact Nat.lt_irrefl _ below

/-- An id that is recorded is not the next one. -/
theorem ne_of_recorded {e : Extraction} (valid : e.Valid) {id path : String}
    (recorded : e.package.declarationModule.get? id = some path) : id ≠ toString e.nextId := by
  intro same
  rw [same, (OrdMap.get?_eq_none_iff _ _).mpr valid.fresh] at recorded
  cases recorded

end Valid

/-! ### Steps -/

/-- The modules with a declaration more. -/
theorem get?_modules_store (e : Extraction) (site : ModuleSite) (name documentation : String)
    (content : Content) (path : String) :
    (e.store site name documentation content).package.modules.get? path =
      (e.package.modules.get? path).map fun m =>
        if path = site.outPath then
          { m with declarations := m.declarations.insert (toString e.nextId)
                                    (e.next name documentation content) }
        else m := OrdMap.get?_modify _ _ _ _

theorem get?_declarationModule_store (e : Extraction) (site : ModuleSite)
    (name documentation : String) (content : Content) (id : String) :
    (e.store site name documentation content).package.declarationModule.get? id =
      if id = toString e.nextId then some site.outPath else e.package.declarationModule.get? id :=
  OrdMap.get?_insert _ _ _ _

theorem declarationCount_store {e : Extraction} (valid : e.Valid) (site : ModuleSite)
    (name documentation : String) (content : Content)
    (inside : site.outPath ∈ e.package.modules.keys) :
    (e.store site name documentation content).package.declarationCount =
      e.package.declarationCount + 1 := by
  obtain ⟨⟨_, m⟩, listed, rfl⟩ := List.mem_map.mp inside
  have here := (OrdMap.get?_eq_some_iff _ site.outPath m).mpr listed
  have absent : toString e.nextId ∉ m.declarations.keys := by
    intro known
    obtain ⟨⟨id, d⟩, entry, same⟩ := List.mem_map.mp known
    have recorded := (valid.stored site.outPath m id d here
      ((OrdMap.get?_eq_some_iff _ id d).mpr entry)).2.2
    exact valid.ne_of_recorded recorded same
  have total := OrdMap.total_modify (·.declarations.size) e.package.modules site.outPath m
    (fun m => { m with declarations := m.declarations.insert (toString e.nextId)
                                        (e.next name documentation content) }) listed
  have grown : (m.declarations.insert (toString e.nextId)
      (e.next name documentation content)).size = m.declarations.size + 1 := by
    unfold OrdMap.size
    rw [OrdMap.entries_insert_new m.declarations _ _ absent, List.length_append]
    rfl
  simp only [grown] at total
  have count : (e.store site name documentation content).package.declarationCount +
      m.declarations.size = e.package.declarationCount + (m.declarations.size + 1) := total
  omega

/-- The declarations of a module after one more was stored: those that were there, and the new one in
its module. -/
theorem get?_store_cases {e : Extraction} {site : ModuleSite} {name documentation : String}
    {content : Content} {path : String} {m : Module} {id : String} {d : Declaration}
    (there : (e.store site name documentation content).package.modules.get? path = some m)
    (listed : m.declarations.get? id = some d) :
    (path = site.outPath ∧ id = toString e.nextId ∧ d = e.next name documentation content) ∨
      ∃ old, e.package.modules.get? path = some old ∧ old.declarations.get? id = some d := by
  rw [get?_modules_store] at there
  obtain ⟨old, before, same⟩ := Option.map_eq_some_iff.mp there
  split at same
  · rename_i here
    subst same
    rw [OrdMap.get?_insert] at listed
    split at listed
    · rename_i last
      exact Or.inl ⟨here, last, (Option.some.inj listed).symm⟩
    · exact Or.inr ⟨old, before, listed⟩
  · subst same
    exact Or.inr ⟨old, before, listed⟩

/-- A declaration that was there is still found. -/
theorem declaration?_store {e : Extraction} (valid : e.Valid) (site : ModuleSite)
    (name documentation : String) (content : Content) {id : String} {d : Declaration}
    (found : e.package.declaration? id = some d) :
    (e.store site name documentation content).package.declaration? id = some d := by
  obtain ⟨path, recorded, rest⟩ := Option.bind_eq_some_iff.mp found
  obtain ⟨m, there, listed⟩ := Option.bind_eq_some_iff.mp rest
  have differs := valid.ne_of_recorded recorded
  unfold Package.declaration?
  rw [get?_declarationModule_store, if_neg differs, recorded]
  simp only [Option.bind_eq_bind, Option.bind_some, get?_modules_store, there, Option.map_some]
  split
  · exact (OrdMap.get?_insert_other _ _ _ _ differs).trans listed
  · exact listed

/-- The new declaration is found in its module. -/
theorem declaration?_store_next (e : Extraction) (site : ModuleSite) (name documentation : String)
    (content : Content) (inside : site.outPath ∈ e.package.modules.keys) :
    (e.store site name documentation content).package.declaration? (toString e.nextId) =
      some (e.next name documentation content) := by
  obtain ⟨⟨_, m⟩, listed, rfl⟩ := List.mem_map.mp inside
  have there := (OrdMap.get?_eq_some_iff _ site.outPath m).mpr listed
  unfold Package.declaration?
  rw [get?_declarationModule_store, if_pos rfl]
  simp only [Option.bind_eq_bind, Option.bind_some, get?_modules_store, there, Option.map_some,
    ↓reduceIte, OrdMap.get?_insert_self]

theorem mem_typeDeclaration_store {e : Extraction} {site : ModuleSite} {name documentation : String}
    {content : Content} {id : String}
    (inside : id ∈ (e.store site name documentation content).package.typeDeclaration.values) :
    (id = toString e.nextId ∧ content.declares.isSome) ∨ id ∈ e.package.typeDeclaration.values := by
  cases declares : content.declares with
  | none =>
      simp only [store, declares] at inside
      exact Or.inr inside
  | some t =>
      simp only [store, declares] at inside
      rcases OrdMap.mem_values_insert inside with same | known
      · exact Or.inl ⟨same, rfl⟩
      · exact Or.inr known

theorem valid_claimed {e : Extraction} (valid : e.Valid) (s : SymbolId) : (e.claimed s).Valid :=
  ⟨valid.ids, valid.count, valid.ownPath, valid.stored, valid.found, valid.types, valid.unlinked⟩

theorem valid_addStar {e : Extraction} (valid : e.Valid) (site : ModuleSite) (target : String) :
    (e.addStar site target).Valid :=
  ⟨valid.ids, valid.count, valid.ownPath, valid.stored, valid.found, valid.types, valid.unlinked⟩

theorem valid_store {e : Extraction} (valid : e.Valid) (site : ModuleSite)
    (name documentation : String) (content : Content)
    (inside : site.outPath ∈ e.package.modules.keys)
    (kind : content.declares.isSome → (e.next name documentation content).kind.isType) :
    (e.store site name documentation content).Valid where
  ids := by
    change (e.package.declarationModule.insert (toString e.nextId) _).keys =
      (List.range (e.nextId + 1)).map toString
    rw [OrdMap.keys_insert, if_neg valid.fresh, valid.ids, List.range_succ, List.map_append]
    rfl
  count := by
    rw [declarationCount_store valid site name documentation content inside, valid.count]
    rfl
  ownPath path m there := by
    rw [get?_modules_store] at there
    obtain ⟨old, before, rfl⟩ := Option.map_eq_some_iff.mp there
    have own := valid.ownPath path old before
    split <;> exact own
  stored path m id d there listed := by
    rw [get?_declarationModule_store]
    rcases get?_store_cases there listed with ⟨rfl, rfl, rfl⟩ | ⟨old, before, known⟩
    · exact ⟨rfl, rfl, if_pos rfl⟩
    · obtain ⟨own, unlinked, recorded⟩ := valid.stored path old id d before known
      exact ⟨own, unlinked, (if_neg (valid.ne_of_recorded recorded)).trans recorded⟩
  found id path recorded := by
    rw [get?_declarationModule_store] at recorded
    rw [get?_modules_store]
    split at recorded
    · rename_i last
      cases recorded
      obtain ⟨⟨_, m⟩, listed, rfl⟩ := List.mem_map.mp inside
      rw [(OrdMap.get?_eq_some_iff _ site.outPath m).mpr listed]
      refine ⟨_, rfl, ?_⟩
      rw [last, ← OrdMap.contains_iff]
      simp [OrdMap.contains]
    · obtain ⟨m, there, listed⟩ := valid.found id path recorded
      rw [there]
      refine ⟨_, rfl, ?_⟩
      split
      · change id ∈ (m.declarations.insert _ _).keys
        rw [OrdMap.keys_insert]
        split
        · exact listed
        · exact List.mem_append_left _ listed
      · exact listed
  types id listed := by
    rcases mem_typeDeclaration_store listed with ⟨rfl, declares⟩ | known
    · exact ⟨_, declaration?_store_next e site name documentation content inside, kind declares⟩
    · obtain ⟨d, found, type⟩ := valid.types id known
      exact ⟨d, declaration?_store valid site name documentation content found, type⟩
  unlinked path m there := by
    rw [get?_modules_store] at there
    obtain ⟨old, before, rfl⟩ := Option.map_eq_some_iff.mp there
    have unlinked := valid.unlinked path old before
    split <;> exact unlinked

theorem get?_modules_addEdges (e : Extraction) (site : ModuleSite) (edges : List Reexport)
    (path : String) :
    (e.addEdges site edges).package.modules.get? path =
      (e.package.modules.get? path).map fun m =>
        if path = site.outPath then { m with reexports := m.reexports ++ edges } else m :=
  OrdMap.get?_modify _ _ _ _

/-- A module with more edges has the declarations that it had. -/
theorem get?_addEdges_cases {e : Extraction} {site : ModuleSite} {edges : List Reexport}
    {path : String} {m : Module}
    (there : (e.addEdges site edges).package.modules.get? path = some m) :
    ∃ old, e.package.modules.get? path = some old ∧ m.outPath = old.outPath ∧
      m.declarations = old.declarations ∧
      ∀ edge ∈ m.reexports, edge ∈ old.reexports ∨ edge ∈ edges := by
  rw [get?_modules_addEdges] at there
  obtain ⟨old, known, rfl⟩ := Option.map_eq_some_iff.mp there
  refine ⟨old, known, ?_⟩
  split
  · exact ⟨rfl, rfl, fun edge listed => List.mem_append.mp listed⟩
  · exact ⟨rfl, rfl, fun edge listed => Or.inl listed⟩

theorem get?_addEdges_kept {e : Extraction} (site : ModuleSite) (edges : List Reexport)
    {path : String} {m : Module} (known : e.package.modules.get? path = some m) :
    ∃ new, (e.addEdges site edges).package.modules.get? path = some new ∧
      new.declarations = m.declarations := by
  rw [get?_modules_addEdges, known]
  refine ⟨_, rfl, ?_⟩
  split <;> rfl

theorem declaration?_addEdges {e : Extraction} (site : ModuleSite) (edges : List Reexport)
    {id : String} {d : Declaration} (found : e.package.declaration? id = some d) :
    (e.addEdges site edges).package.declaration? id = some d :=
  Package.declaration?_mono (p := e.package) (q := (e.addEdges site edges).package) rfl
    (fun _ _ known => get?_addEdges_kept site edges known) found

theorem valid_addEdges {e : Extraction} (valid : e.Valid) (site : ModuleSite)
    (edges : List Reexport) (unlinked : ∀ edge ∈ edges, edge.id = "") :
    (e.addEdges site edges).Valid := by
  refine ⟨valid.ids, ?_, ?_, ?_, ?_, ?_, ?_⟩
  · refine Eq.trans ?_ valid.count
    unfold addEdges Package.declarationCount
    rw [OrdMap.modify_eq_mapWithKey]
    apply OrdMap.total_mapWithKey
    intro path m
    split <;> rfl
  · intro path m there
    obtain ⟨old, known, same, _⟩ := get?_addEdges_cases there
    exact same.trans (valid.ownPath path old known)
  · intro path m id d there listed
    obtain ⟨old, known, _, same, _⟩ := get?_addEdges_cases there
    exact valid.stored path old id d known (same ▸ listed)
  · intro id path recorded
    obtain ⟨m, there, listed⟩ := valid.found id path recorded
    obtain ⟨new, kept, same⟩ := get?_addEdges_kept site edges there
    exact ⟨new, kept, same ▸ listed⟩
  · intro id listed
    obtain ⟨d, found, type⟩ := valid.types id listed
    exact ⟨d, declaration?_addEdges site edges found, type⟩
  · intro path m there edge listed
    obtain ⟨old, known, _, _, split⟩ := get?_addEdges_cases there
    rcases split edge listed with old_ | new
    · exact valid.unlinked path old known edge old_
    · exact unlinked edge new

/-- A module that is opened is empty; the others stay as they are. -/
theorem get?_openModule_cases {e : Extraction} {source : SourceFile} {path : String} {m : Module}
    (there : (e.openModule source).package.modules.get? path = some m) :
    (m.outPath = path ∧ m.declarations = .empty ∧ m.reexports = []) ∨
      e.package.modules.get? path = some m := by
  rcases Decidable.em (path = e.outputPath source.path) with same | differs
  · left
    subst same
    simp only [openModule, OrdMap.get?_insert_self, Option.some.injEq] at there
    subst there
    exact ⟨rfl, rfl, rfl⟩
  · right
    simpa only [openModule, OrdMap.get?_insert_other _ _ _ _ differs] using there

theorem get?_openModule_kept {e : Extraction} {source : SourceFile}
    (absent : e.outputPath source.path ∉ e.package.modules.keys) {path : String} {m : Module}
    (known : e.package.modules.get? path = some m) :
    (e.openModule source).package.modules.get? path = some m := by
  have differs : path ≠ e.outputPath source.path := by
    intro same
    rw [same, (OrdMap.get?_eq_none_iff _ _).mpr absent] at known
    cases known
  simpa only [openModule, OrdMap.get?_insert_other _ _ _ _ differs] using known

theorem declaration?_openModule {e : Extraction} {source : SourceFile}
    (absent : e.outputPath source.path ∉ e.package.modules.keys) {id : String} {d : Declaration}
    (found : e.package.declaration? id = some d) :
    (e.openModule source).package.declaration? id = some d :=
  Package.declaration?_mono (p := e.package) (q := (e.openModule source).package) rfl
    (fun _ m known => ⟨m, get?_openModule_kept absent known, rfl⟩) found

theorem valid_openModule {e : Extraction} (valid : e.Valid) (source : SourceFile)
    (absent : e.outputPath source.path ∉ e.package.modules.keys) : (e.openModule source).Valid := by
  refine ⟨valid.ids, ?_, ?_, ?_, ?_, ?_, ?_⟩
  · refine Eq.trans ?_ valid.count
    exact OrdMap.total_insert_new (·.declarations.size) e.package.modules _ _ absent
  · intro path m there
    rcases get?_openModule_cases there with ⟨own, _⟩ | known
    · exact own
    · exact valid.ownPath path m known
  · intro path m id d there listed
    rcases get?_openModule_cases there with ⟨_, none, _⟩ | known
    · rw [none] at listed
      cases listed
    · exact valid.stored path m id d known listed
  · intro id path recorded
    obtain ⟨m, there, listed⟩ := valid.found id path recorded
    exact ⟨m, get?_openModule_kept absent there, listed⟩
  · intro id listed
    obtain ⟨d, found, type⟩ := valid.types id listed
    exact ⟨d, declaration?_openModule absent found, type⟩
  · intro path m there edge listed
    rcases get?_openModule_cases there with ⟨_, _, none⟩ | known
    · rw [none] at listed
      cases listed
    · exact valid.unlinked path m known edge listed

/-- Only aliases, interfaces, classes and class components declare types. -/
theorem Describes.isType {space : Space} {describe : SymbolId → Check (Option Content)}
    (kind : Describes space describe) {s : SymbolId} {p : Program} {c : Checker} {content : Content}
    (shown : ((describe s).outcome p c).1 = some content) (declares : content.declares.isSome)
    (d : Declaration) (body : d.body = content.body) : d.kind.isType := by
  have callable : ∀ t c, ((Content.ofCallable t).outcome p c).1 = some content →
      content.declares = none := by
    intro t c shown
    simp only [Content.ofCallable, Check.outcome_bind] at shown
    split at shown
    · simp only [Check.outcome_pure, Option.some.injEq] at shown
      rw [← shown]
    · simp only [Check.outcome_bind, Check.outcome_pure, Option.map_eq_some_iff] at shown
      obtain ⟨signature, _, same⟩ := shown
      rw [← same]
  unfold Declaration.kind
  cases kind with
  | type =>
      simp only [Content.ofType, Check.outcome_bind, Check.outcome_pure, Option.some.injEq] at shown
      rw [body, ← shown]
      rfl
  | classDecl =>
      simp only [Content.ofClass, Check.outcome_bind] at shown
      split at shown
      · simp only [Check.outcome_pure, Option.some.injEq] at shown
        rw [body, ← shown]
        rfl
      · simp only [Check.outcome_bind, Check.outcome_pure, Option.map_eq_some_iff] at shown
        obtain ⟨members, _, same⟩ := shown
        rw [body, ← same]
        rfl
  | function =>
      simp only [Content.ofFunction, Check.outcome_bind] at shown
      rw [callable _ _ shown] at declares
      cases declares
  | variableDecl declarator =>
      simp only [Content.ofVariable, Check.outcome_bind] at shown
      split at shown
      · rename_i found
        simp only [Check.outcome_pure, Option.some.injEq] at shown
        rw [callable _ _ (shown ▸ found)] at declares
        cases declares
      · split at shown
        · simp only [Check.outcome_bind, Check.outcome_pure, Option.some.injEq] at shown
          rw [← shown] at declares
          cases declares
        · simp only [Check.outcome_pure, reduceCtorEq] at shown

theorem keeps_valid (p : Program) : Keeps p fun e _ => e.Valid where
  visit e c site space name describe kind opened valid := by
    rcases visit_cases e site space name describe p c with same | ⟨s, _, _, described, c', work, result⟩
    · rw [same]
      exact valid
    · rw [result]
      have claimed := valid_claimed valid s
      cases described with
      | none => exact claimed
      | some content =>
          refine valid_store claimed site name _ content opened.module fun declares => ?_
          exact kind.isType (congrArg Prod.fst work) declares _ rfl
  edges e _ site edges unlinked valid := valid_addEdges valid site edges unlinked
  star _ _ site target valid := valid_addStar valid site target
  module _ _ source absent valid := valid_openModule valid source absent

end Extraction

/-! ### Links -/

namespace Package

/-- No edge has an id, those of star exports included. -/
theorem id_of_mem_edgesOf {p : Package} {stars : List StarExport} {path : String} {m : Module}
    (unlinked : ∀ edge ∈ m.reexports, edge.id = "") {edge : Reexport}
    (inside : edge ∈ p.edgesOf stars path m) : edge.id = "" := by
  rcases List.mem_append.mp inside with own | starred
  · exact unlinked edge own
  · obtain ⟨star, _, listed⟩ := List.mem_flatMap.mp starred
    unfold starEdges at listed
    split at listed
    · cases listed
    · obtain ⟨d, _, rfl⟩ := List.mem_map.mp listed
      rfl

/-- A linked edge has the id that it was given. -/
theorem id_linkedEdge_iff {p : Package} {edge : Reexport} (unlinked : edge.id = "") {id : String}
    (nonempty : id ≠ "") : (p.linkedEdge edge).id = id ↔ p.newId? edge = some id := by
  unfold linkedEdge
  cases p.newId? edge with
  | none => simpa [unlinked] using nonempty.symm
  | some new => simp

/-- Where an edge was given an id, that is the id of a declaration of the name that it asks for. -/
theorem leadsTo?_of_newId? {p : Package} {edge : Reexport} {id : String}
    (given : p.newId? edge = some id) :
    ∃ target d, p.modules.get? edge.path = some target ∧ d ∈ target.declarations.values ∧
      d.name = edge.sourceName ∧ d.id = id := by
  unfold newId? at given
  split at given
  · cases given
  · obtain ⟨d, leads, same⟩ := Option.map_eq_some_iff.mp given
    obtain ⟨target, there, named⟩ := Option.bind_eq_some_iff.mp leads
    have name := List.find?_some named
    exact ⟨target, d, there, List.mem_of_find?_eq_some named, by simpa using name, same⟩

theorem get?_modules_linked (p : Package) (edges : String → Module → List Reexport)
    (path : String) :
    (p.linked edges).modules.get? path = (p.modules.get? path).map (p.linkedModule edges path) :=
  OrdMap.get?_mapWithKey _ _ _

theorem get?_linkedModule (p : Package) (edges : String → Module → List Reexport) (path : String)
    (m : Module) (id : String) :
    (p.linkedModule edges path m).declarations.get? id =
      (m.declarations.get? id).map (p.linkedDeclaration edges path) :=
  OrdMap.get?_mapWithKey _ _ _

/-- Linking adds no modules. -/
theorem module_of_linked {p : Package} {edges : String → Module → List Reexport} {path : String}
    {m : Module} (there : (p.linked edges).modules.get? path = some m) :
    ∃ old, p.modules.get? path = some old ∧ p.linkedModule edges path old = m := by
  rw [get?_modules_linked] at there
  exact Option.map_eq_some_iff.mp there

/-- Linking adds no declarations. -/
theorem declaration_of_linked {p : Package} {edges : String → Module → List Reexport}
    {path id : String} {m : Module} {d : Declaration}
    (listed : (p.linkedModule edges path m).declarations.get? id = some d) :
    ∃ old, m.declarations.get? id = some old ∧ p.linkedDeclaration edges path old = d := by
  rw [get?_linkedModule] at listed
  exact Option.map_eq_some_iff.mp listed

theorem keys_linkedModule (p : Package) (edges : String → Module → List Reexport) (path : String)
    (m : Module) : (p.linkedModule edges path m).declarations.keys = m.declarations.keys :=
  OrdMap.keys_mapWithKey _ _

theorem declaration?_linked {p : Package} (edges : String → Module → List Reexport) {id : String}
    {d : Declaration} (found : p.declaration? id = some d) :
    ∃ linked, (p.linked edges).declaration? id = some linked ∧ linked.name = d.name ∧
      linked.body = d.body := by
  obtain ⟨path, recorded, rest⟩ := Option.bind_eq_some_iff.mp found
  obtain ⟨m, there, listed⟩ := Option.bind_eq_some_iff.mp rest
  have same : (p.linked edges).declarationModule.get? id = some path := recorded
  unfold declaration?
  rw [same]
  simp only [Option.bind_eq_bind, Option.bind_some, get?_modules_linked, there, Option.map_some,
    get?_linkedModule, listed]
  exact ⟨_, rfl, rfl, rfl⟩

theorem declarationCount_linked (p : Package) (edges : String → Module → List Reexport) :
    (p.linked edges).declarationCount = p.declarationCount := by
  apply OrdMap.total_mapWithKey
  intro path m
  simp [OrdMap.size, linkedModule]

end Package

theorem Extraction.Valid.nonempty {e : Extraction} (valid : e.Valid) {id path : String}
    (recorded : e.package.declarationModule.get? id = some path) : id ≠ "" := by
  have known : id ∈ e.package.declarationModule.keys :=
    OrdMap.mem_keys_of_mem ((OrdMap.get?_eq_some_iff _ _ _).mp recorded)
  rw [valid.ids] at known
  obtain ⟨n, _, rfl⟩ := List.mem_map.mp known
  exact Nat.repr_ne_empty

theorem Extraction.Valid.keyed {e : Extraction} (valid : e.Valid) : e.package.Keyed := by
  intro path m there id d listed
  obtain ⟨own, _, recorded⟩ := valid.stored path m id d
    ((OrdMap.get?_eq_some_iff _ _ _).mpr there) ((OrdMap.get?_eq_some_iff _ _ _).mpr listed)
  exact ⟨own, valid.nonempty recorded⟩

section

variable {e : Extraction} (valid : e.Valid)

include valid

/-- No edge had an id before the package was linked. -/
theorem Extraction.Valid.unlinked_edges {path : String} {m : Module}
    (there : e.package.modules.get? path = some m) {edge : Reexport}
    (inside : edge ∈ e.package.edgesOf e.stars path m) : edge.id = "" :=
  Package.id_of_mem_edgesOf (valid.unlinked path m there) inside

/-- An edge that was given an id leads to a declaration of the linked package, which has that id and
the name that the edge asks for. -/
theorem Extraction.Valid.leads_on {path : String} {m : Module}
    (there : e.package.modules.get? path = some m) {edge : Reexport}
    (inside : edge ∈ e.package.edgesOf e.stars path m)
    (resolved : (e.package.linkedEdge edge).isResolved) :
    ∃ target d, (e.package.linked (e.package.edgesOf e.stars)).modules.get? edge.path = some target ∧
      target.declarations.get? (e.package.linkedEdge edge).id = some d ∧ d.name = edge.sourceName := by
  have nonempty : (e.package.linkedEdge edge).id ≠ "" := by
    simpa [Reexport.isResolved] using resolved
  have given :=
    (Package.id_linkedEdge_iff (valid.unlinked_edges there inside) nonempty).mp rfl
  obtain ⟨target, d, goal, stored, name, own⟩ := Package.leadsTo?_of_newId? given
  obtain ⟨id, entry⟩ := (OrdMap.mem_values_iff _ _).mp stored
  have known := (OrdMap.get?_eq_some_iff _ _ _).mpr entry
  have same : d.id = id := (valid.stored edge.path target id d goal known).1
  have after := Package.get?_modules_linked e.package (e.package.edgesOf e.stars) edge.path
  rw [goal, Option.map_some] at after
  have linked := Package.get?_linkedModule e.package (e.package.edgesOf e.stars) edge.path target id
  rw [known, Option.map_some, ← same, own] at linked
  exact ⟨_, _, after, linked, name⟩

/-- A declaration of the linked package lists the edges that lead to it: it listed none before, and
the edges with its id are those that were given it. -/
theorem Extraction.Valid.exportedIn_linked {path id : String} {m : Module} {d : Declaration}
    (there : e.package.modules.get? path = some m) (listed : m.declarations.get? id = some d) :
    let p := e.package.linked (e.package.edgesOf e.stars)
    (e.package.linkedDeclaration (e.package.edgesOf e.stars) path d).exportedIn =
      p.modules.entries.flatMap fun (other, m) =>
        (m.reexports.filter fun e => e.path = path ∧ e.id = d.id).map fun e => ⟨other, e.name⟩ := by
  obtain ⟨own, none, recorded⟩ := valid.stored path m id d there listed
  have nonempty : d.id ≠ "" := own ▸ valid.nonempty recorded
  unfold Package.linkedDeclaration
  dsimp only
  rw [none, List.nil_append]
  unfold Package.backLinks Package.linked
  rw [OrdMap.entries_mapWithKey, List.flatMap_map]
  simp only [List.flatMap]
  congr 1
  apply List.map_congr_left
  rintro ⟨other, m⟩ entry
  have known := (OrdMap.get?_eq_some_iff _ _ _).mpr entry
  unfold Package.linkedModule
  dsimp only
  rw [List.filter_map, List.map_map]
  congr 1
  apply List.filter_congr
  intro edge inside
  have given := Package.id_linkedEdge_iff (p := e.package) (valid.unlinked_edges known inside) nonempty
  simp only [Function.comp_apply, given]
  rfl

/-- Linking what was collected makes the tables of the package agree. -/
theorem Extraction.Valid.consistent : (e.package.linked (e.package.edgesOf e.stars)).Consistent := by
  constructor
  case ids =>
    rw [Package.declarationCount_linked, valid.count]
    exact valid.ids
  case ownPath =>
    intro path m there
    obtain ⟨old, before, rfl⟩ := Package.module_of_linked there
    exact valid.ownPath path old before
  case ownId =>
    intro path m id d there listed
    obtain ⟨old, before, rfl⟩ := Package.module_of_linked there
    obtain ⟨d, known, rfl⟩ := Package.declaration_of_linked listed
    exact (valid.stored path old id d before known).1
  case home =>
    intro id path
    rw [Package.get?_modules_linked]
    constructor
    · intro recorded
      obtain ⟨m, there, listed⟩ := valid.found id path recorded
      exact ⟨_, by rw [there, Option.map_some], by rwa [Package.keys_linkedModule]⟩
    · rintro ⟨m, there, listed⟩
      obtain ⟨old, before, rfl⟩ := Option.map_eq_some_iff.mp there
      rw [Package.keys_linkedModule] at listed
      obtain ⟨⟨_, d⟩, entry, rfl⟩ := List.mem_map.mp listed
      exact (valid.stored path old _ d before ((OrdMap.get?_eq_some_iff _ _ _).mpr entry)).2.2
  case typeLinks =>
    intro id inside
    obtain ⟨d, found, type⟩ := valid.types id inside
    obtain ⟨linked, after, _, same⟩ := Package.declaration?_linked _ found
    refine ⟨linked, after, ?_⟩
    unfold Declaration.kind at type ⊢
    rw [same]
    exact type
  case edges =>
    intro path m there edge inside resolved
    obtain ⟨old, before, rfl⟩ := Package.module_of_linked there
    obtain ⟨source, listed, rfl⟩ := List.mem_map.mp inside
    exact valid.leads_on before listed resolved
  case backLinks =>
    intro path m id d there listed
    obtain ⟨old, before, rfl⟩ := Package.module_of_linked there
    obtain ⟨d, known, rfl⟩ := Package.declaration_of_linked listed
    exact valid.exportedIn_linked before known

end

/-- The tables of every package that a program is read into agree with each other: ids count up in
the order of the declarations, each is found in one module, the one recorded for it, types lead to
declarations of types, edges to declarations of the name that they ask for, and every declaration
lists the edges that lead to it. -/
theorem Package.addProgram_consistent (name outDir packagePath : String) (program : Program) :
    ((Package.empty name outDir).addProgram packagePath program).Consistent := by
  have valid := (Extraction.keeps_valid program).visitAll _ (Checker.ofProgram program)
    (Extraction.valid_empty name outDir packagePath)
  unfold addProgram
  dsimp only
  rw [Package.resolve_eq _ _ valid.keyed]
  exact valid.consistent

end ApiDocs
