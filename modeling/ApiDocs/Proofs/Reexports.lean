import ApiDocs.Proofs.Exact
import ApiDocs.Proofs.Exporting.Own

set_option autoImplicit false

/-!
Edges of modules and exports of files. An edge leads to a declaration by its name, an export to a
symbol through the tables of the files. Where the export of a file goes the way that the edge was
written for, both end at the same symbol if the other file exports the declaration under its name.
-/

namespace ApiDocs

open Syntax

namespace Bindings

/-- A name that a file exports from another module is an export of it in both spaces. -/
theorem exports_bindExport {b : Bindings} (site : Site) (inside : site.file.index < b.files.size)
    (doc : DocComment) (specifier name : String) (exported : Option String) (space : Space) :
    (((b.bindExport site doc (some specifier) (.named name exported)).scope site.file).exports.get?
      space (exported.getD name)).isSome := by
  unfold bindExport
  simp only [exportNode?, exportBoth, exportAll]
  rw [scope_modify_self (b.addSymbol _).2 inside]
  simp only [both, List.map_cons, List.map_nil, List.foldl_cons, List.foldl_nil]
  cases space with
  | value => exact SymbolTable.get?_insert_isSome _ _ _ _
  | type =>
      obtain ⟨s, known⟩ := Option.isSome_iff_exists.mp (SymbolTable.get?_insert_isSome _ _ _ _)
      exact Option.isSome_iff_exists.mpr ⟨s, SymbolTable.get?_insert_kept _ _ _ known⟩

end Bindings

/-! ### Where edges come from -/

/-- A file writes an edge: it names it in an export from another module, or exports all of that
module. -/
inductive Syntax.SourceText.Writes (source : SourceText) (edge : Reexport) (specifier : String) :
    Prop where
  | named {item : Item} {specifiers : List ExportSpecifier} {exported : Option String}
      (listed : item ∈ source.items) (kind : item.kind = .exportNamed specifiers (some specifier))
      (inside : .named edge.sourceName exported ∈ specifiers)
      (name : edge.name = exported.getD edge.sourceName) : Writes source edge specifier
  | star {item : Item} (listed : item ∈ source.items) (kind : item.kind = .exportAll specifier)
      (name : edge.name = edge.sourceName) : Writes source edge specifier

/-- Linking an edge does not change how it was written. -/
theorem Syntax.SourceText.Writes.linked {source : SourceText} {edge : Reexport} {specifier : String}
    (writes : source.Writes edge specifier) (p : Package) :
    source.Writes (p.linkedEdge edge) specifier := by
  cases writes with
  | named listed kind inside name => exact .named listed kind inside name
  | star listed kind name => exact .star listed kind name

namespace Extraction

variable {e : Extraction} {p : Program} {file : FileId} {source : SourceText}

theorem writes_of_mem_edges {edge : Reexport} (inside : edge ∈ source.edges e p file) :
    ∃ specifier, e.moduleTarget? p file specifier = some edge.path ∧
      source.Writes edge specifier := by
  obtain ⟨item, listed, written⟩ := List.mem_flatMap.mp inside
  unfold ItemKind.edges at written
  split at written
  · rename_i specifiers specifier kind
    split at written
    · rename_i target leads
      obtain ⟨exported, named, same⟩ := List.mem_filterMap.mp written
      cases exported with
      | named name exported =>
          cases same
          exact ⟨specifier, leads, .named listed kind named rfl⟩
      | default | wholeModule => cases same
    · cases written
  · cases written

theorem item_of_mem_stars {target : String} (inside : target ∈ source.stars e p file) :
    ∃ item ∈ source.items, ∃ specifier, item.kind = .exportAll specifier ∧
      e.moduleTarget? p file specifier = some target := by
  obtain ⟨item, listed, star⟩ := List.mem_filterMap.mp inside
  unfold ItemKind.star? at star
  split at star
  · rename_i specifier kind
    exact ⟨item, listed, specifier, kind, star⟩
  · cases star

/-- The edges of a module, those of its star exports included, were written by its file. -/
theorem ReadFrom.writes {c : Checker} {stars : List StarExport} {path : String} {m : Module}
    (read : ReadFrom p e c stars path file source m) {package : Package} {edge : Reexport}
    (inside : edge ∈ package.edgesOf stars path m) :
    ∃ specifier, e.moduleTarget? p file specifier = some edge.path ∧
      source.Writes edge specifier := by
  rcases List.mem_append.mp inside with own | starred
  · exact writes_of_mem_edges (read.edges ▸ own)
  · obtain ⟨star, listed, written⟩ := List.mem_flatMap.mp starred
    have target : star.source ∈ source.stars e p file :=
      read.stars ▸ List.mem_map_of_mem listed
    obtain ⟨item, itemListed, specifier, kind, leads⟩ := item_of_mem_stars target
    unfold Package.starEdges at written
    split at written
    · cases written
    · obtain ⟨d, _, rfl⟩ := List.mem_map.mp written
      exact ⟨specifier, leads, .star itemListed kind rfl⟩

/-- The declarations of a module were extracted from what exported items of its file stand for. -/
theorem ReadFrom.extracted {c : Checker} {stars : List StarExport} {path : String} {m : Module}
    {f : SourceFile} (read : ReadFrom p e c stars path file f.source m)
    (root : (file, f) ∈ p.rootFiles) (home : path = e.outputPath f.path) {d : Declaration}
    (inside : d ∈ m.declarations.values) :
    ∃ x ∈ f.source.exported, ∃ s declares, x.name = d.name ∧ x.symbol? p file = some s ∧
      ExtractedFrom p e.outputPath c path d s declares := by
  have pair : (d.name, d.body) ∈ (turns p file f.source.exported).filterMap (·.shown? p c) :=
    read.declarations ▸ List.mem_map_of_mem inside
  obtain ⟨t, turn, shown⟩ := List.mem_filterMap.mp pair
  obtain ⟨content, answer, same⟩ := Option.map_eq_some_iff.mp shown
  obtain ⟨name, body⟩ := Prod.mk.inj same
  obtain ⟨before, _, _, reached, later, told⟩ := (read.settled t turn).had
  obtain ⟨listed, symbol⟩ := mem_turns turn
  have named : (Bindings.ofProgram p).lookup file none t.item.role.space d.name = some t.symbol :=
    name ▸ symbol
  exact ⟨t.item, listed, t.symbol, _, name, symbol, root, home, named, describes t.item.role, reached,
    told.trans answer, later, body.symm, rfl⟩

theorem moduleTarget?_file {specifier : String} {target : FileId}
    (leads : p.resolveModule? file specifier = some (.file target))
    (outside : Text.contains Origin.installed (p.pathOf target).toList = false) :
    e.moduleTarget? p file specifier = some (e.outputPath (p.pathOf target)) := by
  unfold moduleTarget?
  simp only [leads, outside, Bool.false_eq_true, ↓reduceIte]

/-- A module that is there was read from the first file with its path. -/
theorem ReadAll.first {e₀ : Extraction} {files : List (FileId × SourceFile)} {c : Checker}
    (read : ReadAll p e₀ files e c) {path : String} {m : Module}
    (there : e.package.modules.get? path = some m) :
    ∃ file source, e₀.firstAt? files path = some (file, source) ∧
      ReadFrom p e₀ c e.stars path file source.source m := by
  cases first : e₀.firstAt? files path with
  | none =>
      have absent := (OrdMap.get?_eq_none_iff _ _).mpr (read.absent path first).1
      cases there.symm.trans absent
  | some f =>
      obtain ⟨m', known, content⟩ := read.modules path f.1 f.2 first
      cases there.symm.trans known
      exact ⟨f.1, f.2, rfl, content⟩

end Extraction

namespace Bindings

/-- The tables of a file know of an edge: its name is an export in both spaces, or its specifier is
one of a star export. -/
def Knows (b : Bindings) (file : FileId) (edge : Reexport) (specifier : String) : Prop :=
  (∀ space, ((b.scope file).exports.get? space edge.name).isSome) ∨
    (edge.name = edge.sourceName ∧ specifier ∈ (b.scope file).stars)

theorem knows_of_writes {p : Program} {file : FileId} {f : SourceFile}
    (found : p.file? file = some f) {edge : Reexport} {specifier : String}
    (writes : f.source.Writes edge specifier) : (ofProgram p).Knows file edge specifier := by
  cases writes with
  | @named item specifiers exported listed kind inside name =>
      left
      intro space
      obtain ⟨b, n, size, later⟩ := binds_item found listed
      obtain ⟨first, rest, rfl⟩ := List.append_of_mem inside
      simp only [bindItem, kind, List.foldl_append, List.foldl_cons] at later
      have step : ∀ (specifiers : List ExportSpecifier) (b : Bindings), Binds 0 b
          (specifiers.foldl (fun b s =>
            b.bindExport (topSite file f.source) item.doc (some specifier) s) b) := fun list b =>
        binds_foldl list (fun _ s valid => binds_bindExport valid item.doc (some specifier) s)
          (valid_topSite file f.source b)
      have inScope := exports_bindExport (topSite file f.source)
        (Nat.lt_of_lt_of_le size (step first b).grows.files) item.doc specifier edge.sourceName
        exported space
      obtain ⟨s, known⟩ := Option.isSome_iff_exists.mp inScope
      have kept := ((step rest _).trans later).offers file
      rw [name]
      exact Option.isSome_iff_exists.mpr ⟨s, kept.exports space _ s known⟩
  | @star item listed kind name =>
      right
      refine ⟨name, ?_⟩
      obtain ⟨b, n, size, later⟩ := binds_item found listed
      refine (later.offers file).stars specifier ?_
      simp only [bindItem, kind, addStar, topSite]
      rw [scope_modify_self b size]
      exact List.mem_append_right _ List.mem_cons_self

/-- The export of a file under the name of an edge goes through the specifier that the edge was written
with. For a named export, the file exports the name by nothing else before; for a star export, the file
has no export of the name, and no earlier star export has one. -/
inductive Passes (b : Bindings) (p : Program) (space : Space) (file : FileId) (source : SourceText)
    (edge : Reexport) (specifier : String) : Prop where
  | named {before after : List Item} {item : Item} {earlier later : List ExportSpecifier}
      {exported : Option String} (items : source.items = before ++ item :: after)
      (kind : item.kind =
        .exportNamed (earlier ++ .named edge.sourceName exported :: later) (some specifier))
      (name : edge.name = exported.getD edge.sourceName)
      (unexported : ∀ i ∈ before, ¬ i.kind.Exports space edge.name)
      (first : ∀ s ∈ earlier, ∀ node, exportNode? (some specifier) s ≠ some (edge.name, node)) :
      Passes b p space file source edge specifier
  | star {before after : List String} (same : edge.name = edge.sourceName)
      (named : edge.name ≠ defaultName)
      (absent : (b.scope file).exports.get? space edge.name = none)
      (stars : (b.scope file).stars = before ++ specifier :: after)
      (first : ∀ earlier ∈ before, ∀ other, p.resolveModule? file earlier = some (.file other) →
        b.followExport p (maxSteps - 1) space other edge.name = none) :
      Passes b p space file source edge specifier

/-- What the other file exports is what this one exports. -/
theorem followExport_passes {p : Program} {space : Space} {file other : FileId} {f : SourceFile}
    (found : p.file? file = some f) {edge : Reexport} {specifier : String} {r : Referent}
    (passes : (ofProgram p).Passes p space file f.source edge specifier)
    (leads : p.resolveModule? file specifier = some (.file other))
    (behind : ∀ n, (ofProgram p).followExport p (n + 3) space other edge.sourceName = some r) :
    (ofProgram p).followExport p maxSteps space file edge.name = some r := by
  cases passes with
  | @named before after item earlier later exported items kind name unexported first =>
      have gives : exportNode? (some specifier) (.named edge.sourceName exported) =
          some (edge.name, .imported specifier (.named edge.sourceName)) := by
        rw [name]
        rfl
      obtain ⟨s, entry, isAlias⟩ := exported_specifier found items kind gives unexported first
      have next : (ofProgram p).followSymbol p 32 space s = _ := followSymbol_alias isAlias rfl 31
      simp only [followAlias, leads, exportName?] at next
      unfold maxSteps followExport
      simp only [entry]
      exact next.trans (behind 28)
  | @star before after same named absent stars first =>
      unfold maxSteps followExport
      simp only [absent, if_neg named]
      refine List.findSome?_eq_some_iff.mpr ⟨before, specifier, after, stars, ?_, ?_⟩
      · rw [leads, same]
        exact behind 29
      · intro earlier inside
        split
        · rename_i target leads
          exact first earlier inside target leads
        · rfl

end Bindings

namespace Package

/-- The declaration that an edge leads to is the one with its id. -/
theorem Consistent.declaration?_edge {p : Package} (consistent : p.Consistent) {path : String}
    {m : Module} {edge : Reexport} (there : p.modules.get? path = some m)
    (inside : edge ∈ m.reexports) (resolved : edge.isResolved) :
    ∃ target d, p.modules.get? edge.path = some target ∧
      target.declarations.get? edge.id = some d ∧ d.name = edge.sourceName ∧
      p.declaration? edge.id = some d := by
  obtain ⟨target, d, goal, listed, named⟩ := consistent.edges path m there edge inside resolved
  have home := (consistent.home edge.id edge.path).mpr
    ⟨target, goal, OrdMap.mem_keys_of_mem ((OrdMap.get?_eq_some_iff _ _ _).mp listed)⟩
  refine ⟨target, d, goal, listed, named, ?_⟩
  unfold declaration?
  rw [home]
  simp only [Option.bind_eq_bind, Option.bind_some, goal, listed]

/-- Every edge that was resolved was written by the file of its module, as a name that the file
exports or as a part of one of its star exports, and its declaration was extracted from what an exported
item of the other module's file stands for. The export of the file under the name of the edge is that
symbol if the specifier of the edge leads to that other file, nothing else stands in the way of the
specifier, and the other file exports the name for a declaration of its own. -/
theorem reexport_exported (name outDir packagePath : String) (p : Program) {path : String}
    {m : Module} {edge : Reexport}
    (there : ((Package.empty name outDir).addProgram packagePath p).modules.get? path = some m)
    (inside : edge ∈ m.reexports) (resolved : edge.isResolved) :
    let start : Extraction := { package := Package.empty name outDir, packagePath }
    let b := Bindings.ofProgram p
    ∃ file source other text specifier d x s declares,
      start.firstAt? p.rootFiles path = some (file, source) ∧
      start.firstAt? p.rootFiles edge.path = some (other, text) ∧
      source.source.Writes edge specifier ∧
      start.moduleTarget? p file specifier = some edge.path ∧ b.Knows file edge specifier ∧
      ((Package.empty name outDir).addProgram packagePath p).declaration? edge.id = some d ∧
      Extraction.ExtractedFrom p (Path.outputPath packagePath outDir)
        (collected name outDir packagePath p).2 edge.path d s declares ∧
      x ∈ text.source.exported ∧ x.name = edge.sourceName ∧ x.symbol? p other = some s ∧
      (b.Passes p x.role.space file source.source edge specifier →
        p.resolveModule? file specifier = some (.file other) →
        text.source.ExportsOwn x.role.space edge.sourceName →
        (b.exportOf p file x.role.space edge.name).1 = some s) := by
  have read := readAll_collected name outDir packagePath p
  rw [addProgram_eq_linked read.valid] at there ⊢
  generalize collected name outDir packagePath p = work at read there ⊢
  obtain ⟨e, c⟩ := work
  have consistent := read.valid.consistent
  obtain ⟨target, d, goal, listed, named, recorded⟩ :=
    consistent.declaration?_edge there inside resolved
  rw [get?_modules_linked] at there goal
  obtain ⟨m, known, rfl⟩ := Option.map_eq_some_iff.mp there
  obtain ⟨target, knownTarget, rfl⟩ := Option.map_eq_some_iff.mp goal
  obtain ⟨old, written, rfl⟩ := List.mem_map.mp inside
  rw [get?_linkedModule] at listed
  obtain ⟨d, stored, rfl⟩ := Option.map_eq_some_iff.mp listed
  obtain ⟨file, source, first, content⟩ := read.first known
  obtain ⟨other, text, firstOther, contentOther⟩ := read.first knownTarget
  obtain ⟨specifier, leads, writes⟩ := content.writes written
  have root := Program.file?_of_mem_rootFiles (Extraction.firstAt?_eq_some first).1
  obtain ⟨rootOther, place⟩ := Extraction.firstAt?_eq_some firstOther
  have foundOther := Program.file?_of_mem_rootFiles rootOther
  have stored := (OrdMap.mem_values_iff _ _).mpr ⟨_, (OrdMap.get?_eq_some_iff _ _ _).mp stored⟩
  obtain ⟨x, exports, s, declares, asked, symbol, extracted⟩ :=
    contentOther.extracted rootOther place stored
  have named : x.name = old.sourceName := asked.trans named
  refine ⟨file, source, other, text, specifier, _, x, s, declares, first, firstOther, writes.linked _,
    leads, ?_, recorded, extracted.of_same rfl rfl, exports, named, symbol, 
    fun passes leads own => ?_⟩
  · exact Bindings.knows_of_writes root (writes.linked _)
  · have own : text.source.ExportsOwn x.role.space x.name := named ▸ own
    have behind (n : Nat) :
        (Bindings.ofProgram p).followExport p (n + 3) x.role.space other old.sourceName =
        some (.symbol s) := named ▸ Bindings.followExport_own foundOther exports own symbol n
    unfold Bindings.exportOf
    rw [Bindings.followExport_passes root passes leads behind]
    rfl

/-- A class or function that is exported has a declaration. -/
theorem declared_of_turn {p : Program} {e₀ e : Extraction} {c : Checker}
    (read : Extraction.ReadAll p e₀ p.rootFiles e c) {path : String} {file : FileId}
    {source : SourceFile} (first : e₀.firstAt? p.rootFiles path = some (file, source)) {t : Turn}
    (turn : t ∈ turns p file source.source.exported) {kind : SymbolKind}
    (own : t.item.role.ownKind? = some kind)
    (same : (Bindings.ofProgram p).kind? t.symbol = some kind) :
    ∃ m d, e.package.modules.get? path = some m ∧ d ∈ m.declarations.values ∧
      d.name = t.item.name := by
  obtain ⟨m, there, content⟩ := read.modules path file source first
  have kept : c.bindings.kind? t.symbol = some kind := by
    obtain ⟨x, found, isKind⟩ := Option.map_eq_some_iff.mp same
    exact Option.map_eq_some_iff.mpr ⟨x, read.reached.bindings.symbol _ _ found, isKind⟩
  have shown : t.shown? p c ≠ none := fun none => Role.not_dropped own kept
    (((content.settled t turn).dropped c (.refl c) read.sound).mp (Option.map_eq_none_iff.mp none))
  obtain ⟨pair, gives⟩ := Option.ne_none_iff_exists'.mp shown
  have listed : pair ∈ Extraction.listed m :=
    content.declarations ▸ List.mem_filterMap.mpr ⟨t, turn, gives⟩
  obtain ⟨d, inside, rfl⟩ := List.mem_map.mp listed
  obtain ⟨_, _, same⟩ := Option.map_eq_some_iff.mp gives
  exact ⟨m, d, there, inside, (congrArg Prod.fst same).symm⟩

/-- A star export gives its module an edge for each declaration of the other module. -/
theorem edge_of_star {p : Program} {e₀ e : Extraction} {c : Checker}
    (read : Extraction.ReadAll p e₀ p.rootFiles e c) {path : String} {file : FileId}
    {source : SourceFile} (first : e₀.firstAt? p.rootFiles path = some (file, source))
    {target : String} (star : target ∈ source.source.stars e₀ p file) {other : Module}
    (there : e.package.modules.get? target = some other) {d : Declaration}
    (inside : d ∈ other.declarations.values) :
    ∃ m edge, (e.package.linked (e.package.edgesOf e.stars)).modules.get? path = some m ∧
      edge ∈ m.reexports ∧ edge.isResolved ∧ edge.name = d.name ∧ edge.sourceName = d.name ∧
      edge.path = target := by
  obtain ⟨m, known, content⟩ := read.modules path file source first
  let old : Reexport := { name := d.name, sourceName := d.name, path := target }
  have written : old ∈ e.package.edgesOf e.stars path m := by
    obtain ⟨noted, listed, rfl⟩ := List.mem_map.mp (content.stars ▸ star)
    refine List.mem_append_right _ (List.mem_flatMap.mpr ⟨noted, listed, ?_⟩)
    unfold starEdges
    rw [there]
    exact List.mem_map.mpr ⟨d, inside, rfl⟩
  have resolved : (e.package.linkedEdge old).isResolved := by
    have named : (other.declarationNamed? d.name).isSome :=
      List.find?_isSome.mpr ⟨d, inside, decide_eq_true rfl⟩
    obtain ⟨found, named⟩ := Option.isSome_iff_exists.mp named
    have leads : e.package.leadsTo? old = some found :=
      Option.bind_eq_some_iff.mpr ⟨other, there, named⟩
    have given : e.package.newId? old = some found.id := by
      unfold newId?
      rw [leads]
      rfl
    unfold linkedEdge Reexport.isResolved
    rw [given]
    simpa using id_ne_of_leadsTo? read.valid.keyed leads
  refine ⟨e.package.linkedModule (e.package.edgesOf e.stars) path m, e.package.linkedEdge old, ?_,
    List.mem_map_of_mem written, resolved, rfl, rfl, rfl⟩
  rw [get?_modules_linked, known]
  rfl

/-- A package at the root of the file system, of which nothing has been read. -/
def atRoot : Extraction := { package := Package.empty "p" "lib", packagePath := "/" }

/-- A module has an edge whose declaration was extracted from no symbol that its file exports under
the name of the edge. -/
def Astray (p : Program) (path : String) (file : FileId) : Prop :=
  ∃ m edge, ((Package.empty "p" "lib").addProgram "/" p).modules.get? path = some m ∧
    edge ∈ m.reexports ∧ edge.isResolved ∧
    ∀ space s, ((Bindings.ofProgram p).exportOf p file space edge.name).1 = some s →
      ∀ d declares, ((Package.empty "p" "lib").addProgram "/" p).declaration? edge.id = some d →
        ¬ Extraction.ExtractedFrom p (Path.outputPath "/" "lib") (collected "p" "lib" "/" p).2
          edge.path d s declares

/-- No file with that output path has a name for the symbol that a file exports under it. -/
def foundElsewhere (p : Program) (file : FileId) (target name : String) : Bool :=
  Bindings.both.all fun space =>
    ((Bindings.ofProgram p).exportOf p file space name).1.all fun s =>
      p.rootFiles.all fun f => Path.outputPath "/" "lib" f.2.path ≠ target ||
        Bindings.both.all fun other => (Bindings.ofProgram p).lookup f.1 none other name ≠ some s

theorem not_lookup_of_foundElsewhere {p : Program} {file : FileId} {target name : String}
    (elsewhere : foundElsewhere p file target name) {space other : Space} {s : SymbolId}
    (exported : ((Bindings.ofProgram p).exportOf p file space name).1 = some s)
    {f : FileId × SourceFile} (root : f ∈ p.rootFiles)
    (home : target = Path.outputPath "/" "lib" f.2.path) :
    (Bindings.ofProgram p).lookup f.1 none other name ≠ some s := by
  have every : ∀ space, space ∈ Bindings.both := by
    intro space
    cases space <;> decide
  have here := List.all_eq_true.mp elsewhere space (every space)
  rw [exported] at here
  have apart := List.all_eq_true.mp here f root
  rw [home] at apart
  simp only [ne_eq, not_true_eq_false, decide_false, Bool.false_or] at apart
  exact of_decide_eq_true (List.all_eq_true.mp apart other (every other))

/-- A star export whose names are found elsewhere, or nowhere, leads astray. -/
theorem astray_of_star {p : Program} {path target : String} {file other : FileId}
    {source text : SourceFile} {t : Turn}
    (first : atRoot.firstAt? p.rootFiles path = some (file, source))
    (star : target ∈ source.source.stars atRoot p file)
    (firstOther : atRoot.firstAt? p.rootFiles target = some (other, text))
    (turn : turns p other text.source.exported = [t]) {kind : SymbolKind}
    (own : t.item.role.ownKind? = some kind)
    (same : (Bindings.ofProgram p).kind? t.symbol = some kind)
    (elsewhere : foundElsewhere p file target t.item.name) : Astray p path file := by
  have read := readAll_collected "p" "lib" "/" p
  obtain ⟨m, d, there, inside, name⟩ := declared_of_turn read firstOther
    (turn ▸ List.mem_cons_self) own same
  obtain ⟨index, edge, known, listed, resolved, edgeName, sourceName, edgePath⟩ :=
    edge_of_star read first star there inside
  rw [← addProgram_eq_linked read.valid] at known
  refine ⟨index, edge, known, listed, resolved,
    fun space s exported d' declares found extracted => ?_⟩
  rw [edgeName, name] at exported
  obtain ⟨root, home, named, _, _, _, _, _, _⟩ := extracted
  have consistent := read.valid.consistent
  rw [← addProgram_eq_linked read.valid] at consistent
  obtain ⟨_, d'', _, _, asked, again⟩ := consistent.declaration?_edge known listed resolved
  cases found.symm.trans again
  rw [asked, sourceName, name] at named
  exact not_lookup_of_foundElsewhere elsewhere exported root (edgePath ▸ home) named

/-- A root file with these items. -/
def rootFile (path : String) (kinds : List ItemKind) : SourceFile :=
  ⟨⟨path, #[], kinds.map fun kind => ⟨0, 0, none, {}, kind⟩⟩, path, true⟩

/-- A class without members. -/
def emptyClass : ClassExpr := ⟨[], none, [], []⟩

/-- `Foo` is the default export of `a`, and `index` exports all of `a`. -/
def defaulted : Program :=
  { files := #[rootFile "/a.ts" [.exportDefault (.classDecl (some "Foo") emptyClass)],
      rootFile "/index.ts" [.exportAll "./a"]]
    targets := .ofList [((⟨1⟩, "./a"), .file ⟨0⟩)] }

/-- `a` and `b` export a `Foo` each, and `index` exports that of `a` and all of `b`. -/
def hidden : Program :=
  { files := #[rootFile "/a.ts" [.exportDecl (.classDecl "Foo" emptyClass)],
      rootFile "/b.ts" [.exportDecl (.classDecl "Foo" emptyClass)],
      rootFile "/index.ts" [.exportNamed [.named "Foo" none] (some "./a"), .exportAll "./b"]]
    targets := .ofList [((⟨2⟩, "./a"), .file ⟨0⟩), ((⟨2⟩, "./b"), .file ⟨1⟩)] }

/-- Two files have the output path of `a`, and `index` exports all of the second one. -/
def collided : Program :=
  { files := #[rootFile "/a.tsx" [.exportDecl (.classDecl "Foo" emptyClass)],
      rootFile "/a.ts" [.exportDecl (.classDecl "Bar" emptyClass)],
      rootFile "/index.ts" [.exportAll "./a"]]
    targets := .ofList [((⟨2⟩, "./a"), .file ⟨1⟩)] }

/-- `a` exports a `Foo`, after it gave the name to a class that it does not export, and `index` exports
all of `a`. -/
def shadowed : Program :=
  { files := #[rootFile "/a.ts" [.decl (.classDecl "Foo" emptyClass),
        .exportDecl (.classDecl "Foo" emptyClass)],
      rootFile "/index.ts" [.exportAll "./a"]]
    targets := .ofList [((⟨1⟩, "./a"), .file ⟨0⟩)] }

/-- `a` exports its `Bar` as `Foo`, and then a `Foo`, and `index` exports all of `a`. -/
def displaced : Program :=
  { files := #[rootFile "/a.ts" [.decl (.classDecl "Bar" emptyClass),
        .exportNamed [.named "Bar" (some "Foo")] none, .exportDecl (.classDecl "Foo" emptyClass)],
      rootFile "/index.ts" [.exportAll "./a"]]
    targets := .ofList [((⟨1⟩, "./a"), .file ⟨0⟩)] }

/-- The star exports of a root file are those of its items. -/
theorem mem_stars {p : Program} {file target : FileId} {path specifier out : String}
    {kinds : List ItemKind} (inside : .exportAll specifier ∈ kinds)
    (leads : p.resolveModule? file specifier = some (.file target))
    (outside : Text.contains Origin.installed (p.pathOf target).toList = false)
    (home : atRoot.outputPath (p.pathOf target) = out) :
    out ∈ (rootFile path kinds).source.stars atRoot p file :=
  List.mem_filterMap.mpr ⟨_, List.mem_map_of_mem inside,
    home ▸ Extraction.moduleTarget?_file leads outside⟩

set_option maxRecDepth 20000 in
theorem defaulted_astray : Astray defaulted "lib/index.js" ⟨1⟩ := by
  have first : atRoot.firstAt? defaulted.rootFiles "lib/index.js" =
      some (⟨1⟩, rootFile "/index.ts" [.exportAll "./a"]) := by cbv
  have firstOther : atRoot.firstAt? defaulted.rootFiles "lib/a.js" = some (⟨0⟩,
      rootFile "/a.ts" [.exportDefault (.classDecl (some "Foo") emptyClass)]) := by cbv
  have leads : defaulted.resolveModule? ⟨1⟩ "./a" = some (.file ⟨0⟩) := by cbv
  have turn : turns defaulted ⟨0⟩ (rootFile "/a.ts"
      [.exportDefault (.classDecl (some "Foo") emptyClass)]).source.exported =
      [⟨⟨.classDecl, "Foo"⟩, ⟨0⟩⟩] := by cbv
  exact astray_of_star first (mem_stars List.mem_cons_self leads (by cbv) (by cbv))
    firstOther turn rfl
    (by cbv) (by cbv)

set_option maxRecDepth 20000 in
theorem hidden_astray : Astray hidden "lib/index.js" ⟨2⟩ := by
  have first : atRoot.firstAt? hidden.rootFiles "lib/index.js" = some (⟨2⟩, rootFile "/index.ts"
      [.exportNamed [.named "Foo" none] (some "./a"), .exportAll "./b"]) := by cbv
  have firstOther : atRoot.firstAt? hidden.rootFiles "lib/b.js" = some (⟨1⟩,
      rootFile "/b.ts" [.exportDecl (.classDecl "Foo" emptyClass)]) := by cbv
  have leads : hidden.resolveModule? ⟨2⟩ "./b" = some (.file ⟨1⟩) := by cbv
  have turn : turns hidden ⟨1⟩ (rootFile "/b.ts"
      [.exportDecl (.classDecl "Foo" emptyClass)]).source.exported =
      [⟨⟨.classDecl, "Foo"⟩, ⟨1⟩⟩] := by cbv
  exact astray_of_star first (mem_stars (List.mem_cons_of_mem _ List.mem_cons_self) leads (by cbv)
    (by cbv)) firstOther turn rfl (by cbv) (by cbv)

set_option maxRecDepth 20000 in
theorem collided_astray : Astray collided "lib/index.js" ⟨2⟩ := by
  have first : atRoot.firstAt? collided.rootFiles "lib/index.js" =
      some (⟨2⟩, rootFile "/index.ts" [.exportAll "./a"]) := by cbv
  have firstOther : atRoot.firstAt? collided.rootFiles "lib/a.js" = some (⟨0⟩,
      rootFile "/a.tsx" [.exportDecl (.classDecl "Foo" emptyClass)]) := by cbv
  have leads : collided.resolveModule? ⟨2⟩ "./a" = some (.file ⟨1⟩) := by cbv
  have turn : turns collided ⟨0⟩ (rootFile "/a.tsx"
      [.exportDecl (.classDecl "Foo" emptyClass)]).source.exported =
      [⟨⟨.classDecl, "Foo"⟩, ⟨0⟩⟩] := by cbv
  exact astray_of_star first (mem_stars List.mem_cons_self leads (by cbv) (by cbv))
    firstOther turn rfl
    (by cbv) (by cbv)

set_option maxRecDepth 20000 in
theorem shadowed_astray : Astray shadowed "lib/index.js" ⟨1⟩ := by
  have first : atRoot.firstAt? shadowed.rootFiles "lib/index.js" =
      some (⟨1⟩, rootFile "/index.ts" [.exportAll "./a"]) := by cbv
  have firstOther : atRoot.firstAt? shadowed.rootFiles "lib/a.js" = some (⟨0⟩, rootFile "/a.ts"
      [.decl (.classDecl "Foo" emptyClass), .exportDecl (.classDecl "Foo" emptyClass)]) := by cbv
  have leads : shadowed.resolveModule? ⟨1⟩ "./a" = some (.file ⟨0⟩) := by cbv
  have turn : turns shadowed ⟨0⟩ (rootFile "/a.ts" [.decl (.classDecl "Foo" emptyClass),
      .exportDecl (.classDecl "Foo" emptyClass)]).source.exported =
      [⟨⟨.classDecl, "Foo"⟩, ⟨0⟩⟩] := by cbv
  exact astray_of_star first (mem_stars List.mem_cons_self leads (by cbv) (by cbv))
    firstOther turn rfl
    (by cbv) (by cbv)

set_option maxRecDepth 20000 in
theorem displaced_astray : Astray displaced "lib/index.js" ⟨1⟩ := by
  have first : atRoot.firstAt? displaced.rootFiles "lib/index.js" =
      some (⟨1⟩, rootFile "/index.ts" [.exportAll "./a"]) := by cbv
  have firstOther : atRoot.firstAt? displaced.rootFiles "lib/a.js" = some (⟨0⟩, rootFile "/a.ts"
      [.decl (.classDecl "Bar" emptyClass), .exportNamed [.named "Bar" (some "Foo")] none,
        .exportDecl (.classDecl "Foo" emptyClass)]) := by cbv
  have leads : displaced.resolveModule? ⟨1⟩ "./a" = some (.file ⟨0⟩) := by cbv
  have turn : turns displaced ⟨0⟩ (rootFile "/a.ts" [.decl (.classDecl "Bar" emptyClass),
      .exportNamed [.named "Bar" (some "Foo")] none,
      .exportDecl (.classDecl "Foo" emptyClass)]).source.exported =
      [⟨⟨.classDecl, "Foo"⟩, ⟨2⟩⟩] := by cbv
  exact astray_of_star first (mem_stars List.mem_cons_self leads (by cbv) (by cbv))
    firstOther turn rfl
    (by cbv) (by cbv)

/-- The edges of default exports, of names that are taken in the one file or in the other, and of modules
whose output path is taken lead astray. -/
theorem reexports_astray :
    Astray defaulted "lib/index.js" ⟨1⟩ ∧ Astray hidden "lib/index.js" ⟨2⟩ ∧
      Astray collided "lib/index.js" ⟨2⟩ ∧ Astray shadowed "lib/index.js" ⟨1⟩ ∧
      Astray displaced "lib/index.js" ⟨1⟩ :=
  ⟨defaulted_astray, hidden_astray, collided_astray, shadowed_astray, displaced_astray⟩

/-- `a` exports `Foo`, and `index` exports all of `a`. -/
def starred : Program :=
  { files := #[rootFile "/a.ts" [.exportDecl (.classDecl "Foo" emptyClass)],
      rootFile "/index.ts" [.exportAll "./a"]]
    targets := .ofList [((⟨1⟩, "./a"), .file ⟨0⟩)] }

set_option maxRecDepth 20000 in
theorem starred_edge : ∃ m edge,
    ((Package.empty "p" "lib").addProgram "/" starred).modules.get? "lib/index.js" = some m ∧
    edge ∈ m.reexports ∧ edge.isResolved ∧ edge.name = "Foo" ∧ edge.sourceName = "Foo" ∧
    edge.path = "lib/a.js" := by
  have read := readAll_collected "p" "lib" "/" starred
  have first : atRoot.firstAt? starred.rootFiles "lib/index.js" =
      some (⟨1⟩, rootFile "/index.ts" [.exportAll "./a"]) := by cbv
  have firstOther : atRoot.firstAt? starred.rootFiles "lib/a.js" = some (⟨0⟩,
      rootFile "/a.ts" [.exportDecl (.classDecl "Foo" emptyClass)]) := by cbv
  have leads : starred.resolveModule? ⟨1⟩ "./a" = some (.file ⟨0⟩) := by cbv
  have turn : turns starred ⟨0⟩ (rootFile "/a.ts"
      [.exportDecl (.classDecl "Foo" emptyClass)]).source.exported =
      [⟨⟨.classDecl, "Foo"⟩, ⟨0⟩⟩] := by cbv
  obtain ⟨other, d, there, inside, name⟩ := declared_of_turn read firstOther
    (turn ▸ List.mem_cons_self) rfl (by cbv)
  obtain ⟨m, edge, known, listed, resolved, edgeName, sourceName, edgePath⟩ := edge_of_star read first
    (mem_stars List.mem_cons_self leads (by cbv) (by cbv)) there inside
  rw [← addProgram_eq_linked read.valid] at known
  exact ⟨m, edge, known, listed, resolved, edgeName.trans name, sourceName.trans name, edgePath⟩

set_option maxRecDepth 20000 in
/-- `index` exports `Foo`, the class that its edge leads to. -/
theorem starred_exported : ∃ m edge d declares space,
    ((Package.empty "p" "lib").addProgram "/" starred).modules.get? "lib/index.js" = some m ∧
    edge ∈ m.reexports ∧ edge.isResolved ∧
    ((Package.empty "p" "lib").addProgram "/" starred).declaration? edge.id = some d ∧
    Extraction.ExtractedFrom starred (Path.outputPath "/" "lib") (collected "p" "lib" "/" starred).2
      edge.path d ⟨0⟩ declares ∧
    ((Bindings.ofProgram starred).exportOf starred ⟨1⟩ space edge.name).1 = some ⟨0⟩ := by
  obtain ⟨m, edge, there, inside, resolved, name, sourceName, path⟩ := starred_edge
  obtain ⟨file, source, other, text, specifier, d, x, s, declares, first, firstOther, writes, _, _,
    recorded, extracted, listed, asked, symbol, exported⟩ :=
    reexport_exported "p" "lib" "/" starred there inside resolved
  have index : atRoot.firstAt? starred.rootFiles "lib/index.js" =
      some (⟨1⟩, rootFile "/index.ts" [.exportAll "./a"]) := by cbv
  have home : atRoot.firstAt? starred.rootFiles "lib/a.js" = some (⟨0⟩,
      rootFile "/a.ts" [.exportDecl (.classDecl "Foo" emptyClass)]) := by cbv
  rw [path] at firstOther
  cases index.symm.trans first
  cases home.symm.trans firstOther
  cases List.mem_singleton.mp listed
  have leads : starred.resolveModule? ⟨1⟩ "./a" = some (.file ⟨0⟩) := by cbv
  have stars : ((Bindings.ofProgram starred).scope ⟨1⟩).stars = [] ++ "./a" :: [] := by cbv
  have absent : ((Bindings.ofProgram starred).scope ⟨1⟩).exports.get? .value "Foo" = none := by cbv
  have named : (Bindings.ofProgram starred).lookup ⟨0⟩ none .value "Foo" = some ⟨0⟩ := by cbv
  cases named.symm.trans symbol
  have only : specifier = "./a" := by
    cases writes with
    | named listed kind =>
        cases List.mem_singleton.mp listed
        cases kind
    | star listed kind =>
        cases List.mem_singleton.mp listed
        cases kind
        rfl
  subst only
  have passes : (Bindings.ofProgram starred).Passes starred .value ⟨1⟩
      (rootFile "/index.ts" [.exportAll "./a"]).source edge "./a" := by
    refine .star (name.trans sourceName.symm) ?_ (name ▸ absent) stars
      fun _ earlier => by cases earlier
    rw [name]
    decide
  -- the class is all that the file declares
  have items : (rootFile "/a.ts" [.exportDecl (.classDecl "Foo" emptyClass)]).source.items =
      [] ++ ⟨0, 0, none, {}, .exportDecl (.classDecl "Foo" emptyClass)⟩ :: [] := rfl
  have own : (rootFile "/a.ts" [.exportDecl (.classDecl "Foo" emptyClass)]).source.ExportsOwn .value
      edge.sourceName :=
    .declaration items rfl List.mem_cons_self
      ⟨List.mem_cons_of_mem _ List.mem_cons_self, sourceName.symm⟩ (fun same => by cases same)
      (fun _ same => by cases same) (fun _ same => by cases same)
  exact ⟨m, edge, d, declares, .value, there, inside, resolved, recorded, extracted,
    exported passes leads own⟩

end Package

end ApiDocs
