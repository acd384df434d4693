import ApiDocs.Proofs.Turns
import ApiDocs.Proofs.TypeLinks

set_option autoImplicit false

/-!
The declarations of a package are those of the exported items of its root files: in order, one for
each symbol, except for those of which there is nothing to show. Of files with one output path the
first counts.
-/

namespace ApiDocs

open Syntax

namespace Extraction

open Check Checker

/-- The file that the module at an output path is read from: the first one with that path. -/
def firstAt? (e : Extraction) (files : List (FileId × SourceFile)) (path : String) :
    Option (FileId × SourceFile) :=
  files.find? fun f => e.outputPath f.2.path = path

theorem firstAt?_eq_some {e : Extraction} {files : List (FileId × SourceFile)} {path : String}
    {f : FileId × SourceFile} (first : e.firstAt? files path = some f) :
    f ∈ files ∧ path = e.outputPath f.2.path := by
  unfold firstAt? at first
  have here := List.find?_some first
  rw [decide_eq_true_eq] at here
  exact ⟨List.mem_of_find?_eq_some first, here.symm⟩

/-- A module holds what a file writes, and the declarations of what it exports. -/
structure ReadFrom (p : Program) (e₀ : Extraction) (c : Checker) (stars : List StarExport)
    (path : String) (file : FileId) (source : SourceText) (m : Module) : Prop where
  edges : m.reexports = source.edges e₀ p file
  stars : (stars.filter (·.module = path)).map (·.source) = source.stars e₀ p file
  declarations : listed m = (turns p file source.exported).filterMap (·.shown? p c)
  settled : ∀ t ∈ turns p file source.exported, t.Settled p c

/-- What holds once some files were read. -/
structure ReadAll (p : Program) (e₀ : Extraction) (files : List (FileId × SourceFile))
    (e : Extraction) (c : Checker) : Prop where
  valid : e.Valid
  sound : c.Sound p
  reached : Reached p c
  place : e.outputPath = e₀.outputPath
  homes : ∀ s ∈ e.extracted, ∃ f ∈ files, ∃ x, (Bindings.ofProgram p).symbol? s = some x ∧
    x.LivesIn (.file f.1)
  modules : ∀ path file source, e₀.firstAt? files path = some (file, source) →
    ∃ m, e.package.modules.get? path = some m ∧ ReadFrom p e₀ c e.stars path file source.source m
  absent : ∀ path, e₀.firstAt? files path = none →
    path ∉ e.package.modules.keys ∧ ∀ star ∈ e.stars, star.module ≠ path

theorem firstAt?_concat (e : Extraction) (files : List (FileId × SourceFile))
    (f : FileId × SourceFile) (path : String) :
    e.firstAt? (files ++ [f]) path =
      (e.firstAt? files path).or (if e.outputPath f.2.path = path then some f else none) := by
  unfold firstAt?
  rw [List.find?_append]
  by_cases same : e.outputPath f.2.path = path <;> simp [same]

theorem ReadFrom.later {p : Program} {e₀ : Extraction} {c c' : Checker} {stars more : List StarExport}
    {path : String} {file : FileId} {source : SourceText} {m : Module}
    (read : ReadFrom p e₀ c stars path file source m) (later : c.Later c') (sound : c'.Sound p)
    (others : ∀ star ∈ more, star.module ≠ path) :
    ReadFrom p e₀ c' (stars ++ more) path file source m where
  edges := read.edges
  stars := by
    have none : more.filter (·.module = path) = [] := by simpa using others
    rw [List.filter_append, none, List.append_nil]
    exact read.stars
  declarations := by
    rw [read.declarations]
    exact (List.filterMap_congr fun t inside => (read.settled t inside).shown? later sound).symm
  settled t inside := (read.settled t inside).later later sound

/-- A file that was read to its end gave its module. -/
theorem Reading.readFrom {p : Program} {file : FileId} {path : String} {e₁ : Extraction}
    {c₀ : Checker} {source : SourceText} {e : Extraction} {c : Checker}
    (reading : Reading p ⟨file, path⟩ e₁ c₀ source.exported (source.edges e₁ p file)
      ((source.stars e₁ p file).map fun target => ⟨path, target⟩) e c)
    {e₀ : Extraction} (same : e₁.outputPath = e₀.outputPath)
    (unstarred : ∀ star ∈ e₁.stars, star.module ≠ path) :
    ∃ m, e.package.modules.get? path = some m ∧ ReadFrom p e₀ c e.stars path file source m := by
  obtain ⟨m, known, edges, shown⟩ := reading.own
  refine ⟨m, known, edges.trans (edges_congr same p file source), ?_, shown, reading.settled⟩
  have none : e₁.stars.filter (·.module = path) = [] :=
    List.filter_eq_nil_iff.mpr fun star inside own => unstarred star inside (of_decide_eq_true own)
  rw [reading.stars, List.filter_append, none, List.nil_append, ← stars_congr same]
  simp [List.filter_map, Function.comp_def]

namespace ReadAll

variable {p : Program} {e₀ : Extraction} {files : List (FileId × SourceFile)} {e : Extraction}
  {c : Checker}

/-- The symbols of a file that was not read have had no turn. -/
theorem fresh (read : ReadAll p e₀ files e c) {file : FileId} {source : SourceFile}
    (there : p.file? file = some source) (new : ∀ f ∈ files, f.1 ≠ file) {path : String} :
    ∀ x ∈ source.source.exported, Reading.Fresh p ⟨file, path⟩ (e.openModule source) x := by
  intro x inside
  obtain ⟨s, y, named, found, lives⟩ := Bindings.exported_symbol? there inside
  refine ⟨s, y, named, found, fun had => ?_⟩
  obtain ⟨f, listed, z, same, home⟩ := read.homes s had
  cases found.symm.trans same
  exact new f listed ((Bindings.proper_ofProgram p).file_unique found home lives)

/-- No file was read to a path without a module. -/
theorem unread (read : ReadAll p e₀ files e c) {path : String}
    (absent : path ∉ e.package.modules.keys) : e₀.firstAt? files path = none := by
  cases found : e₀.firstAt? files path with
  | none => rfl
  | some f =>
      obtain ⟨m, known, _⟩ := read.modules path f.1 f.2 found
      exact absurd (OrdMap.mem_keys_of_mem ((OrdMap.get?_eq_some_iff _ _ _).mp known)) absent

/-- A file with a new output path was read. -/
theorem extend (read : ReadAll p e₀ files e c) {file : FileId} {source : SourceFile}
    (there : p.file? file = some source)
    (absent : e.outputPath source.path ∉ e.package.modules.keys) {e' : Extraction} {c' : Checker}
    (reading : Reading p ⟨file, e.outputPath source.path⟩ (e.openModule source) c
      source.source.exported (source.source.edges (e.openModule source) p file)
      ((source.source.stars (e.openModule source) p file).map fun target =>
        ⟨e.outputPath source.path, target⟩) e' c') :
    ReadAll p e₀ (files ++ [(file, source)]) e' c' := by
  have place : e.outputPath source.path = e₀.outputPath source.path := congrFun read.place _
  have same : (e.openModule source).outputPath = e₀.outputPath := read.place
  have first : e₀.firstAt? files (e.outputPath source.path) = none := read.unread absent
  have starred : ∀ star ∈ (source.source.stars (e.openModule source) p file).map fun target =>
      (⟨e.outputPath source.path, target⟩ : StarExport), star.module = e.outputPath source.path := by
    intro star inside
    obtain ⟨target, _, rfl⟩ := List.mem_map.mp inside
    rfl
  constructor
  case valid => exact reading.valid
  case sound => exact reading.sound
  case reached => exact read.reached.trans reading.later
  case place => exact reading.place.trans read.place
  case homes =>
    intro s had
    rcases (reading.extracted s).mp had with old | ⟨t, inside, rfl⟩
    · obtain ⟨f, listed, home⟩ := read.homes s old
      exact ⟨f, List.mem_append_left _ listed, home⟩
    · obtain ⟨listed, named⟩ := mem_turns inside
      obtain ⟨s, y, again, found, lives⟩ := Bindings.exported_symbol? there listed
      cases named.symm.trans again
      exact ⟨(file, source), List.mem_append_right _ List.mem_cons_self, y, found, lives⟩
  case modules =>
    intro path other text found
    rw [firstAt?_concat] at found
    cases old : e₀.firstAt? files path with
    | some f =>
        rw [old] at found
        cases found
        obtain ⟨m, known, holds⟩ := read.modules path other text old
        have differs : path ≠ e.outputPath source.path := by
          rintro rfl
          cases first.symm.trans old
        refine ⟨m, ?_, ?_⟩
        · rw [reading.others path differs]
          exact get?_openModule_kept absent known
        · rw [reading.stars]
          exact holds.later reading.later reading.sound fun star inside => by
            rw [starred star inside]
            exact differs.symm
    | none =>
        rw [old, Option.none_or] at found
        split at found
        · rename_i here
          cases found
          rw [← place] at here
          subst here
          exact reading.readFrom same (read.absent _ first).2
        · cases found
  case absent =>
    intro path none
    rw [firstAt?_concat, Option.or_eq_none_iff] at none
    obtain ⟨old, other⟩ := none
    have differs : e.outputPath source.path ≠ path := by
      intro same
      rw [← place, if_pos same] at other
      cases other
    obtain ⟨unknown, unstarred⟩ := read.absent path old
    constructor
    · rw [reading.keys, openModule, OrdMap.keys_insert, if_neg absent]
      simpa [differs.symm] using unknown
    · rw [reading.stars]
      intro star inside
      rcases List.mem_append.mp inside with before | new
      · exact unstarred star before
      · rw [starred star new]
        exact differs

theorem visitFile (read : ReadAll p e₀ files e c) {file : FileId} {source : SourceFile}
    (there : p.file? file = some source) (new : ∀ f ∈ files, f.1 ≠ file) :
    let r := (e.visitFile file source).outcome p c
    ReadAll p e₀ (files ++ [(file, source)]) r.1 r.2 := by
  unfold Extraction.visitFile
  dsimp only
  split
  · rename_i known
    rw [OrdMap.contains_iff] at known
    have taken : ∀ path, e₀.firstAt? (files ++ [(file, source)]) path = e₀.firstAt? files path := by
      intro path
      rw [firstAt?_concat]
      cases first : e₀.firstAt? files path with
      | some f => rfl
      | none =>
          have differs : e₀.outputPath source.path ≠ path := fun same =>
            (read.absent path first).1 (same ▸ read.place ▸ known)
          simp [differs]
    exact { read with
      homes := fun s had => by
        obtain ⟨f, listed, home⟩ := read.homes s had
        exact ⟨f, List.mem_append_left _ listed, home⟩
      modules := fun path file source first => read.modules path file source (taken path ▸ first)
      absent := fun path none => read.absent path (taken path ▸ none) }
  · rename_i absent
    rw [OrdMap.contains_iff] at absent
    exact read.extend there absent ((reading_openModule read.valid read.sound file absent).file
      read.reached (read.fresh there new))

/-- The root files of a program are read in order. -/
theorem visitAll {rest : List (FileId × SourceFile)} (read : ReadAll p e₀ files e c)
    (there : ∀ f ∈ rest, p.file? f.1 = some f.2) (distinct : ((files ++ rest).map Prod.fst).Nodup) :
    let r := (rest.foldlM (fun (e : Extraction) (id, file) => e.visitFile id file) e).outcome p c
    ReadAll p e₀ (files ++ rest) r.1 r.2 := by
  induction rest generalizing files e c with
  | nil => simpa using read
  | cons f rest ih =>
      obtain ⟨file, source⟩ := f
      have new : ∀ f ∈ files, f.1 ≠ file := by
        intro f listed same
        rw [List.map_append, List.nodup_append] at distinct
        exact distinct.2.2 f.1 (List.mem_map_of_mem listed) file List.mem_cons_self same
      have step := read.visitFile (there (file, source) List.mem_cons_self) new
      rw [← List.singleton_append, ← List.append_assoc] at distinct ⊢
      exact ih step (fun f inside => there f (List.mem_cons_of_mem _ inside)) distinct

end ReadAll

/-- Nothing has been read. -/
theorem readAll_empty (p : Program) (name outDir packagePath : String) :
    ReadAll p { package := Package.empty name outDir, packagePath } []
      { package := Package.empty name outDir, packagePath } (ofProgram p) where
  valid := valid_empty name outDir packagePath
  sound := sound_ofProgram p
  reached := .refl _
  place := rfl
  homes _ had := by cases had
  modules _ _ _ first := by cases first
  absent path _ := ⟨List.not_mem_nil, fun _ inside => by cases inside⟩

end Extraction

namespace Program

/-- A file that is taken for a root file under an id is the file of that id. -/
theorem file?_of_root {p : Program} {id : FileId} {f : FileId × SourceFile}
    (found : (match p.file? id with
      | some f => if f.root then some (id, f) else none
      | none => none) = some f) : f.1 = id ∧ p.file? id = some f.2 := by
  split at found
  · rename_i source there
    split at found
    · cases found
      exact ⟨rfl, there⟩
    · cases found
  · cases found

theorem file?_of_mem_rootFiles {p : Program} {f : FileId × SourceFile} (root : f ∈ p.rootFiles) :
    p.file? f.1 = some f.2 := by
  obtain ⟨id, _, found⟩ := List.mem_filterMap.mp root
  obtain ⟨own, there⟩ := file?_of_root found
  rw [own, there]

theorem nodup_rootFiles (p : Program) : (p.rootFiles.map Prod.fst).Nodup := by
  have ids : p.fileIds.Nodup :=
    List.nodup_range.map fun _ _ same => congrArg FileId.index same
  refine List.pairwise_map.mpr (List.pairwise_filterMap.mpr (ids.imp ?_))
  intro a b differs f first g second same
  exact differs ((file?_of_root first).1.symm.trans (same.trans (file?_of_root second).1))

end Program

namespace Package

/-- What was collected from the root files of a program. -/
theorem readAll_collected (name outDir packagePath : String) (p : Program) :
    Extraction.ReadAll p { package := Package.empty name outDir, packagePath } p.rootFiles
      (collected name outDir packagePath p).1 (collected name outDir packagePath p).2 :=
  (Extraction.readAll_empty p name outDir packagePath).visitAll
    (fun _ root => Program.file?_of_mem_rootFiles root) p.nodup_rootFiles

end Package

/-- The kind of symbols that an item is a declaration of, if it has to be of one. -/
def Role.ownKind? : Role → Option SymbolKind
  | .classDecl => some .classDecl
  | .function => some .function
  | _ => none

theorem Role.not_dropped {p : Program} {c : Checker} {s : SymbolId} {role : Role} {kind : SymbolKind}
    (own : role.ownKind? = some kind) (same : c.bindings.kind? s = some kind) :
    ¬ role.Dropped p c s := by
  cases role with
  | type | variableDecl => cases own
  | classDecl | function =>
      cases own
      exact fun dropped => dropped.1 same

/-- The declarations of a module are those of the exported items of a file: in order, one for each
symbol at its first item, except for those of which there is nothing to show. -/
structure Module.Exact (m : Module) (p : Program) (c : Checker) (file : FileId)
    (items : List Exported) : Prop where
  named : ∀ x ∈ items, (x.symbol? p file).isSome
  declarations : m.declarations.values.map (fun d => (d.name, d.body)) =
    (turns p file items).filterMap (·.shown? p c)
  dropped : ∀ t ∈ turns p file items, t.shown? p c = none ↔ t.item.role.Dropped p c t.symbol
  kept : ∀ t ∈ turns p file items, ∀ kind, t.item.role.ownKind? = some kind →
    c.bindings.kind? t.symbol = some kind → (t.shown? p c).isSome
  kinds : ∀ d ∈ m.declarations.values, ∃ t ∈ turns p file items,
    t.shown? p c = some (d.name, d.body) ∧ d.kind ∈ t.item.role.kinds

namespace Package

theorem listed_linkedModule (p : Package) (edges : String → Module → List Reexport) (path : String)
    (m : Module) : Extraction.listed (p.linkedModule edges path m) = Extraction.listed m := by
  simp [Extraction.listed, OrdMap.values, linkedModule, linkedDeclaration, Function.comp_def]

/-- Linking what was read leaves the declarations of a module those of its file. -/
theorem exact_linked {p : Program} {e₀ e : Extraction} {c : Checker}
    (read : Extraction.ReadAll p e₀ p.rootFiles e c) (edges : String → Module → List Reexport)
    {path : String} {file : FileId} {source : SourceFile}
    (first : e₀.firstAt? p.rootFiles path = some (file, source)) :
    ∃ m, (e.package.linked edges).modules.get? path = some m ∧
      m.Exact p c file source.source.exported := by
  obtain ⟨m, there, content⟩ := read.modules path file source first
  have shown := (listed_linkedModule e.package edges path m).trans content.declarations
  have root := Program.file?_of_mem_rootFiles (Extraction.firstAt?_eq_some first).1
  have dropped : ∀ t ∈ turns p file source.source.exported,
      t.shown? p c = none ↔ t.item.role.Dropped p c t.symbol := fun t inside =>
    Option.map_eq_none_iff.trans ((content.settled t inside).dropped c (.refl c) read.sound)
  refine ⟨_, ?_, ?named, shown, dropped, ?kept, ?kinds⟩
  · rw [get?_modules_linked, there]
    rfl
  case named =>
    intro x inside
    obtain ⟨s, _, named, _⟩ := Bindings.exported_symbol? root inside
    exact Option.isSome_iff_exists.mpr ⟨s, named⟩
  case kept =>
    intro t inside kind own same
    rw [Option.isSome_iff_ne_none, Ne, dropped t inside]
    exact Role.not_dropped own same
  case kinds =>
    intro d inside
    have pair : (d.name, d.body) ∈ (turns p file source.source.exported).filterMap
        (·.shown? p c) := shown ▸ List.mem_map_of_mem inside
    obtain ⟨t, listed, gives⟩ := List.mem_filterMap.mp pair
    refine ⟨t, listed, gives, ?_⟩
    obtain ⟨content, answer, same⟩ := Option.map_eq_some_iff.mp gives
    exact Role.kind_mem answer d (congrArg Prod.snd same).symm

/-- The package of a program is what was collected from it, linked. -/
theorem addProgram_eq_linked {name outDir packagePath : String} {p : Program}
    (valid : (collected name outDir packagePath p).1.Valid) :
    (Package.empty name outDir).addProgram packagePath p =
      (collected name outDir packagePath p).1.package.linked
        ((collected name outDir packagePath p).1.package.edgesOf
          (collected name outDir packagePath p).1.stars) :=
  resolve_eq _ _ valid.keyed

/-- The module at an output path has the declarations of the first root file with that path. -/
theorem addProgram_exact (name outDir packagePath : String) (p : Program) {path : String}
    {file : FileId} {source : SourceFile}
    (first : p.rootFiles.find? (fun f => Path.outputPath packagePath outDir f.2.path = path) =
      some (file, source)) :
    ∃ m, ((Package.empty name outDir).addProgram packagePath p).modules.get? path = some m ∧
      m.Exact p (collected name outDir packagePath p).2 file source.source.exported := by
  have read := readAll_collected name outDir packagePath p
  rw [addProgram_eq_linked read.valid]
  exact exact_linked read _ first

/-- An interface `A` that is declared twice, a class `C`, a variable `x` without a value and a default
function `f`. -/
def mergedSource : SourceFile :=
  let item (kind : ItemKind) : Item := ⟨0, 0, none, {}, kind⟩
  let interface : ItemKind := .exportDecl (.interface ⟨"A", [], [], []⟩)
  ⟨⟨"/a.ts", #[], [item interface, item (.exportDecl (.classDecl "C" ⟨[], none, [], []⟩)),
    item interface, item (.exportDecl (.variableList false [⟨.ident "x" false none, none, ""⟩])),
    item (.exportDefault (.function (some "f") ⟨[], [], none, .none, false, false⟩))]⟩, "/a.ts", true⟩

def merged : Program := { files := #[mergedSource] }

set_option maxRecDepth 20000 in
/-- `A` is shown once, and `x` is not shown. -/
theorem merged_exact :
    ∃ m, ((Package.empty "p" "lib").addProgram "/" merged).modules.get? "lib/a.js" = some m ∧
      m.Exact merged (collected "p" "lib" "/" merged).2 ⟨0⟩ mergedSource.source.exported ∧
      m.declarations.values.map (·.name) = ["A", "C", "f"] := by
  have first : merged.rootFiles.find? (fun f => Path.outputPath "/" "lib" f.2.path = "lib/a.js") =
      some (⟨0⟩, mergedSource) := by
    have path : Path.outputPath "/" "lib" mergedSource.path = "lib/a.js" := by cbv
    exact List.find?_cons_of_pos (decide_eq_true path)
  have names : (((Package.empty "p" "lib").addProgram "/" merged).modules.get? "lib/a.js").map
      (·.declarations.values.map (·.name)) = some ["A", "C", "f"] := by cbv
  obtain ⟨m, there, exact⟩ := addProgram_exact "p" "lib" "/" merged first
  rw [there] at names
  exact ⟨m, there, exact, Option.some.inj names⟩

end Package

end ApiDocs
