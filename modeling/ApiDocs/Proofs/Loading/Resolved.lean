import ApiDocs.Proofs.Loading.Settling

set_option autoImplicit false

/-!
Programs that are built. When no file waits any more, every specifier points to what it leads to from
the files given and those on disk, so that the order in which files were settled plays no part.
-/

namespace ApiDocs.Program

open Syntax

/-! ### Programs that are built -/

/-- Nothing is left to do, whatever the order was in which the files were settled. -/
def Finished (tree : FileTree) (roots : List SourceText) (g : Program) : Prop :=
  let given := ofSources roots
  Relation.ReflTransGen (Turn tree) ⟨given, given.fileIds.reverse⟩ ⟨g, []⟩

/-- A program from these roots whose specifiers all point to what they lead to. -/
structure Resolved (tree : FileTree) (roots : List SourceText) (g : Program) : Prop where
  normal : ∀ id f, g.file? id = some f → Path.normalize f.path = f.path
  distinct : (g.files.toList.map (·.path)).Nodup
  index : ∀ path id, g.find? path = some id ↔ ∃ f, g.file? id = some f ∧ f.path = path
  /-- The embedded typings, then the roots. Of files with one normal path the first is kept. -/
  front : ∃ more, g.files.toList.map (·.source) = (embedded ++ roots).eraseDupsBy samePath ++ more
  root : ∀ id f, g.file? id = some f →
    (f.root = true ↔ ∃ s ∈ roots, Path.normalize s.path = f.path)
  paths : ∀ path, (g.find? path).isSome ↔ (ofSources roots).Reached tree path
  /-- A relative specifier points to the file at the first candidate that is there. -/
  relative : ∀ id f, g.file? id = some f → ∀ s ∈ specifiers f.source, Path.isRelative s = true →
    (∀ path, (ofSources roots).target? tree f.path s = some path →
      ∃ target, g.find? path = some target ∧ g.resolveModule? id s = some (.file target)) ∧
    ((ofSources roots).target? tree f.path s = none → g.resolveModule? id s = none)
  /-- A bare specifier points to the typings that are registered for it, or else to no file. -/
  bare : ∀ id f, g.file? id = some f → ∀ s ∈ specifiers f.source, Path.isRelative s = false →
    (g.resolveModule? id s = some .external ∨ ∃ t target, Typings.forModule? s = some t ∧
      g.find? t.path = some target ∧ g.resolveModule? id s = some (.file target)) ∧
    ∀ t source, Typings.forModule? s = some t → parsed? t = some source →
      ∃ target h, g.file? target = some h ∧ h.source = source ∧
        g.resolveModule? id s = some (.file target)

/-- The path of the file that a target is, if it is a file. -/
def placeOf? (p : Program) : ModuleTarget → Option String
  | .file id => (p.file? id).map (·.path)
  | .external => none

/-- Two programs have the same files, written with the same specifiers, which point to the same files.
Typings that are registered for a bare specifier have to parse. -/
structure Agree (g g' : Program) : Prop where
  paths : ∀ path, (g.find? path).isSome = (g'.find? path).isSome
  specifiers : ∀ id id' f f', g.file? id = some f → g'.file? id' = some f' → f.path = f'.path →
    specifiers f.source = specifiers f'.source
  targets : ∀ id id' f f', g.file? id = some f → g'.file? id' = some f' → f.path = f'.path →
    ∀ s ∈ Program.specifiers f.source,
      (∀ t, Path.isRelative s = false → Typings.forModule? s = some t → (parsed? t).isSome) →
        (g.resolveModule? id s).map g.placeOf? = (g'.resolveModule? id' s).map g'.placeOf?

section

variable {tree : FileTree} {roots : List SourceText} {g : Program}

theorem progress_ofSources (tree : FileTree) (roots : List SourceText) :
    let given := ofSources roots
    Progress given tree ⟨given, given.fileIds.reverse⟩ := by
  have given := given_ofSources roots
  have none : ∀ id s, (ofSources roots).resolveModule? id s = none := by
    intro id s
    rw [resolveModule?, given.targets]
    rfl
  refine ⟨⟨given.tidy, .refl _, fun _ _ found => .inl found, fun id f found => ?_, ?_⟩, ?_, ?_⟩
  · exact .given (by rw [given.tidy.index found]; rfl)
  · intro id s target found
    rw [none] at found
    cases found
  · intro id inside
    obtain ⟨i, below, rfl⟩ := List.mem_map.mp (List.mem_reverse.mp inside)
    exact ⟨_, Array.getElem?_eq_getElem (List.mem_range.mp below)⟩
  · intro id f found
    refine .inl (List.mem_reverse.mpr (List.mem_map.mpr ⟨id.index, ?_, rfl⟩))
    exact List.mem_range.mpr (index_lt found)

/-- The program that is built is the end of one such run. -/
theorem finished_build (tree : FileTree) (roots : List SourceText) :
    Finished tree roots (build tree roots) := by
  have start := progress_ofSources tree roots
  have run := Progress.settleAll ((ofSources roots).files.size + tree.entries.size)
    (ofSources roots).fileIds.reverse [] (by rwa [List.append_nil]) (card_openPaths_le _ _ _)
  rwa [List.append_nil] at run

theorem Finished.progress (finished : Finished tree roots g) :
    Progress (ofSources roots) tree ⟨g, []⟩ :=
  ((progress_ofSources tree roots).run finished).1

/-- A specifier of a finished program has a target that is right, or is relative and leads nowhere. -/
theorem Finished.target_cases (finished : Finished tree roots g) {id : FileId} {f : SourceFile}
    (found : g.file? id = some f) {s : String} (written : s ∈ specifiers f.source) :
    (∃ target, g.resolveModule? id s = some target ∧ Right (ofSources roots) tree g id s target) ∨
      g.resolveModule? id s = none ∧ Path.isRelative s = true ∧
        (ofSources roots).target? tree f.path s = none := by
  have path : g.pathOf id = f.path := by simp [pathOf, found]
  have own : s ∈ g.specifiersOf id := by simpa [specifiersOf, found] using written
  cases known : g.resolveModule? id s with
  | some target => exact .inl ⟨target, rfl, (finished.progress.loaded.right id s target known).2⟩
  | none =>
      rcases finished.progress.done id f found with waits | done
      · cases waits
      · exact .inr ⟨rfl, path ▸ done s own known⟩

/-- Where a relative specifier leads there is a file in the end. -/
theorem Finished.relative (finished : Finished tree roots g) {id : FileId} {f : SourceFile}
    (found : g.file? id = some f) {s path : String} (written : s ∈ specifiers f.source)
    (relative : Path.isRelative s = true)
    (leads : (ofSources roots).target? tree f.path s = some path) :
    ∃ target, g.find? path = some target ∧ g.resolveModule? id s = some (.file target) := by
  have own : g.pathOf id = f.path := by simp [pathOf, found]
  rcases finished.target_cases found written with ⟨target, known, right⟩ | ⟨_, _, nowhere⟩
  · cases right with
    | found _ leads' here =>
        rw [own, leads] at leads'
        cases leads'
        exact ⟨_, here, known⟩
    | typings bare _ _ => simp [relative] at bare
    | external bare _ => simp [relative] at bare
  · simp [leads] at nowhere

theorem Finished.find?_of_reached (finished : Finished tree roots g) {path : String}
    (reached : (ofSources roots).Reached tree path) : ∃ id, g.find? path = some id := by
  have loaded := finished.progress.loaded
  induction reached with
  | given there =>
      obtain ⟨id, found⟩ := Option.isSome_iff_exists.mp there
      exact ⟨id, loaded.grown.find? found⟩
  | imported _ read written relative leads ih =>
      obtain ⟨id, found⟩ := ih
      obtain ⟨f, here, rfl⟩ := exists_of_find? found
      obtain ⟨source, readable, same⟩ := loaded.sourceAt? here
      rw [read] at readable
      cases readable
      obtain ⟨target, there, _⟩ := finished.relative here (same ▸ written) relative leads
      exact ⟨target, there⟩

theorem Tidy.nodup_paths (tidy : g.Tidy) : (g.files.toList.map (·.path)).Nodup := by
  rw [List.Nodup, List.pairwise_iff_getElem]
  intro i j left right less same
  simp only [List.getElem_map, Array.getElem_toList] at same
  have equal := tidy.unique ⟨i⟩ ⟨j⟩ _ _ (Array.getElem?_eq_getElem (by simpa using left))
    (Array.getElem?_eq_getElem (by simpa using right)) same
  cases equal
  exact absurd less (Nat.lt_irrefl _)

/-- The files given come first, in their order. -/
theorem Finished.front (finished : Finished tree roots g) :
    ∃ more, g.files.toList.map (·.source) = (embedded ++ roots).eraseDupsBy samePath ++ more := by
  obtain ⟨more, files⟩ := finished.progress.loaded.grown.files
  have kept := (given_ofSources roots).kept
  simp only [List.map_append, List.map_map, Function.comp_def, List.map_id'] at kept
  exact ⟨more.toList.map (·.source), by rw [files, Array.toList_append, List.map_append, kept]⟩

/-- No file that is read on the way is a root. -/
theorem Finished.root_iff (finished : Finished tree roots g) {id : FileId} {f : SourceFile}
    (found : g.file? id = some f) :
    f.root = true ↔ ∃ s ∈ roots, Path.normalize s.path = f.path := by
  have given := given_ofSources roots
  rcases finished.progress.loaded.source id f found with old | ⟨plain, new, _⟩
  · rw [given.root id f old]
    simp
  · refine ⟨fun root => by simp [plain] at root, fun ⟨s, inside, path⟩ => ?_⟩
    obtain ⟨other, h, here, own⟩ := given.present s true (by simp [inside])
    exact absurd (own.trans path) (find?_eq_none_iff.mp new other h here)

/-- A relative specifier that leads nowhere has no target. -/
theorem Finished.nowhere (finished : Finished tree roots g) {id : FileId} {f : SourceFile}
    (found : g.file? id = some f) {s : String} (written : s ∈ specifiers f.source)
    (relative : Path.isRelative s = true)
    (nowhere : (ofSources roots).target? tree f.path s = none) : g.resolveModule? id s = none := by
  have own : g.pathOf id = f.path := by simp [pathOf, found]
  rcases finished.target_cases found written with ⟨target, _, right⟩ | ⟨none, _⟩
  · cases right with
    | found _ leads _ => simp [own, nowhere] at leads
    | typings bare _ _ => simp [relative] at bare
    | external bare _ => simp [relative] at bare
  · exact none

/-- A bare specifier has a target. -/
theorem Finished.bare (finished : Finished tree roots g) {id : FileId} {f : SourceFile}
    (found : g.file? id = some f) {s : String} (written : s ∈ specifiers f.source)
    (bare : Path.isRelative s = false) :
    g.resolveModule? id s = some .external ∨ ∃ t target, Typings.forModule? s = some t ∧
      g.find? t.path = some target ∧ g.resolveModule? id s = some (.file target) := by
  rcases finished.target_cases found written with ⟨target, known, right⟩ | ⟨_, relative, _⟩
  · cases right with
    | found relative _ _ => simp [relative] at bare
    | typings _ registered here => exact .inr ⟨_, _, registered, here, known⟩
    | external _ _ => exact .inl known
  · simp [relative] at bare

/-- Typings that are registered for a bare specifier and can be read are what it points to. -/
theorem Finished.registered (finished : Finished tree roots g) {id : FileId} {f : SourceFile}
    (found : g.file? id = some f) {s : String} (written : s ∈ specifiers f.source)
    (bare : Path.isRelative s = false) {t : Typings} {source : SourceText}
    (registered : Typings.forModule? s = some t) (read : parsed? t = some source) :
    ∃ target h, g.file? target = some h ∧ h.source = source ∧
      g.resolveModule? id s = some (.file target) := by
  have loaded := finished.progress.loaded
  obtain ⟨j, h, given, same, path⟩ :=
    typings_ofSources roots (List.mem_of_find?_eq_some registered) read
  have start : (ofSources roots).find? t.path = some j :=
    path ▸ (given_ofSources roots).tidy.index given
  refine ⟨j, h, loaded.grown.file? given, same, ?_⟩
  rcases finished.target_cases found written with ⟨target, known, right⟩ | ⟨_, relative, _⟩
  · cases right with
    | found relative _ _ => simp [relative] at bare
    | typings _ registered' here =>
        rw [registered] at registered'
        cases registered'
        rw [loaded.grown.find? start] at here
        cases here
        exact known
    | external _ unknown => simp [unknown t registered] at start
  · simp [relative] at bare

theorem Finished.resolved (finished : Finished tree roots g) : Resolved tree roots g where
  normal _ _ found := finished.progress.loaded.tidy.normalize_path found
  distinct := finished.progress.loaded.tidy.nodup_paths
  index _ _ := finished.progress.loaded.tidy.find?_eq_some_iff
  front := finished.front
  root _ _ := finished.root_iff
  paths path := by
    refine ⟨fun there => ?_, fun reached => ?_⟩
    · obtain ⟨id, found⟩ := Option.isSome_iff_exists.mp there
      obtain ⟨f, here, rfl⟩ := exists_of_find? found
      exact finished.progress.loaded.reached id f here
    · exact Option.isSome_iff_exists.mpr (finished.find?_of_reached reached)
  relative _ _ found _ written relative :=
    ⟨fun _ => finished.relative found written relative, finished.nowhere found written relative⟩
  bare _ _ found _ written bare :=
    ⟨finished.bare found written bare, fun _ _ => finished.registered found written bare⟩

/-- What a specifier points to, in terms of paths: no file at all, a file, or no file but a package. -/
def answer? (given : Program) (tree : FileTree) (importer s : String) : Option (Option String) :=
  if Path.isRelative s then (given.target? tree importer s).map some
  else some ((Typings.forModule? s).map (·.path))

theorem Resolved.answer (resolved : Resolved tree roots g) {id : FileId} {f : SourceFile}
    (found : g.file? id = some f) {s : String} (written : s ∈ specifiers f.source)
    (typings : ∀ t, Path.isRelative s = false → Typings.forModule? s = some t → (parsed? t).isSome) :
    (g.resolveModule? id s).map g.placeOf? = (ofSources roots).answer? tree f.path s := by
  have place : ∀ {path target}, g.find? path = some target → g.placeOf? (.file target) = some path := by
    intro path target here
    obtain ⟨h, there, rfl⟩ := exists_of_find? here
    simp [placeOf?, there]
  unfold answer?
  by_cases relative : Path.isRelative s = true
  · obtain ⟨leads, nowhere⟩ := resolved.relative id f found s written relative
    rw [if_pos relative]
    cases target : (ofSources roots).target? tree f.path s with
    | none => rw [nowhere target]; rfl
    | some path =>
        obtain ⟨file, here, known⟩ := leads path target
        simp [known, place here]
  · have bare : Path.isRelative s = false := by simpa using relative
    rw [if_neg relative]
    obtain ⟨either, parsed⟩ := resolved.bare id f found s written bare
    cases registered : Typings.forModule? s with
    | none =>
        rcases either with known | ⟨t, _, same, _⟩
        · simp [known, placeOf?]
        · simp [registered] at same
    | some t =>
        obtain ⟨source, read⟩ := Option.isSome_iff_exists.mp (typings t bare registered)
        obtain ⟨_, _, _, _, answered⟩ := parsed t source registered read
        rcases either with known | ⟨t', file, same, here, known⟩
        · simp [known] at answered
        · rw [registered] at same
          cases same
          simp [known, place here]

theorem Finished.agree {g' : Program} (finished : Finished tree roots g)
    (finished' : Finished tree roots g') : Agree g g' := by
  have resolved := finished.resolved
  have resolved' := finished'.resolved
  have same : ∀ id id' f f', g.file? id = some f → g'.file? id' = some f' → f.path = f'.path →
      specifiers f.source = specifiers f'.source := by
    intro id id' f f' found found' path
    obtain ⟨source, read, equal⟩ := finished.progress.loaded.sourceAt? found
    obtain ⟨source', read', equal'⟩ := finished'.progress.loaded.sourceAt? found'
    rw [path, read'] at read
    cases read
    rw [← equal, ← equal']
  refine ⟨fun path => ?_, same, fun id id' f f' found found' path s written typings => ?_⟩
  · rw [Bool.eq_iff_iff, resolved.paths, resolved'.paths]
  · rw [resolved.answer found written typings, path,
      resolved'.answer found' (same id id' f f' found found' path ▸ written) typings]

/-- Loading comes to an end in whatever order the files are settled, and always with the same files
and answers: those of the program that is built, in which every specifier points to what it leads to
from the files given and those on disk. -/
theorem build_resolved (tree : FileTree) (roots : List SourceText) :
    Resolved tree roots (build tree roots) ∧
      Acc (fun l' l => Turn tree l l') ⟨ofSources roots, (ofSources roots).fileIds.reverse⟩ ∧
        Finished tree roots (build tree roots) ∧
          ∀ g, Finished tree roots g →
            Resolved tree roots g ∧ Agree g (build tree roots) :=
  have built := finished_build tree roots
  ⟨built.resolved, (progress_ofSources tree roots).acc, built,
    fun _ finished => ⟨finished.resolved, finished.agree built⟩⟩

end

end ApiDocs.Program
