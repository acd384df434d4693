import Mathlib.Data.List.Induction
import Mathlib.Data.List.Nodup
import ApiDocs.Program
import ApiDocs.Proofs.Paths

set_option autoImplicit false

/-!
The files of a program. Each has a normal path of its own, so that a path leads to one file. The files
given are the embedded typings and the roots; of those with one path the first is kept, and it is a
root if one of them is.
-/

namespace ApiDocs.Program

open Syntax

/-! ### Files and their paths -/

section

variable {p : Program} {id : FileId} {f : SourceFile} {path : String}

theorem index_lt (found : p.file? id = some f) : id.index < p.files.size :=
  (Array.getElem?_eq_some_iff.mp found).1

theorem exists_of_find? (found : p.find? path = some id) : ∃ f, p.file? id = some f ∧ f.path = path := by
  obtain ⟨i, here, rfl⟩ := Option.map_eq_some_iff.mp found
  obtain ⟨below, same, _⟩ := Array.findIdx?_eq_some_iff_getElem.mp here
  exact ⟨p.files[i], Array.getElem?_eq_getElem below, by simpa using same⟩

theorem find?_eq_none_iff : p.find? path = none ↔ ∀ id f, p.file? id = some f → f.path ≠ path := by
  simp only [find?, Option.map_eq_none_iff, Array.findIdx?_eq_none_iff, decide_eq_false_iff_not]
  constructor
  · intro absent id f found
    exact absent f (Array.mem_of_getElem? found)
  · intro absent f inside
    obtain ⟨i, here⟩ := Array.mem_iff_getElem?.mp inside
    exact absent ⟨i⟩ f here

/-- Files stand at their normal paths, each at its own. -/
structure Tidy (p : Program) : Prop where
  normal : ∀ id f, p.file? id = some f → f.path = Path.normalize f.source.path
  unique : ∀ id other f g, p.file? id = some f → p.file? other = some g → f.path = g.path → id = other

theorem Tidy.index (tidy : p.Tidy) (found : p.file? id = some f) : p.find? f.path = some id := by
  cases here : p.find? f.path with
  | none => exact absurd rfl (find?_eq_none_iff.mp here id f found)
  | some other =>
      obtain ⟨g, there, same⟩ := exists_of_find? here
      rw [tidy.unique other id g f there found same]

theorem Tidy.find?_eq_some_iff (tidy : p.Tidy) :
    p.find? path = some id ↔ ∃ f, p.file? id = some f ∧ f.path = path :=
  ⟨exists_of_find?, fun ⟨_, found, same⟩ => same ▸ tidy.index found⟩

theorem Tidy.normalize_path (tidy : p.Tidy) (found : p.file? id = some f) :
    Path.normalize f.path = f.path := by
  rw [tidy.normal id f found, Path.normalize_normalize]

theorem Tidy.normalize_of_find? (tidy : p.Tidy) (found : p.find? path = some id) :
    Path.normalize path = path := by
  obtain ⟨f, here, rfl⟩ := exists_of_find? found
  exact tidy.normalize_path here

end

/-! ### Growing programs -/

/-- Files are added behind those that are there, and what is settled stays. -/
structure Grows (p p' : Program) : Prop where
  files : ∃ more, p'.files = p.files ++ more
  targets : ∀ id s target, p.resolveModule? id s = some target → p'.resolveModule? id s = some target

namespace Grows

variable {p p' p'' : Program} {id : FileId} {f : SourceFile} {path : String}

theorem refl (p : Program) : p.Grows p := ⟨⟨#[], by simp⟩, fun _ _ _ known => known⟩

theorem trans (first : p.Grows p') (second : p'.Grows p'') : p.Grows p'' where
  files := by
    obtain ⟨more, same⟩ := first.files
    obtain ⟨later, again⟩ := second.files
    exact ⟨more ++ later, by rw [again, same, Array.append_assoc]⟩
  targets id s target known := second.targets id s target (first.targets id s target known)

theorem file? (grows : p.Grows p') (found : p.file? id = some f) : p'.file? id = some f := by
  obtain ⟨more, same⟩ := grows.files
  unfold Program.file?
  rw [same, Array.getElem?_append_left (index_lt found)]
  exact found

theorem find? (grows : p.Grows p') (found : p.find? path = some id) : p'.find? path = some id := by
  obtain ⟨more, same⟩ := grows.files
  obtain ⟨i, here, rfl⟩ := Option.map_eq_some_iff.mp found
  simp only [Program.find?, same, Array.findIdx?_append, here]
  rfl

theorem pathOf (grows : p.Grows p') (found : p.file? id = some f) : p'.pathOf id = p.pathOf id := by
  rw [Program.pathOf, Program.pathOf, grows.file? found, found]

theorem specifiersOf (grows : p.Grows p') (found : p.file? id = some f) :
    p'.specifiersOf id = p.specifiersOf id := by
  rw [Program.specifiersOf, Program.specifiersOf, grows.file? found, found]

end Grows

/-! ### Adding files -/

section

variable {p : Program} {source : SourceText} {root : Bool}

/-- The file becomes a root if `root` says so. -/
def marked (root : Bool) (f : SourceFile) : SourceFile := { f with root := f.root || root }

theorem add_of_known {id : FileId} (known : p.find? (Path.normalize source.path) = some id) :
    p.add source root = (id, { p with files := p.files.modify id.index (marked root) }) := by
  simp only [add, known]
  rfl

theorem add_of_new (new : p.find? (Path.normalize source.path) = none) :
    p.add source root = (⟨p.files.size⟩,
      { p with files := p.files.push ⟨source, Path.normalize source.path, root⟩ }) := by
  simp only [add, new]

theorem file?_modify {j id : FileId} :
    ({ p with files := p.files.modify j.index (marked root) } : Program).file? id =
      (p.file? id).map fun f => if id = j then marked root f else f := by
  obtain ⟨i⟩ := id
  obtain ⟨k⟩ := j
  unfold file?
  rw [Array.getElem?_modify]
  by_cases same : k = i
  · simp [same]
  · simp [same, Ne.symm same]

theorem file?_push {g : SourceFile} {id : FileId} :
    ({ p with files := p.files.push g } : Program).file? id =
      if id.index = p.files.size then some g else p.file? id := by
  unfold file?
  rw [Array.getElem?_push]

theorem Tidy.add (tidy : p.Tidy) (source : SourceText) (root : Bool) : (p.add source root).2.Tidy := by
  cases known : p.find? (Path.normalize source.path) with
  | some j =>
      rw [add_of_known known]
      have before : ∀ {id f}, ({ p with files := p.files.modify j.index (marked root) } :
          Program).file? id = some f → ∃ g, p.file? id = some g ∧ f.path = g.path ∧ f.source = g.source := by
        intro id f found
        rw [file?_modify] at found
        obtain ⟨g, here, rfl⟩ := Option.map_eq_some_iff.mp found
        refine ⟨g, here, ?_⟩
        split <;> exact ⟨rfl, rfl⟩
      refine ⟨fun id f found => ?_, fun id other f g found there same => ?_⟩
      · obtain ⟨old, here, path, text⟩ := before found
        rw [path, text, tidy.normal id old here]
      · obtain ⟨old, here, path, _⟩ := before found
        obtain ⟨old', here', path', _⟩ := before there
        exact tidy.unique id other old old' here here' (by rw [← path, ← path', same])
  | none =>
      rw [add_of_new known]
      have absent := find?_eq_none_iff.mp known
      refine ⟨fun id f found => ?_, fun id other f g found there same => ?_⟩
      · rw [file?_push] at found
        split at found
        · cases found
          rfl
        · exact tidy.normal id f found
      · rw [file?_push] at found there
        split at found <;> split at there
        · rename_i first second
          obtain ⟨i⟩ := id
          obtain ⟨j⟩ := other
          exact congrArg FileId.mk (first.trans second.symm)
        · cases found
          exact absurd same.symm (absent other g there)
        · cases there
          exact absurd same (absent id f found)
        · exact tidy.unique id other f g found there same

/-- A file that is read on the way is the one that is there at its path, or a new one. -/
theorem add_false_cases (p : Program) (source : SourceText) :
    (∃ id, p.find? (Path.normalize source.path) = some id ∧ p.add source false = (id, p)) ∨
      p.find? (Path.normalize source.path) = none ∧ p.add source false = (⟨p.files.size⟩,
        { p with files := p.files.push ⟨source, Path.normalize source.path, false⟩ }) := by
  cases known : p.find? (Path.normalize source.path) with
  | some id =>
      refine .inl ⟨id, rfl, ?_⟩
      have idle : marked false = fun f => f := by
        funext f
        simp [marked]
      have same : p.files.modify id.index (fun f => f) = p.files := by
        ext i below below'
        · simp
        · simp [Array.getElem_modify]
      rw [add_of_known known, idle, same]
  | none => exact .inr ⟨rfl, add_of_new known⟩

end

/-! ### The files given -/

/-- Whether two sources have one normal path. -/
def samePath (a b : SourceText) : Bool := Path.normalize a.path = Path.normalize b.path

theorem eraseDupsBy_loop_concat {α : Type} (r : α → α → Bool) (list sofar : List α) (x : α) :
    List.eraseDupsBy.loop r (list ++ [x]) sofar =
      List.eraseDupsBy.loop r list sofar ++
        if (List.eraseDupsBy.loop r list sofar).any (r x) then [] else [x] := by
  induction list generalizing sofar with
  | nil =>
      simp only [List.nil_append, List.eraseDupsBy.loop, List.any_reverse]
      cases sofar.any (r x) <;> simp
  | cons y rest ih =>
      by_cases seen : sofar.any (r y) = true
      · simp only [List.cons_append, List.eraseDupsBy.loop, seen]
        exact ih sofar
      · rw [Bool.not_eq_true] at seen
        simp only [List.cons_append, List.eraseDupsBy.loop, seen]
        exact ih (y :: sofar)

theorem eraseDupsBy_concat {α : Type} (r : α → α → Bool) (list : List α) (x : α) :
    (list ++ [x]).eraseDupsBy r =
      list.eraseDupsBy r ++ if (list.eraseDupsBy r).any (r x) then [] else [x] :=
  eraseDupsBy_loop_concat r list [] x

/-- A program of sources only, each with a mark that says whether it is a root: of sources with one
path the first one stays, and it is a root if one of them is. -/
structure Given (sources : List (SourceText × Bool)) (p : Program) : Prop where
  tidy : p.Tidy
  targets : p.targets = .empty
  kept : p.files.toList.map (·.source) = (sources.map Prod.fst).eraseDupsBy samePath
  root : ∀ id f, p.file? id = some f →
    (f.root = true ↔ ∃ s, (s, true) ∈ sources ∧ Path.normalize s.path = f.path)
  present : ∀ s root, (s, root) ∈ sources → ∃ id f, p.file? id = some f ∧ f.path = Path.normalize s.path

theorem Given.start : Given [] {} where
  tidy := ⟨fun id f found => by simp [file?] at found, fun id other f g found => by simp [file?] at found⟩
  targets := rfl
  kept := rfl
  root id f found := by simp [file?] at found
  present := nofun

theorem Tidy.any_samePath {p : Program} (tidy : p.Tidy) (s : SourceText) :
    (p.files.toList.map (·.source)).any (samePath s) =
      (p.find? (Path.normalize s.path)).isSome := by
  rw [Bool.eq_iff_iff, List.any_map, List.any_eq_true, Option.isSome_iff_exists]
  constructor
  · rintro ⟨f, inside, same⟩
    obtain ⟨i, found⟩ := Array.mem_iff_getElem?.mp (Array.mem_toList_iff.mp inside)
    have here : p.file? ⟨i⟩ = some f := found
    have path : Path.normalize s.path = f.path := by
      rw [tidy.normal _ f here]
      simpa [samePath] using same
    exact ⟨⟨i⟩, path ▸ tidy.index here⟩
  · rintro ⟨id, found⟩
    obtain ⟨f, here, path⟩ := exists_of_find? found
    refine ⟨f, Array.mem_toList_iff.mpr (Array.mem_of_getElem? here), ?_⟩
    simp [samePath, ← path, ← tidy.normal id f here]

/-- The files after one was added: those from before, with the one at its path marked, or a new one. -/
theorem Tidy.file?_add {p : Program} (tidy : p.Tidy) {s : SourceText} {root : Bool} {id : FileId}
    {g : SourceFile} :
    (p.add s root).2.file? id = some g ↔
      (∃ f, p.file? id = some f ∧ g = if f.path = Path.normalize s.path then marked root f else f) ∨
        p.find? (Path.normalize s.path) = none ∧ id = ⟨p.files.size⟩ ∧
          g = ⟨s, Path.normalize s.path, root⟩ := by
  cases known : p.find? (Path.normalize s.path) with
  | some j =>
      obtain ⟨h, there, path⟩ := exists_of_find? known
      have same : ∀ f, p.file? id = some f → (id = j ↔ f.path = Path.normalize s.path) := by
        intro f here
        constructor
        · rintro rfl
          rw [there] at here
          cases here
          exact path
        · exact fun own => tidy.unique id j f h here there (own.trans path.symm)
      rw [add_of_known known, file?_modify, Option.map_eq_some_iff]
      simp only [reduceCtorEq, false_and, or_false]
      refine exists_congr fun f => and_congr_right fun here => ?_
      simp only [same f here, eq_comm]
  | none =>
      have absent := find?_eq_none_iff.mp known
      have plain : ∀ f, p.file? id = some f →
          (if f.path = Path.normalize s.path then marked root f else f) = f :=
        fun f here => if_neg (absent id f here)
      rw [add_of_new known, file?_push]
      by_cases last : id.index = p.files.size
      · obtain rfl : id = ⟨p.files.size⟩ := congrArg FileId.mk last
        have outside : p.file? ⟨p.files.size⟩ = none := by simp [file?]
        simp [outside, eq_comm]
      · rw [if_neg last]
        constructor
        · intro here
          exact .inl ⟨g, here, (plain g here).symm⟩
        · rintro (⟨f, here, rfl⟩ | ⟨_, rfl, _⟩)
          · rw [plain f here]
            exact here
          · exact absurd rfl last

namespace Given

variable {sources : List (SourceText × Bool)} {p : Program}

/-- A source at the path of an earlier one is left out. -/
theorem kept_add (given : Given sources p) (s : SourceText) (root : Bool) :
    (p.add s root).2.files.toList.map (·.source) =
      ((sources ++ [(s, root)]).map Prod.fst).eraseDupsBy samePath := by
  have list := eraseDupsBy_concat samePath (sources.map Prod.fst) s
  rw [← given.kept, given.tidy.any_samePath] at list
  rw [List.map_append, List.map_singleton, list]
  cases known : p.find? (Path.normalize s.path) with
  | some j =>
      rw [add_of_known known]
      refine List.ext_getElem (by simp) fun i below below' => ?_
      simp only [Array.toList_modify, List.getElem_map, Option.isSome_some, ↓reduceIte,
        List.append_nil, List.getElem_modify]
      split <;> rfl
  | none =>
      rw [add_of_new known]
      simp

/-- A file that is there is a root of the longer list if it is one already, or if the source that is
added marks it. -/
theorem root_concat (given : Given sources p) (s : SourceText) (root : Bool) {id : FileId}
    {f : SourceFile} (here : p.file? id = some f) :
    (∃ t, (t, true) ∈ sources ++ [(s, root)] ∧ Path.normalize t.path = f.path) ↔
      f.root = true ∨ root = true ∧ f.path = Path.normalize s.path := by
  rw [given.root id f here]
  constructor
  · rintro ⟨t, inside, path⟩
    rcases List.mem_append.mp inside with old | last
    · exact .inl ⟨t, old, path⟩
    · cases List.mem_singleton.mp last
      exact .inr ⟨rfl, path.symm⟩
  · rintro (⟨t, old, path⟩ | ⟨rfl, path⟩)
    · exact ⟨t, List.mem_append_left _ old, path⟩
    · exact ⟨s, List.mem_append_right _ List.mem_cons_self, path.symm⟩

theorem root_add (given : Given sources p) (s : SourceText) (root : Bool) (id : FileId)
    (g : SourceFile) (found : (p.add s root).2.file? id = some g) :
    g.root = true ↔ ∃ t, (t, true) ∈ sources ++ [(s, root)] ∧ Path.normalize t.path = g.path := by
  rcases given.tidy.file?_add.mp found with ⟨f, here, rfl⟩ | ⟨new, rfl, rfl⟩
  · have roots := given.root_concat s root here
    by_cases same : f.path = Path.normalize s.path
    · rw [if_pos same]
      refine Iff.trans ?_ roots.symm
      simp [marked, same]
    · rw [if_neg same, roots]
      simp [same]
  · refine ⟨fun marked => ⟨s, ?_, rfl⟩, fun ⟨t, inside, path⟩ => ?_⟩
    · have marked : root = true := marked
      simp [marked]
    · rcases List.mem_append.mp inside with old | last
      · obtain ⟨id, f, here, own⟩ := given.present t true old
        exact absurd (own.trans path) (find?_eq_none_iff.mp new id f here)
      · cases List.mem_singleton.mp last
        rfl

theorem present_add (given : Given sources p) (s : SourceText) (root : Bool) (t : SourceText)
    (mark : Bool) (inside : (t, mark) ∈ sources ++ [(s, root)]) :
    ∃ id f, (p.add s root).2.file? id = some f ∧ f.path = Path.normalize t.path := by
  have kept : ∀ id f, p.file? id = some f → f.path = Path.normalize t.path →
      ∃ id g, (p.add s root).2.file? id = some g ∧ g.path = Path.normalize t.path := by
    intro id f here path
    refine ⟨id, _, given.tidy.file?_add.mpr (.inl ⟨f, here, rfl⟩), ?_⟩
    split <;> exact path
  rcases List.mem_append.mp inside with old | last
  · obtain ⟨id, f, here, path⟩ := given.present t mark old
    exact kept id f here path
  · cases List.mem_singleton.mp last
    cases known : p.find? (Path.normalize s.path) with
    | some id =>
        obtain ⟨f, here, path⟩ := exists_of_find? known
        exact kept id f here path
    | none => exact ⟨_, _, given.tidy.file?_add.mpr (.inr ⟨known, rfl, rfl⟩), rfl⟩

theorem add (given : Given sources p) (s : SourceText) (root : Bool) :
    Given (sources ++ [(s, root)]) (p.add s root).2 where
  tidy := given.tidy.add s root
  targets := by
    cases known : p.find? (Path.normalize s.path) with
    | some j => rw [add_of_known known]; exact given.targets
    | none => rw [add_of_new known]; exact given.targets
  kept := given.kept_add s root
  root := given.root_add s root
  present := given.present_add s root

end Given

theorem given_foldl (sources : List (SourceText × Bool)) :
    Given sources (sources.foldl (fun p s => (p.add s.1 s.2).2) {}) := by
  induction sources using List.reverseRecOn with
  | nil => exact .start
  | append_singleton front last ih =>
      rw [List.foldl_append]
      exact ih.add last.1 last.2

/-- The embedded typings and the roots, in this order. -/
theorem given_ofSources (roots : List SourceText) :
    Given (embedded.map (·, false) ++ roots.map (·, true)) (ofSources roots) := by
  have all := given_foldl (embedded.map (·, false) ++ roots.map (·, true))
  rwa [List.foldl_append, List.foldl_map, List.foldl_map] at all

/-! ### Typings -/

theorem mem_of_mem_eraseDupsBy {α : Type} {r : α → α → Bool} {list : List α} {x : α}
    (inside : x ∈ list.eraseDupsBy r) : x ∈ list := by
  induction list using List.reverseRecOn with
  | nil => cases inside
  | append_singleton front last ih =>
      rw [eraseDupsBy_concat] at inside
      rcases List.mem_append.mp inside with before | after
      · exact List.mem_append_left _ (ih before)
      · split at after
        · cases after
        · exact List.mem_append_right _ after

/-- The typings as they are read, if they parse. -/
def parsed? (t : Typings) : Option SourceText := (SourceText.read t.path t.source).toOption

theorem path_of_parsed? {t : Typings} {source : SourceText} (read : parsed? t = some source) :
    source.path = t.path := by
  unfold parsed? SourceText.read SourceText.parse at read
  grind [Except.toOption]

/-- Typings have normal paths of their own. -/
theorem typings_paths :
    (∀ t ∈ Typings.all, Path.normalize t.path = t.path) ∧ (Typings.all.map (·.path)).Nodup := by
  refine ⟨fun t listed => ?_, by decide⟩
  simp only [Typings.all, List.mem_cons, List.not_mem_nil, or_false] at listed
  rcases listed with rfl | rfl <;> cbv

/-- Adding files changes no source. -/
theorem Tidy.source_foldl {p : Program} (tidy : p.Tidy) (list : List SourceText) (root : Bool)
    {id : FileId} {f : SourceFile} (found : p.file? id = some f) :
    ∃ g, (list.foldl (fun p s => (p.add s root).2) p).file? id = some g ∧
      g.source = f.source ∧ g.path = f.path := by
  induction list generalizing p f with
  | nil => exact ⟨f, found, rfl, rfl⟩
  | cons s rest ih =>
      have here : (p.add s root).2.file? id = some _ := tidy.file?_add.mpr (.inl ⟨f, found, rfl⟩)
      obtain ⟨g, later, source, path⟩ := ih (tidy.add s root) here
      refine ⟨g, later, ?_⟩
      rw [source, path]
      split <;> exact ⟨rfl, rfl⟩

/-- Typings that parse are among the files given, whatever the roots are. -/
theorem typings_ofSources (roots : List SourceText) {t : Typings} {source : SourceText}
    (listed : t ∈ Typings.all) (read : parsed? t = some source) :
    ∃ id f, (ofSources roots).file? id = some f ∧ f.source = source ∧ f.path = t.path := by
  obtain ⟨normal, distinct⟩ := typings_paths
  have given := given_foldl (embedded.map (·, false))
  rw [List.foldl_map] at given
  have inside : source ∈ embedded := List.mem_filterMap.mpr ⟨t, listed, read⟩
  obtain ⟨id, f, found, path⟩ := given.present source false (by simp [inside])
  rw [path_of_parsed? read, normal t listed] at path
  -- the file has the source of some typings, and of these only `t` has its path
  have kept : f.source ∈ (embedded.map (·, false)).map Prod.fst := by
    refine mem_of_mem_eraseDupsBy (r := samePath) ?_
    rw [← given.kept]
    exact List.mem_map_of_mem (Array.mem_toList_iff.mpr (Array.mem_of_getElem? found))
  obtain ⟨t', listed', read'⟩ := List.mem_filterMap.mp (show f.source ∈ embedded by simpa using kept)
  have same : t' = t := by
    refine List.inj_on_of_nodup_map distinct listed' listed ?_
    rw [← path, given.tidy.normal id f found, path_of_parsed? read', normal t' listed']
  rw [same] at read'
  obtain ⟨g, later, equal, own⟩ := given.tidy.source_foldl roots true found
  refine ⟨id, g, later, ?_, own.trans path⟩
  exact equal.trans (Option.some.inj (read'.symm.trans read))

end ApiDocs.Program
