import ApiDocs.PackageDir
import ApiDocs.Proofs.PathLaws
import ApiDocs.Proofs.RoundTrip

set_option autoImplicit false

/-!
The readmes of a package. Each one that stands below the source root is stored under the output
directory that it documents, and no two of them meet there. The readme of the package itself is stored
for the source root, if that has none of its own.
-/

namespace ApiDocs

open Text

/-! ### Paths of files and of what holds them -/

namespace Path

theorem splitOn_append_mark (mark : Char) (front rest : List Char) :
    splitOn mark (front ++ mark :: rest) = splitOn mark front ++ splitOn mark rest := by
  induction front with
  | nil => simp [splitOn]
  | cons c front ih =>
      rw [List.cons_append, splitOn, splitOn, ih]
      split
      · rfl
      · obtain ⟨part, parts, same⟩ := List.exists_cons_of_ne_nil (splitOn_ne_nil mark front)
        rw [same]
        rfl

theorem ofText_text (absolute : Bool) {segments : List (List Char)}
    (proper : ∀ s ∈ segments, Proper s) : ofText (text ⟨absolute, segments⟩) = ⟨absolute, segments⟩ := by
  rw [ofText, text, String.toList_ofList, ofChars_chars absolute proper]

/-- Segments that are walked one after the other without a way back. -/
def Onward (segments : List (List Char)) : Prop := ∀ s ∈ segments, Proper s ∧ s ≠ up

namespace Onward

variable {segments front rest : List (List Char)}

theorem proper (onward : Onward segments) : ∀ s ∈ segments, Proper s := fun s inside =>
  (onward s inside).1

theorem forward (onward : Onward segments) : up ∉ segments := fun inside => (onward up inside).2 rfl

theorem append_iff : Onward (front ++ rest) ↔ Onward front ∧ Onward rest :=
  List.forall_mem_append

theorem resolve (onward : Onward segments) (absolute : Bool) :
    (Path.mk absolute segments).resolve = ⟨absolute, segments⟩ := by
  simp [Path.resolve, foldl_walk_forward _ _ onward.forward]

theorem ofText_text (onward : Onward segments) (absolute : Bool) :
    ofText (text ⟨absolute, segments⟩) = ⟨absolute, segments⟩ := Path.ofText_text absolute onward.proper

end Onward

theorem onward_ofText {path : String} (forward : up ∉ (ofText path).segments) :
    Onward (ofText path).segments :=
  fun _ inside => ⟨proper_ofChars inside, fun same => forward (same ▸ inside)⟩

theorem onward_resolve {path : String} (absolute : (ofText path).absolute = true) :
    Onward (ofText path).resolve.segments :=
  fun s inside => ⟨proper_resolve (fun _ => proper_ofChars) s inside,
    fun same => forward_resolve absolute (same ▸ inside)⟩

theorem lead_eq_chars {p : Path} (some : p.segments ≠ []) (proper : ∀ s ∈ p.segments, Proper s) :
    p.lead = p.chars ++ ['/'] := by
  have parts : p.segments.flatMap (· ++ ['/']) = joinWith ['/'] p.segments ++ ['/'] := by
    clear proper
    generalize p.segments = segments at some ⊢
    induction segments with
    | nil => exact absurd rfl some
    | cons segment rest ih =>
        cases rest with
        | nil => simp [joinWith]
        | cons next more =>
            rw [List.flatMap_cons, ih (List.cons_ne_nil _ _)]
            simp [joinWith]
  obtain ⟨c, rest, joined, -⟩ := joinWith_ne_nil some proper
  unfold lead chars
  rw [parts, joined]
  cases p.absolute <;> simp

/-- The directory of a path is the path without its last segment. -/
theorem dirname_text (absolute : Bool) {front : List (List Char)} {name : List Char}
    (proper : ∀ s ∈ front ++ [name], Proper s) :
    dirname (text ⟨absolute, front ++ [name]⟩) = text ⟨absolute, front⟩ := by
  have last : ∀ s ∈ [name], Proper s := fun s inside => proper s (List.mem_append_right _ inside)
  have spelled := chars_append ⟨absolute, front⟩ (List.cons_ne_nil name []) last
  have clean : ∀ c ∈ name.reverse, decide (c ≠ '/') = true := by
    intro c inside
    have slash := (last name List.mem_cons_self).2
    simpa using fun same : c = '/' => slash (same ▸ List.mem_reverse.mp inside)
  have cut : (text ⟨absolute, front ++ [name]⟩).toList.reverse.dropWhile (· ≠ '/') =
      (lead ⟨absolute, front⟩).reverse.dropWhile (· ≠ '/') := by
    rw [text, String.toList_ofList, spelled, List.reverse_append, joinWith,
      List.dropWhile_append_of_pos clean]
  rw [dirname, cut]
  by_cases none : front = []
  · subst none
    cases absolute <;> rfl
  · have before : ∀ s ∈ front, Proper s := fun s inside => proper s (List.mem_append_left _ inside)
    rw [lead_eq_chars none before, List.reverse_append]
    have filled : (Path.mk absolute front).chars ≠ [] := by
      obtain ⟨c, rest, joined, -⟩ := joinWith_ne_nil none before
      cases absolute <;> simp [chars, joined]
    obtain ⟨c, rest, same⟩ := List.exists_cons_of_ne_nil (List.reverse_ne_nil_iff.mpr filled)
    rw [List.reverse_singleton, List.singleton_append, List.dropWhile_cons_of_neg (by decide), same]
    show String.ofList (c :: rest).reverse = _
    rw [← same, List.reverse_reverse, text]

/-- Steps onward from a directory lead to where they are put behind its resolved segments. -/
theorem join_onward {base rest : String} {steps : List (List Char)} (onward : Onward steps)
    (spelled : ofText rest = ⟨false, steps⟩) :
    join base rest = text ⟨(ofText base).absolute, (ofText base).resolve.segments ++ steps⟩ := by
  simp [join, spelled, append, resolve, foldl_walk_forward _ _ onward.forward]

end Path

/-! ### Files below a directory -/

namespace FileTree

open ApiDocs.Path (Onward)

variable {t : FileTree} {path : List (List Char)}

/-- Every entry has the key of its normal path and stands in a directory of the tree. -/
def Standing (t : FileTree) : Prop :=
  ∀ key entry, t.entries.get? key = some entry → ∃ segment path,
    key = keyOf (segment :: path) ∧ Path.Proper segment ∧ segment ≠ Path.up ∧ t.Through path

theorem Standing.holds (standing : t.Standing) {file : String} {text : Option String}
    (found : t.entries.get? file = some (.file text)) :
    ∃ segments, t.Holds text segments ∧ file = keyOf segments := by
  obtain ⟨segment, path, rfl, proper, forward, above⟩ := standing file _ found
  exact ⟨segment :: path, .file above proper forward found, rfl⟩

theorem Holds.onward {text : Option String} (holds : t.Holds text path) : Onward path.reverse :=
  fun s inside => holds.proper s (List.mem_reverse.mp inside)

theorem Through.drop {front : List (List Char)} (through : t.Through (front ++ path)) :
    t.Through path := by
  induction front with
  | nil => exact through
  | cons segment front ih => exact ih through.tail

theorem ofText_keyOf (onward : Onward path.reverse) : Path.ofText (keyOf path) = ⟨true, path.reverse⟩ :=
  onward.ofText_text true

section

variable {root : String}

/-- What stands behind the slash of an absolute path. -/
theorem exists_of_absolute (absolute : (Path.ofText root).absolute = true) :
    ∃ cs, root.toList = '/' :: cs := by
  unfold Path.ofText Path.ofChars startsWith at absolute
  cases spelled : root.toList with
  | nil => simp [spelled] at absolute
  | cons c cs =>
      have slash : '/' = c := by simpa [spelled, List.isPrefixOf] using absolute
      exact ⟨cs, by rw [slash]⟩

theorem ofText_absolute {cs : List Char} (spelled : root.toList = '/' :: cs) :
    Path.ofText root = ⟨true, (splitOn '/' cs).filter Path.counts⟩ := by
  rw [Path.ofText, spelled, Path.ofChars, splitOn, if_pos rfl, List.filter_cons_of_neg (by decide)]
  rfl

theorem below_keyOf_iff (absolute : (Path.ofText root).absolute = true) (onward : Onward path.reverse) :
    Path.Below (Path.ofText root) (Path.ofText (keyOf path)) ↔
      ∃ steps, steps ≠ [] ∧ path.reverse = (Path.ofText root).resolve.segments ++ steps := by
  rw [Path.Below, ofText_keyOf onward, onward.resolve]
  exact ⟨fun below => below.2.2, fun below => ⟨absolute, rfl, below⟩⟩

theorem resolve_of_forward (forward : Path.up ∉ (Path.ofText root).segments) :
    (Path.ofText root).resolve.segments = (Path.ofText root).segments :=
  congrArg Path.segments ((Path.onward_ofText forward).resolve (Path.ofText root).absolute)

/-- A path leads to a file. -/
def LeadsTo (t : FileTree) (path file : String) : Prop :=
  ∃ segments text, t.find path = .onFile segments text ∧ file = keyOf segments

end

end FileTree

/-! ### Readmes -/

namespace Layout

open ApiDocs.Path (Onward ofText)

variable (l : Layout) (t : FileTree) (packagePath outDir : String)

/-- A readme of the sources: a file with the name of readmes, below the source root or at it. -/
def IsReadme (file : String) : Prop :=
  isNamed l.readmeName file = true ∧ (∃ text, t.entries.get? file = some (.file text)) ∧
    (Path.Below (ofText (FileTree.under packagePath l.sourceRoot)) (ofText file) ∨
      t.LeadsTo (FileTree.under packagePath l.sourceRoot) file)

/-- The output directory of the directory of a file. -/
def documented (file : String) : String :=
  Path.join outDir (Path.relative packagePath (Path.dirname file))

/-- The readme of the package itself. -/
def fallback : String := FileTree.under packagePath l.readmeName

section

variable {l : Layout} {t : FileTree} {packagePath outDir : String}

/-- A readme at the end of a way from the package. -/
structure Stands (l : Layout) (packagePath file : String) (front : List (List Char)) : Prop where
  whole : file = Path.text ⟨true, (ofText packagePath).segments ++ (front ++ [l.readmeName.toList])⟩
  onward : Onward ((ofText packagePath).segments ++ (front ++ [l.readmeName.toList]))

theorem toList_under {cs : List Char} (spelled : packagePath.toList = '/' :: cs) {rest : String}
    (relative : (ofText rest).absolute = false) :
    (FileTree.under packagePath rest).toList = '/' :: (cs ++ '/' :: rest.toList) := by
  have filled : packagePath ≠ "" := by
    rintro rfl
    simp at spelled
  have inner : rest.startsWith "/" = false := by
    rw [Bool.eq_false_iff]
    intro slash
    rw [String.startsWith_string_iff] at slash
    have led : startsWith ['/'] rest.toList = true := List.isPrefixOf_iff_prefix.mpr slash
    exact absurd (led.symm.trans relative) (by decide)
  simp [FileTree.under, inner, filled, spelled]

theorem ofText_under (absolute : (ofText packagePath).absolute = true) {rest : String}
    (relative : (ofText rest).absolute = false) : ofText (FileTree.under packagePath rest) =
      ⟨true, (ofText packagePath).segments ++ (ofText rest).segments⟩ := by
  obtain ⟨cs, spelled⟩ := FileTree.exists_of_absolute absolute
  rw [FileTree.ofText_absolute (toList_under spelled relative), FileTree.ofText_absolute spelled,
    Path.splitOn_append_mark, List.filter_append]
  rfl

/-- A file is not gone through: there are segments behind the directory that lead to it. -/
theorem segments_ne_nil_of_onFile (absolute : (ofText packagePath).absolute = true) {rest : String}
    (relative : (ofText rest).absolute = false) {path : List (List Char)} {text : Option String}
    (found : t.find (FileTree.under packagePath rest) = .onFile path text) :
    (ofText rest).segments ≠ [] := by
  obtain ⟨cs, spelled⟩ := FileTree.exists_of_absolute absolute
  rw [FileTree.find, toList_under spelled relative, List.drop_one, List.tail_cons] at found
  obtain ⟨holds, -, last⟩ :=
    FileTree.holds_of_walk .root (fun s inside => not_mem_of_mem_splitOn inside) found
  obtain ⟨segment, above, rfl⟩ := List.exists_cons_of_ne_nil holds.ne_nil
  obtain ⟨front, final, parts⟩ :=
    (List.eq_nil_or_concat (splitOn '/' rest.toList)).resolve_left (splitOn_ne_nil _ _)
  rw [List.concat_eq_append] at parts
  rw [Path.splitOn_append_mark, parts, ← List.append_assoc, List.getLast?_concat, List.head?_cons,
    Option.some.injEq] at last
  have counted := (holds.proper segment List.mem_cons_self).1.1
  exact List.ne_nil_of_mem (List.mem_filter.mpr ⟨parts ▸ List.mem_append_right _ List.mem_cons_self,
    last ▸ counted⟩)

/-- The places of a package are all absolute and walked onward. -/
structure Lies (l : Layout) (packagePath : String) : Prop where
  absolute : (ofText packagePath).absolute = true
  normal : Path.normalize packagePath = packagePath
  relative : (ofText l.sourceRoot).absolute = false
  forward : Path.up ∉ (ofText l.sourceRoot).segments

namespace Lies

theorem resolve (lies : l.Lies packagePath) : (ofText packagePath).resolve = ofText packagePath := by
  rw [← Path.ofText_normalize, lies.normal]

theorem onward (lies : l.Lies packagePath) : Onward (ofText packagePath).segments :=
  congrArg Path.segments lies.resolve ▸ Path.onward_resolve lies.absolute

theorem ofText_root (lies : l.Lies packagePath) :
    ofText (FileTree.under packagePath l.sourceRoot) =
      ⟨true, (ofText packagePath).segments ++ (ofText l.sourceRoot).segments⟩ :=
  ofText_under lies.absolute lies.relative

theorem onward_root (lies : l.Lies packagePath) :
    Onward ((ofText packagePath).segments ++ (ofText l.sourceRoot).segments) :=
  Path.Onward.append_iff.mpr ⟨lies.onward, Path.onward_ofText lies.forward⟩

/-- Each readme of the sources stands at the end of a way from the package. -/
theorem stands (lies : l.Lies packagePath) (standing : t.Standing) {file : String}
    (readme : l.IsReadme t packagePath file) : ∃ front, l.Stands packagePath file front := by
  obtain ⟨named, ⟨text, found⟩, place⟩ := readme
  obtain ⟨path, holds, rfl⟩ := standing.holds found
  have here : (ofText (FileTree.under packagePath l.sourceRoot)).resolve.segments =
      (ofText (FileTree.under packagePath l.sourceRoot)).segments :=
    FileTree.resolve_of_forward (by rw [lies.ofText_root]; exact lies.onward_root.forward)
  have absolute : (ofText (FileTree.under packagePath l.sourceRoot)).absolute = true := by
    rw [lies.ofText_root]
  have way : ∃ steps, steps ≠ [] ∧ path.reverse = (ofText packagePath).segments ++ steps := by
    rcases place with below | ⟨segments, text', place, same⟩
    · obtain ⟨steps, some, whole⟩ := (FileTree.below_keyOf_iff absolute holds.onward).mp below
      rw [here, lies.ofText_root, List.append_assoc] at whole
      exact ⟨_, List.append_ne_nil_of_right_ne_nil _ some, whole⟩
    · refine ⟨_, segments_ne_nil_of_onFile lies.absolute lies.relative place, ?_⟩
      obtain ⟨cs, spelled⟩ := FileTree.exists_of_absolute absolute
      obtain ⟨-, normal, -⟩ := FileTree.holds_of_find spelled place
      have parsed := congrArg ofText (same.trans normal.symm)
      rw [FileTree.ofText_keyOf holds.onward, Path.ofText_normalize] at parsed
      exact (congrArg Path.segments parsed).trans (here.trans (congrArg Path.segments lies.ofText_root))
  obtain ⟨steps, onward, whole⟩ := way
  obtain ⟨front, name, parts⟩ := (List.eq_nil_or_concat steps).resolve_left onward
  rw [parts, List.concat_eq_append] at whole
  have isName : name = l.readmeName.toList := by
    have last : (ofText (FileTree.keyOf path)).segments.getLast? = some name := by
      rw [FileTree.ofText_keyOf holds.onward, whole, ← List.append_assoc, List.getLast?_concat]
    have forward : name ≠ Path.up := (holds.proper name (List.mem_reverse.mp (by simp [whole]))).2
    simpa [isNamed, Path.fileName?, last, forward] using named
  subst isName
  exact ⟨front, by rw [← whole]; rfl, whole ▸ holds.onward⟩

theorem ofText_relative (lies : l.Lies packagePath) {steps : List (List Char)}
    (onward : Onward ((ofText packagePath).segments ++ steps)) :
    ofText (Path.relative packagePath (Path.text ⟨true, (ofText packagePath).segments ++ steps⟩)) =
      ⟨false, steps⟩ := by
  rw [Path.ofText_relative, onward.ofText_text true, onward.resolve, lies.resolve,
    Path.stepsBetween_append]

end Lies

namespace Stands

variable {file : String} {front : List (List Char)}

theorem onward_front (stands : l.Stands packagePath file front) :
    Onward ((ofText packagePath).segments ++ front) ∧ Onward (front ++ [l.readmeName.toList]) := by
  have ⟨above, steps⟩ := Path.Onward.append_iff.mp stands.onward
  exact ⟨Path.Onward.append_iff.mpr ⟨above, (Path.Onward.append_iff.mp steps).1⟩, steps⟩

theorem dirname (stands : l.Stands packagePath file front) :
    Path.dirname file = Path.text ⟨true, (ofText packagePath).segments ++ front⟩ := by
  have proper := stands.onward.proper
  rw [← List.append_assoc] at proper
  rw [stands.whole, ← List.append_assoc, Path.dirname_text true proper]

theorem documented_eq (stands : l.Stands packagePath file front) (lies : l.Lies packagePath) :
    documented packagePath outDir file =
      Path.text ⟨(ofText outDir).absolute, (ofText outDir).resolve.segments ++ front⟩ := by
  have onward := stands.onward_front.1
  rw [documented, stands.dirname]
  exact Path.join_onward (Path.Onward.append_iff.mp onward).2 (lies.ofText_relative onward)

/-- The key of a readme is the output directory of its directory. -/
theorem key (stands : l.Stands packagePath file front) (lies : l.Lies packagePath) :
    Path.dirname (Path.join outDir (Path.relative packagePath file)) =
      documented packagePath outDir file := by
  have steps := stands.onward_front.2
  have proper : ∀ s ∈ (ofText outDir).resolve.segments ++ front ++ [l.readmeName.toList],
      Path.Proper s := by
    rw [List.append_assoc]
    exact List.forall_mem_append.mpr
      ⟨Path.proper_resolve fun _ => Path.proper_ofChars, steps.proper⟩
  rw [stands.documented_eq lies, stands.whole,
    Path.join_onward steps (lies.ofText_relative stands.onward), ← List.append_assoc,
    Path.dirname_text _ proper]

end Stands

/-! ### What is stored -/

section

variable {sourceRoot : String} {p : Package} {entries : List (String × String)}

end

end

/-! ### A package with a readme of its own -/

/-- A package whose sources have a readme in a directory, and none in the source root. -/
def shelves : FileTree :=
  ⟨.ofList [("/pkg", .directory), ("/pkg/src", .directory), ("/pkg/src/a", .directory),
    ("/pkg/src/a/README.md", .file (some "A")), ("/pkg/README.md", .file (some "All"))]⟩

/-- The output directory is outside of the package. -/
def outside : Package := .empty "shelves" "./x/../../out/"

end Layout

end ApiDocs
