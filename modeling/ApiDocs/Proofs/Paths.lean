import ApiDocs.FileTree

set_option autoImplicit false

/-!
Normal paths. Resolving a path once leaves nothing to resolve, and a file that a path leads to in a
tree stands there under the normal path, with the same text and in the same dialect. So a file that is
found on a roundabout way is the file at its normal path.
-/

namespace ApiDocs

open Text

/-! ### Splitting at a mark -/

theorem not_mem_of_mem_splitOn {mark : Char} {cs part : List Char} (inside : part ∈ splitOn mark cs) :
    mark ∉ part := by
  induction cs generalizing part with
  | nil =>
      rw [splitOn, List.mem_singleton] at inside
      simp [inside]
  | cons c rest ih =>
      rw [splitOn] at inside
      split at inside
      · rcases List.mem_cons.mp inside with rfl | later
        · simp
        · exact ih later
      · rename_i differs
        split at inside
        · rw [List.mem_singleton] at inside
          simpa [inside] using Ne.symm differs
        · rename_i first parts split
          rcases List.mem_cons.mp inside with rfl | later
          · have clean := ih (split ▸ List.mem_cons_self)
            simp [clean, Ne.symm differs]
          · exact ih (split ▸ List.mem_cons_of_mem _ later)

theorem splitOn_clean {mark : Char} {part : List Char} (clean : mark ∉ part) :
    splitOn mark part = [part] := by
  induction part with
  | nil => rfl
  | cons c rest ih =>
      simp only [List.mem_cons, not_or] at clean
      rw [splitOn, if_neg (Ne.symm clean.1), ih clean.2]

theorem splitOn_append {mark : Char} {part : List Char} (clean : mark ∉ part) (rest : List Char) :
    splitOn mark (part ++ mark :: rest) = part :: splitOn mark rest := by
  induction part with
  | nil => simp [splitOn]
  | cons c part ih =>
      simp only [List.mem_cons, not_or] at clean
      rw [List.cons_append, splitOn, if_neg (Ne.symm clean.1), ih clean.2]

/-- Splitting what was joined gives the parts back. -/
theorem splitOn_joinWith {mark : Char} {parts : List (List Char)} (some : parts ≠ [])
    (clean : ∀ part ∈ parts, mark ∉ part) : splitOn mark (joinWith [mark] parts) = parts := by
  induction parts with
  | nil => exact absurd rfl some
  | cons part rest ih =>
      have first := clean part List.mem_cons_self
      cases rest with
      | nil => exact splitOn_clean first
      | cons next more =>
          rw [joinWith, List.append_assoc, List.singleton_append, splitOn_append first,
            ih (by simp) fun part inside => clean part (List.mem_cons_of_mem _ inside)]
          simp

namespace Path

/-! ### Paths and their text -/

/-- A segment that counts and has no slash in it. -/
def Proper (segment : List Char) : Prop := counts segment ∧ '/' ∉ segment

theorem proper_ofChars {cs segment : List Char} (inside : segment ∈ (ofChars cs).segments) :
    Proper segment := by
  obtain ⟨listed, counted⟩ := List.mem_filter.mp inside
  exact ⟨counted, not_mem_of_mem_splitOn listed⟩

theorem joinWith_ne_nil {segments : List (List Char)} (some : segments ≠ [])
    (proper : ∀ s ∈ segments, Proper s) : ∃ c rest, joinWith ['/'] segments = c :: rest ∧ c ≠ '/' := by
  cases segments with
  | nil => exact absurd rfl some
  | cons first more =>
      obtain ⟨counted, clean⟩ := proper first List.mem_cons_self
      cases first with
      | nil => simp [counts] at counted
      | cons c cs =>
          have differs : c ≠ '/' := fun same => clean (by simp [same])
          cases more with
          | nil => exact ⟨c, cs, rfl, differs⟩
          | cons next rest => exact ⟨c, _, rfl, differs⟩

/-- A path is known by its text. -/
theorem ofChars_chars (absolute : Bool) {segments : List (List Char)}
    (proper : ∀ s ∈ segments, Proper s) :
    ofChars (Path.mk absolute segments).chars = ⟨absolute, segments⟩ := by
  have whole : segments.filter counts = segments :=
    List.filter_eq_self.mpr fun s inside => (proper s inside).1
  have clean : ∀ s ∈ segments, '/' ∉ s := fun s inside => (proper s inside).2
  by_cases none : segments = []
  · subst none
    cases absolute <;> decide
  · have parts := splitOn_joinWith none clean
    obtain ⟨c, rest, joined, differs⟩ := joinWith_ne_nil none proper
    cases absolute with
    | true =>
        unfold ofChars chars
        simp only [↓reduceIte, splitOn, parts]
        simp [startsWith, counts, whole]
    | false =>
        have relative : startsWith ['/'] (c :: rest) = false := by
          simp [startsWith, List.isPrefixOf, Ne.symm differs]
        unfold ofChars chars
        simp only [Bool.false_eq_true, ↓reduceIte, joined, List.cons_ne_nil] at parts ⊢
        rw [relative, parts, whole]

/-! ### Normal paths -/

/-- Segments, the last first, that walking leads to: each stays where it is put. -/
inductive Walked (absolute : Bool) : List (List Char) → Prop where
  | start : Walked absolute []
  | on {segment : List Char} {walked : List (List Char)} (before : Walked absolute walked)
      (stays : walk absolute walked segment = segment :: walked) : Walked absolute (segment :: walked)

variable {absolute : Bool} {walked : List (List Char)}

theorem Walked.walk (before : Walked absolute walked) (segment : List Char) :
    Walked absolute (Path.walk absolute walked segment) := by
  by_cases back : segment = up
  · subst back
    cases before with
    | start =>
        cases absolute with
        | true => exact .start
        | false => exact .on .start rfl
    | @on last rest before stays =>
        by_cases last_up : last = up
        · cases absolute with
          | true => simpa [Path.walk, last_up] using Walked.on before stays
          | false =>
              have onward := Walked.on before stays
              simp only [Path.walk, ↓reduceIte, last_up, Bool.false_eq_true] at onward ⊢
              exact .on onward (by simp [Path.walk])
        · simpa [Path.walk, last_up] using before
  · have onward : Path.walk absolute walked segment = segment :: walked := by simp [Path.walk, back]
    rw [onward]
    exact .on before onward

theorem Walked.foldl (before : Walked absolute walked) (segments : List (List Char)) :
    Walked absolute (segments.foldl (Path.walk absolute) walked) := by
  induction segments generalizing walked with
  | nil => exact before
  | cons segment rest ih => exact ih (before.walk segment)

/-- Walking again leads to the same place. -/
theorem Walked.again (before : Walked absolute walked) :
    walked.reverse.foldl (Path.walk absolute) [] = walked := by
  induction before with
  | start => rfl
  | on _ stays ih => rw [List.reverse_cons, List.foldl_append, ih, List.foldl_cons, stays, List.foldl_nil]

theorem mem_walk {segment s : List Char} (inside : s ∈ walk absolute walked segment) :
    s ∈ walked ∨ s = segment := by
  unfold walk at inside
  grind

theorem mem_foldl_walk {segments : List (List Char)} {s : List Char}
    (inside : s ∈ segments.foldl (walk absolute) walked) : s ∈ walked ∨ s ∈ segments := by
  induction segments generalizing walked with
  | nil => exact .inl inside
  | cons segment rest ih =>
      rcases ih inside with before | later
      · rcases mem_walk before with old | rfl
        · exact .inl old
        · exact .inr List.mem_cons_self
      · exact .inr (List.mem_cons_of_mem _ later)

theorem proper_resolve {p : Path} (proper : ∀ s ∈ p.segments, Proper s) :
    ∀ s ∈ p.resolve.segments, Proper s := by
  intro s inside
  rcases mem_foldl_walk (List.mem_reverse.mp inside) with none | listed
  · cases none
  · exact proper s listed

theorem resolve_resolve (p : Path) : p.resolve.resolve = p.resolve := by
  have outset : Walked p.absolute [] := .start
  unfold resolve
  simp only [(outset.foldl p.segments).again]

theorem ofText_normalize (path : String) : ofText (normalize path) = (ofText path).resolve := by
  unfold normalize ofText text
  rw [String.toList_ofList]
  exact ofChars_chars _ (proper_resolve fun s => proper_ofChars)

/-- A normal path stays as it is. -/
@[simp] theorem normalize_normalize (path : String) : normalize (normalize path) = normalize path := by
  have again : normalize (normalize path) = (ofText (normalize path)).resolve.text := rfl
  rw [again, ofText_normalize, resolve_resolve]
  rfl

end Path

namespace FileTree

/-! ### Walking to a file -/

/-- Segments, the last first, that lead from the root through directories only. -/
inductive Through (t : FileTree) : List (List Char) → Prop where
  | root : Through t []
  | into {segment : List Char} {path : List (List Char)} (above : Through t path)
      (proper : Path.Proper segment) (forward : segment ≠ Path.up)
      (found : t.entries.get? (keyOf (segment :: path)) = some .directory) :
      Through t (segment :: path)

/-- A file with this text stands at the end of the segments, the last first. -/
inductive Holds (t : FileTree) (text : Option String) : List (List Char) → Prop where
  | file {segment : List Char} {path : List (List Char)} (above : Through t path)
      (proper : Path.Proper segment) (forward : segment ≠ Path.up)
      (found : t.entries.get? (keyOf (segment :: path)) = some (.file text)) :
      Holds t text (segment :: path)

variable {t : FileTree} {path : List (List Char)} {text : Option String}

theorem Through.proper (through : t.Through path) : ∀ s ∈ path, Path.Proper s ∧ s ≠ Path.up := by
  induction through with
  | root => nofun
  | into _ proper forward _ ih =>
      intro s inside
      rcases List.mem_cons.mp inside with rfl | above
      · exact ⟨proper, forward⟩
      · exact ih s above

theorem Holds.proper (holds : t.Holds text path) : ∀ s ∈ path, Path.Proper s ∧ s ≠ Path.up := by
  cases holds with
  | file above proper forward _ =>
      intro s inside
      rcases List.mem_cons.mp inside with rfl | upper
      · exact ⟨proper, forward⟩
      · exact above.proper s upper

theorem Through.tail (through : t.Through path) : t.Through path.tail := by
  cases through with
  | root => exact .root
  | into above _ _ _ => exact above

/-- Going back from a place is the same in a tree as in a path. -/
theorem Through.walk_up (through : t.Through path) : Path.walk true path Path.up = path.tail := by
  cases through with
  | root => rfl
  | into _ _ forward _ => simp [Path.walk, forward]

theorem Through.walk (through : t.Through path) : path.reverse.foldl t.walk (.inside []) = .inside path := by
  induction through with
  | root => rfl
  | into _ proper forward found ih =>
      rw [List.reverse_cons, List.foldl_append, ih, List.foldl_cons, List.foldl_nil, FileTree.walk]
      simp [proper.1, forward, found]

theorem Holds.walk (holds : t.Holds text path) :
    path.reverse.foldl t.walk (.inside []) = .onFile path text := by
  cases holds with
  | file above proper forward found =>
      rw [List.reverse_cons, List.foldl_append, above.walk, List.foldl_cons, List.foldl_nil,
        FileTree.walk]
      simp [proper.1, forward, found]

theorem not_onFile_of_stuck {place : Place} (stuck : place = .missing ∨ place = .blocked)
    (segments : List (List Char)) : segments.foldl t.walk place ≠ .onFile path text := by
  induction segments with
  | nil => rcases stuck with rfl | rfl <;> nofun
  | cons segment rest ih => rcases stuck with rfl | rfl <;> exact ih

/-- A walk that ends on a file has gone through directories, to where the segments alone lead; its
last segment is the name of the file. -/
theorem holds_of_walk {start : List (List Char)} (through : t.Through start)
    {segments : List (List Char)} (clean : ∀ s ∈ segments, '/' ∉ s)
    (found : segments.foldl t.walk (.inside start) = .onFile path text) :
    t.Holds text path ∧ path = (segments.filter Path.counts).foldl (Path.walk true) start ∧
      segments.getLast? = path.head? := by
  induction segments generalizing start with
  | nil => cases found
  | cons segment rest ih =>
      have later := fun s inside => clean s (List.mem_cons_of_mem _ inside)
      have more : ∀ {place}, rest.foldl t.walk (.inside place) = .onFile path text →
          (segment :: rest).getLast? = rest.getLast? := by
        intro place found
        cases rest with
        | nil => cases found
        | cons next rest => exact List.getLast?_cons_cons
      rw [List.foldl_cons, FileTree.walk] at found
      split at found
      · rename_i idle
        obtain ⟨holds, same, last⟩ := ih through later found
        refine ⟨holds, ?_, (more found).trans last⟩
        rw [same, List.filter_cons_of_neg (by simpa using idle)]
      · rename_i counted
        have proper : Path.Proper segment := ⟨by simpa using counted, clean segment List.mem_cons_self⟩
        rw [List.filter_cons_of_pos proper.1, List.foldl_cons]
        split at found
        · rename_i back
          obtain ⟨holds, same, last⟩ := ih through.tail later found
          refine ⟨holds, ?_, (more found).trans last⟩
          rw [back, through.walk_up, same]
        · rename_i forward
          have onward : Path.walk true start segment = segment :: start := by simp [Path.walk, forward]
          split at found
          · rename_i text' here
            cases rest with
            | nil =>
                cases found
                exact ⟨.file through proper forward here, by simp [onward], rfl⟩
            | cons next after => exact absurd found (not_onFile_of_stuck (.inr rfl) after)
          · rename_i here
            obtain ⟨holds, same, last⟩ := ih (.into through proper forward here) later found
            refine ⟨holds, ?_, (more found).trans last⟩
            rw [onward, same]
          · exact absurd found (not_onFile_of_stuck (.inl rfl) rest)

/-! ### Files at normal paths -/

theorem Holds.ne_nil (holds : t.Holds text path) : path ≠ [] := by
  cases holds
  simp

theorem Holds.stored (holds : t.Holds text path) : t.entries.get? (keyOf path) = some (.file text) := by
  cases holds with
  | file _ _ _ found => exact found

theorem Holds.find (holds : t.Holds text path) : t.find (keyOf path) = .onFile path text := by
  have clean : ∀ s ∈ path.reverse, '/' ∉ s :=
    fun s inside => (holds.proper s (List.mem_reverse.mp inside)).1.2
  have parts := splitOn_joinWith (by simpa using holds.ne_nil) clean
  have text : (keyOf path).toList.drop 1 = joinWith ['/'] path.reverse := by
    simp [keyOf, Path.text, Path.chars, String.toList_ofList]
  rw [FileTree.find, text, parts, holds.walk]

/-- What an absolute path leads to stands at the normal path, under the same name. -/
theorem holds_of_find {file : String} {cs : List Char} (absolute : file.toList = '/' :: cs)
    (found : t.find file = .onFile path text) :
    t.Holds text path ∧ Path.normalize file = keyOf path ∧
      (Path.ofText file).segments.getLast? = path.head? := by
  rw [FileTree.find, absolute, List.drop_one, List.tail_cons] at found
  obtain ⟨holds, same, last⟩ :=
    holds_of_walk .root (fun s inside => not_mem_of_mem_splitOn inside) found
  have whole : Path.ofText file = ⟨true, (splitOn '/' cs).filter Path.counts⟩ := by
    rw [Path.ofText, absolute, Path.ofChars, splitOn, if_pos rfl, List.filter_cons_of_neg (by decide)]
    rfl
  refine ⟨holds, ?_, ?_⟩
  · rw [Path.normalize, whole, Path.resolve, ← same, keyOf]
  · obtain ⟨segment, rest, rfl⟩ := List.exists_cons_of_ne_nil holds.ne_nil
    have counted := (holds.proper segment List.mem_cons_self).1.1
    rw [whole]
    dsimp only
    rw [List.head?_cons] at last
    obtain ⟨front, split⟩ := List.getLast?_eq_some_iff.mp last
    rw [split, List.filter_append, List.filter_cons_of_pos counted, List.filter_nil]
    simp

/-- A source file is read from an absolute path that leads to a file whose text parses. -/
theorem source?_eq_some_iff {file : String} {source : Syntax.SourceText} :
    t.source? file = some source ↔ ∃ cs segments text, file.toList = '/' :: cs ∧
      t.find file = .onFile segments (some text) ∧
        Syntax.SourceText.parse file text = .ok source := by
  have rooted : file.startsWith "/" = true ↔ ∃ cs, file.toList = '/' :: cs := by
    rw [String.startsWith_string_iff]
    exact ⟨fun ⟨cs, same⟩ => ⟨cs, same.symm⟩, fun ⟨cs, same⟩ => ⟨cs, same.symm⟩⟩
  unfold source? isFile readSource Syntax.SourceText.read
  cases place : t.find file with
  | onFile segments text =>
      cases text with
      | none => simp [Except.toOption]
      | some text =>
          by_cases absolute : file.startsWith "/" = true
          · obtain ⟨cs, same⟩ := rooted.mp absolute
            simp only [absolute, ↓reduceIte, same, List.cons.injEq, true_and, Place.onFile.injEq,
              Option.some.injEq]
            cases parsed : Syntax.SourceText.parse file text with
            | error e =>
                simp only [Except.toOption, reduceCtorEq, false_iff]
                rintro ⟨_, _, _, _, ⟨_, rfl⟩, other⟩
                simp [parsed] at other
            | ok read =>
                simp only [Except.toOption, Option.some.injEq]
                refine ⟨fun equal => ⟨cs, segments, text, rfl, ⟨rfl, rfl⟩, equal ▸ parsed⟩, ?_⟩
                rintro ⟨_, _, _, _, ⟨_, rfl⟩, other⟩
                simpa [parsed] using other
          · have relative : ∀ cs, file.toList ≠ '/' :: cs :=
              fun cs same => absolute (rooted.mpr ⟨cs, same⟩)
            simp [absolute, relative, Except.toOption]
  | _ => simp

theorem dialect_eq {file other : String}
    (same : (Path.ofText file).segments.getLast? = (Path.ofText other).segments.getLast?) :
    Syntax.Dialect.ofPath file = Syntax.Dialect.ofPath other := by
  have named : (Path.ofText file).fileName? = (Path.ofText other).fileName? := by
    rw [Path.fileName?, Path.fileName?, same]
  unfold Syntax.Dialect.ofPath Path.extension?
  rw [named]

/-- A source file that is read by any path can be read by the normal one, with the same items. -/
theorem source?_normalize {file : String} {source : Syntax.SourceText}
    (found : t.source? file = some source) :
    source.path = file ∧ Path.normalize file ∈ t.entries.keys ∧
      ∃ normal, t.source? (Path.normalize file) = some normal ∧ normal.items = source.items := by
  obtain ⟨cs, segments, text, absolute, place, parsed⟩ := source?_eq_some_iff.mp found
  obtain ⟨holds, same, name⟩ := holds_of_find absolute place
  have rooted : (Path.normalize file).toList = '/' :: joinWith ['/'] segments.reverse := by
    rw [same, keyOf, Path.text, String.toList_ofList]
    rfl
  have here : t.find (Path.normalize file) = .onFile segments (some text) := by
    rw [same, holds.find]
  have dialect : Syntax.Dialect.ofPath (Path.normalize file) = Syntax.Dialect.ofPath file := by
    refine dialect_eq ?_
    rw [(holds_of_find rooted here).2.2, name]
  unfold Syntax.SourceText.parse at parsed
  cases items : Syntax.Parser.parseItems (.ofPath file) (.ofArray text.toList.toArray) with
  | error e => simp [items] at parsed
  | ok list =>
      simp only [items, Except.ok.injEq] at parsed
      subst parsed
      refine ⟨rfl, ?_, ⟨Path.normalize file, text.toList.toArray, list⟩, ?_, rfl⟩
      · rw [same]
        exact OrdMap.mem_keys_of_mem ((OrdMap.get?_eq_some_iff _ _ _).mp holds.stored)
      · refine source?_eq_some_iff.mpr ⟨_, segments, text, rooted, here, ?_⟩
        rw [← dialect] at items
        unfold Syntax.SourceText.parse
        simp only [items]

end FileTree

end ApiDocs
