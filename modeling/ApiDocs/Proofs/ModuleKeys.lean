import ApiDocs.Proofs.Paths

set_option autoImplicit false

/-!
Module keys. The key of a source file below a package is the way from the package to the file, put
behind the output directory, with the ending of a source file replaced. So the key does not depend on
how the three paths are spelled, and two files share one only if their normal paths are equal or
differ in such an ending.
-/

namespace ApiDocs.Path

open Text

/-! ### Endings of source files -/

/-- Two texts that are equal, or that both have the ending of a source file and are equal without
it. -/
def SameStem (first second : List Char) : Prop :=
  first = second ∨ ∃ stem, ∃ a ∈ sourceExtensions, ∃ b ∈ sourceExtensions,
    first = stem ++ a ∧ second = stem ++ b

theorem mem_sourceExtensions {ending : List Char} : ending ∈ sourceExtensions ↔
    ending = ".js".toList ∨ ending = ".jsx".toList ∨ ending = ".ts".toList ∨
      ending = ".tsx".toList := by
  simp [sourceExtensions]

theorem compiled_append {ending : List Char} (source : ending ∈ sourceExtensions)
    (stem : List Char) : compiled (stem ++ ending) = stem ++ outputExtension := by
  have found : sourceExtensions.find? (endsWith · (stem ++ ending)) = some ending := by
    rcases mem_sourceExtensions.mp source with rfl | rfl | rfl | rfl <;>
      simp [sourceExtensions, endsWith, List.isSuffixOf, List.isPrefixOf]
  simp [compiled, found]

theorem compiled_cases (cs : List Char) :
    (∃ stem, ∃ ending ∈ sourceExtensions, cs = stem ++ ending ∧
      compiled cs = stem ++ outputExtension) ∨
    (∀ ending ∈ sourceExtensions, ¬ ending <:+ cs) ∧ compiled cs = cs := by
  cases found : sourceExtensions.find? (endsWith · cs) with
  | none =>
      refine .inr ⟨fun ending source ends => ?_, by simp [compiled, found]⟩
      have never := List.find?_eq_none.mp found ending source
      exact never (List.isSuffixOf_iff_suffix.mpr ends)
  | some ending =>
      have source := List.mem_of_find?_eq_some found
      have ends := List.find?_some found
      obtain ⟨stem, rfl⟩ := List.isSuffixOf_iff_suffix.mp ends
      exact .inl ⟨stem, ending, source, rfl, compiled_append source stem⟩

/-- Compiled texts are equal if and only if the texts differ in the ending at most. -/
theorem compiled_eq_iff (first second : List Char) :
    compiled first = compiled second ↔ SameStem first second := by
  have output : outputExtension ∈ sourceExtensions := List.mem_cons_self
  constructor
  · intro same
    rcases compiled_cases first with ⟨stem, a, isA, whole, key⟩ | ⟨plain, key⟩ <;>
      rcases compiled_cases second with ⟨stem', b, isB, whole', key'⟩ | ⟨plain', key'⟩ <;>
      rw [key, key'] at same
    · rw [List.append_cancel_right same] at whole
      exact .inr ⟨stem', a, isA, b, isB, whole, whole'⟩
    · exact absurd ⟨stem, same⟩ (plain' _ output)
    · exact absurd ⟨stem', same.symm⟩ (plain _ output)
    · exact .inl same
  · rintro (rfl | ⟨stem, a, isA, b, isB, rfl, rfl⟩)
    · rfl
    · rw [compiled_append isA, compiled_append isB]

/-- A text in front that is empty or ends in a slash is no part of an ending. -/
theorem sameStem_append_left {front : List Char} (ends : front = [] ∨ front.getLast? = some '/')
    (first second : List Char) :
    SameStem (front ++ first) (front ++ second) ↔ SameStem first second := by
  have cut : ∀ {ending stem cs : List Char}, ending ∈ sourceExtensions →
      front ++ cs = stem ++ ending → ∃ rest, stem = front ++ rest ∧ cs = rest ++ ending := by
    intro ending stem cs source same
    have clean : '/' ∉ ending := by
      rcases mem_sourceExtensions.mp source with rfl | rfl | rfl | rfl <;> decide
    rcases List.append_eq_append_iff.mp same with ⟨rest, stem_eq, cs_eq⟩ | ⟨extra, front_eq, whole⟩
    · exact ⟨rest, stem_eq, cs_eq⟩
    · rcases List.eq_nil_or_concat extra with none | ⟨before, last, isLast⟩
      · subst none
        exact ⟨[], by simpa using front_eq.symm, whole.symm⟩
      · have slash : last = '/' := by
          rcases ends with none | isSlash
          · simp [none, isLast] at front_eq
          · simpa [front_eq, isLast] using isSlash
        exact absurd (by simp [whole, isLast, slash]) clean
  constructor
  · rintro (same | ⟨stem, a, isA, b, isB, whole, whole'⟩)
    · exact .inl (List.append_cancel_left same)
    · obtain ⟨rest, isStem, isFirst⟩ := cut isA whole
      obtain ⟨rest', isStem', isSecond⟩ := cut isB whole'
      rw [isStem] at isStem'
      rw [← List.append_cancel_left isStem'] at isSecond
      exact .inr ⟨rest, a, isA, b, isB, isFirst, isSecond⟩
  · rintro (rfl | ⟨stem, a, isA, b, isB, rfl, rfl⟩)
    · exact .inl rfl
    · exact .inr ⟨front ++ stem, a, isA, b, isB, by simp, by simp⟩

/-! ### Ways below a directory -/

/-- The text that stands before the segments that follow a path. -/
def lead (p : Path) : List Char :=
  (if p.absolute then ['/'] else []) ++ p.segments.flatMap (· ++ ['/'])

theorem lead_ends (p : Path) : p.lead = [] ∨ p.lead.getLast? = some '/' := by
  unfold lead
  rcases List.eq_nil_or_concat p.segments with none | ⟨before, last, isLast⟩
  · cases absolute : p.absolute <;> simp [none]
  · right
    simp [isLast]

theorem joinWith_append {sep : List Char} (front : List (List Char)) {rest : List (List Char)}
    (some : rest ≠ []) :
    joinWith sep (front ++ rest) = front.flatMap (· ++ sep) ++ joinWith sep rest := by
  induction front with
  | nil => rfl
  | cons part more ih =>
      obtain ⟨next, others, same⟩ := List.exists_cons_of_ne_nil
        (List.append_ne_nil_of_right_ne_nil more some)
      rw [List.cons_append, same, joinWith, ← same, ih, List.flatMap_cons]
      · simp
      · simp

theorem chars_append (p : Path) {rest : List (List Char)} (some : rest ≠ [])
    (proper : ∀ s ∈ rest, Proper s) :
    (Path.mk p.absolute (p.segments ++ rest)).chars = p.lead ++ joinWith ['/'] rest := by
  obtain ⟨c, more, joined, -⟩ := joinWith_ne_nil some proper
  unfold chars lead
  rw [joinWith_append _ some, joined]
  cases absolute : p.absolute <;> simp

theorem commonFront_append (front rest : List (List Char)) :
    commonFront front (front ++ rest) = front.length := by
  induction front with
  | nil => cases rest <;> rfl
  | cons part more ih => simp [commonFront, ih]

theorem stepsBetween_append (front rest : List (List Char)) :
    stepsBetween front (front ++ rest) = rest := by
  simp [stepsBetween, commonFront_append]

/-- A path from the root that is walked holds no `..`. -/
theorem Walked.forward {walked : List (List Char)} (before : Walked true walked) : up ∉ walked := by
  induction before with
  | start => simp
  | @on segment walked _ stays ih =>
      have onward : segment ≠ up := by
        rintro rfl
        have shorter : (Path.walk true walked up).length ≤ walked.length := by
          cases walked with
          | nil => simp [Path.walk]
          | cons last rest =>
              by_cases back : last = up <;> simp [Path.walk, back]
        rw [stays, List.length_cons] at shorter
        omega
      simp [ih, Ne.symm onward]

theorem foldl_walk_forward (absolute : Bool) (walked : List (List Char)) {steps : List (List Char)}
    (forward : up ∉ steps) : steps.foldl (walk absolute) walked = steps.reverse ++ walked := by
  induction steps generalizing walked with
  | nil => rfl
  | cons step rest ih =>
      simp only [List.mem_cons, not_or] at forward
      have onward : walk absolute walked step = step :: walked := by
        simp [walk, Ne.symm forward.1]
      rw [List.foldl_cons, onward, ih _ forward.2]
      simp

/-- The path lies strictly below the directory: both start at the root, and once they are resolved the
segments of the directory are followed by others. -/
def Below (directory path : Path) : Prop :=
  directory.absolute ∧ path.absolute ∧
    ∃ steps, steps ≠ [] ∧ path.resolve.segments = directory.resolve.segments ++ steps

instance (directory path : Path) : Decidable (Below directory path) :=
  decidable_of_iff (directory.absolute ∧ path.absolute ∧
      directory.resolve.segments <+: path.resolve.segments ∧
      directory.resolve.segments ≠ path.resolve.segments) (by
    refine and_congr_right fun _ => and_congr_right fun _ => ⟨?_, ?_⟩
    · rintro ⟨⟨steps, whole⟩, differs⟩
      refine ⟨steps, fun none => differs ?_, whole.symm⟩
      simpa [none] using whole
    · rintro ⟨steps, some, whole⟩
      refine ⟨⟨steps, whole.symm⟩, fun same => some ?_⟩
      simpa [← same] using whole)

/-- The key of a file below a package: behind the lead of the output directory stands what stands
behind the lead of the package in the normal path. -/
theorem outputPath_below {packagePath source : String}
    (below : Below (ofText packagePath) (ofText source)) (outDir : String) :
    ∃ way, (normalize source).toList = (ofText packagePath).resolve.lead ++ way ∧
      (outputPath packagePath outDir source).toList =
        compiled ((ofText outDir).resolve.lead ++ way) := by
  obtain ⟨rooted, absolute, steps, some, whole⟩ := below
  have walked : Walked true (((ofText source).segments.foldl (walk true)) []) :=
    Walked.start.foldl _
  have segments : (ofText source).resolve.segments =
      ((ofText source).segments.foldl (walk true) []).reverse := by
    rw [resolve, absolute]
  have forward : up ∉ steps := by
    intro inside
    apply walked.forward
    rw [← List.mem_reverse, ← segments, whole]
    exact List.mem_append_right _ inside
  have proper : ∀ s ∈ steps, Proper s := fun s inside =>
    proper_resolve (p := ofText source) (fun s => proper_ofChars) s
      (whole ▸ List.mem_append_right _ inside)
  refine ⟨joinWith ['/'] steps, ?_, ?_⟩
  · rw [normalize, text, String.toList_ofList, ← chars_append _ some proper, ← whole]
    have here : (ofText packagePath).resolve.absolute = (ofText source).resolve.absolute := by
      simp [resolve, rooted, absolute]
    rw [here]
  · have relative_eq : ofText (relative packagePath source) = ⟨false, steps⟩ := by
      obtain ⟨c, more, joined, -⟩ := joinWith_ne_nil some proper
      rw [← ofChars_chars false proper, ofText, relative, whole, stepsBetween_append,
        String.toList_ofList]
      simp [chars, joined]
    have onward : (append (ofText outDir) ⟨false, steps⟩).resolve =
        ⟨(ofText outDir).resolve.absolute, (ofText outDir).resolve.segments ++ steps⟩ := by
      simp [append, resolve, foldl_walk_forward _ _ forward]
    rw [outputPath, String.toList_ofList, join, relative_eq, onward, text, String.toList_ofList,
      chars_append _ some proper]

/-! ### Spelling -/

theorem relative_normalize_left (base path : String) :
    relative (normalize base) path = relative base path := by
  simp only [relative, ofText_normalize, resolve_resolve]

theorem relative_normalize_right (base path : String) :
    relative base (normalize path) = relative base path := by
  simp only [relative, ofText_normalize, resolve_resolve]

theorem join_normalize_left (base rest : String) : join (normalize base) rest = join base rest := by
  have outset : Walked (ofText base).absolute [] := .start
  unfold join append
  rw [ofText_normalize]
  split
  · rfl
  · simp only [resolve, List.foldl_append, (outset.foldl (ofText base).segments).again]

/-- Files below a package have the same key if and only if their normal paths are equal or differ in
the ending of a source file, and the key is the same however the package, the output directory and
the file are spelled. -/
theorem outputPath_eq_iff_and_spelling (packagePath outDir source : String) :
    (Below (ofText packagePath) (ofText source) →
      ∀ other, Below (ofText packagePath) (ofText other) →
        (outputPath packagePath outDir source = outputPath packagePath outDir other ↔
          SameStem (normalize source).toList (normalize other).toList)) ∧
    outputPath (normalize packagePath) outDir source = outputPath packagePath outDir source ∧
    outputPath packagePath (normalize outDir) source = outputPath packagePath outDir source ∧
    outputPath packagePath outDir (normalize source) = outputPath packagePath outDir source := by
  refine ⟨fun below other below' => ?_, ?_, ?_, ?_⟩
  · obtain ⟨way, isPath, isKey⟩ := outputPath_below below outDir
    obtain ⟨way', isPath', isKey'⟩ := outputPath_below below' outDir
    rw [← String.toList_inj, isKey, isKey', isPath, isPath', compiled_eq_iff,
      sameStem_append_left (lead_ends _), sameStem_append_left (lead_ends _)]
  · rw [outputPath, relative_normalize_left, outputPath]
  · rw [outputPath, join_normalize_left, outputPath]
  · rw [outputPath, relative_normalize_right, outputPath]

/-- Two spellings of a source file and its compiled form have one key. -/
theorem button_shares_key :
    Below (ofText "/pkg/.") (ofText "/pkg/src/../button.tsx") ∧
    Below (ofText "/pkg/.") (ofText "/pkg//button.js") ∧
    outputPath "/pkg/." "../lib/" "/pkg/src/../button.tsx" =
      outputPath "/pkg/." "../lib/" "/pkg//button.js" := by
  have below : Below (ofText "/pkg/.") (ofText "/pkg/src/../button.tsx") := by decide
  have below' : Below (ofText "/pkg/.") (ofText "/pkg//button.js") := by decide
  refine ⟨below, below', ((outputPath_eq_iff_and_spelling _ _ _).1 below _ below').mpr ?_⟩
  exact .inr ⟨"/pkg/button".toList, ".tsx".toList, by decide, ".js".toList, by decide, by decide,
    by decide⟩

end ApiDocs.Path
