import ApiDocs.DocComment
import ApiDocs.Proofs.Paths
import Mathlib.Data.List.TakeWhile

set_option autoImplicit false

/-!
The lines of a doc comment. Every line of the cleaned text that starts with `@`, blanks aside, opens a
tag, and the lines up to the next one belong to it. The description ends at the first line that starts
with `@` and has no blanks before it. So the two agree on where the tags begin unless the first tag
line is indented, and then that line is part of the description as well.
-/

namespace ApiDocs

open Text

/-! ### Trimmed texts -/

namespace Text

theorem dropWhile_isBlank_eq_self_iff {cs : List Char} :
    cs.dropWhile isBlank = cs ↔ ∀ c ∈ cs.head?, isBlank c = false := by
  cases cs with
  | nil => simp
  | cons c rest =>
      have shorter := (List.dropWhile_sublist (l := rest) isBlank).length_le
      cases blank : isBlank c with
      | true =>
          rw [List.dropWhile_cons_of_pos blank]
          refine ⟨fun same => ?_, fun starts => ?_⟩
          · rw [same, List.length_cons] at shorter
            omega
          · simpa [blank] using starts c rfl
      | false =>
          rw [List.dropWhile_cons_of_neg (by simp [blank])]
          simp [blank]

/-- Trimmed are the texts that neither start nor end with a blank. -/
theorem trim_eq_self_iff {cs : List Char} :
    trim cs = cs ↔
      (∀ c ∈ cs.head?, isBlank c = false) ∧ ∀ c ∈ cs.getLast?, isBlank c = false := by
  have atEnd : trimEnd cs = cs ↔ ∀ c ∈ cs.getLast?, isBlank c = false := by
    rw [trimEnd, List.reverse_eq_iff, dropWhile_isBlank_eq_self_iff, List.head?_reverse]
  rw [← atEnd, ← dropWhile_isBlank_eq_self_iff]
  constructor
  · intro same
    have inner : (trimStart cs).length ≤ cs.length := (List.dropWhile_sublist _).length_le
    have outer : (trim cs).length ≤ (trimStart cs).length := by
      rw [trim, trimEnd, List.length_reverse]
      exact (List.dropWhile_sublist _).length_le.trans_eq List.length_reverse
    have whole : trimStart cs = cs := by
      rw [same] at outer
      exact (List.dropWhile_sublist _).eq_of_length (Nat.le_antisymm inner outer)
    rw [trim, whole] at same
    exact ⟨whole, same⟩
  · rintro ⟨front, back⟩
    rw [trim, trimStart, front, back]

/-- Trimming takes away blanks only. -/
theorem filter_trim (cs : List Char) :
    (trim cs).filter (!isBlank ·) = cs.filter (!isBlank ·) := by
  have front : ∀ cs : List Char, (cs.dropWhile isBlank).filter (!isBlank ·) = cs.filter (!isBlank ·) := by
    intro cs
    induction cs with
    | nil => rfl
    | cons c rest ih =>
        by_cases blank : isBlank c = true
        · rw [List.dropWhile_cons_of_pos blank, ih, List.filter_cons_of_neg (by simp [blank])]
        · rw [List.dropWhile_cons_of_neg blank]
  rw [trim, trimEnd, List.filter_reverse, front, ← List.filter_reverse, List.reverse_reverse, trimStart,
    front]

end Text

namespace DocComment

/-! ### Tags -/

/-- A line that opens a tag. -/
def isTagLine (line : List Char) : Bool := startsWith ['@'] (trim line)

/-- The tag lines, each with the lines up to the next one. -/
def tagBlocks : List (List Char) → List (List Char × List (List Char))
  | [] => []
  | line :: rest =>
      if isTagLine line then (line, rest.takeWhile (!isTagLine ·)) :: tagBlocks rest
      else tagBlocks rest

/-- Adds a line to the text of a tag. -/
def addText (content line : List Char) : List Char :=
  if content = [] then trim line else content ++ '\n' :: trim line

/-- The tag that a tag line opens, with the lines that belong to it. -/
def tagAt (block : List Char × List (List Char)) : DocTag :=
  let after := (trim block.1).drop 1
  tagOf (after.takeWhile (!isBlank ·))
    (block.2.foldl addText (trim (after.dropWhile (!isBlank ·))))

/-- One tag is listed for each tag line, in their order. -/
theorem map_fst_tagBlocks (list : List (List Char)) :
    (tagBlocks list).map Prod.fst = list.filter isTagLine := by
  induction list with
  | nil => rfl
  | cons line rest ih =>
      rw [tagBlocks]
      split
      · rename_i opens
        rw [List.map_cons, ih, List.filter_cons_of_pos opens]
      · rename_i continues
        rw [ih, List.filter_cons_of_neg continues]

/-- What a reader has yet to close. -/
def TagReader.pending (r : TagReader) (list : List (List Char)) : List DocTag :=
  match r.current with
  | some (tag, content) => [tagOf tag ((list.takeWhile (!isTagLine ·)).foldl addText content)]
  | none => []

theorem TagReader.reverse_close (r : TagReader) : r.close.reverse = r.done.reverse ++ r.pending [] := by
  unfold TagReader.close TagReader.pending
  cases current : r.current with
  | none => simp
  | some open_ => simp

theorem TagReader.line_opens {r : TagReader} {line : List Char} (opens : isTagLine line = true) :
    r.line line = ⟨r.close, some (((trim line).drop 1).takeWhile (!isBlank ·),
      trim (((trim line).drop 1).dropWhile (!isBlank ·)))⟩ := by
  obtain ⟨after, same⟩ := List.isPrefixOf_iff_prefix.mp opens
  rw [TagReader.line, ← same]
  rfl

theorem TagReader.line_continues {r : TagReader} {line : List Char} (continues : ¬ isTagLine line) :
    r.line line = { r with current := r.current.map fun (tag, content) => (tag, addText content line) } := by
  have plain : ∀ after, trim line ≠ '@' :: after := by
    intro after same
    exact continues (by simp [isTagLine, same, startsWith])
  obtain ⟨done, _ | ⟨tag, content⟩⟩ := r <;> simp only [TagReader.line, addText, Option.map]

/-- What is read from lines: the tag that is open goes on up to the first tag line. -/
theorem TagReader.foldl_line (r : TagReader) (list : List (List Char)) :
    (list.foldl TagReader.line r).close.reverse =
      r.done.reverse ++ r.pending list ++ (tagBlocks list).map tagAt := by
  induction list generalizing r with
  | nil => simp [TagReader.reverse_close, tagBlocks]
  | cons line rest ih =>
      rw [List.foldl_cons, ih, tagBlocks]
      split
      · rename_i opens
        rw [TagReader.line_opens opens, TagReader.reverse_close]
        simp [TagReader.pending, opens, tagAt]
      · rename_i continues
        rw [TagReader.line_continues continues]
        obtain ⟨done, _ | ⟨tag, content⟩⟩ := r <;> simp [TagReader.pending, continues]

theorem tagsOf_eq (cleaned : List Char) : tagsOf cleaned = (tagBlocks (lines cleaned)).map tagAt := by
  rw [tagsOf, TagReader.foldl_line]
  simp [TagReader.pending]

/-! ### Description -/

/-- The text up to the first line of which `ends` is true. -/
def textBefore (ends : List Char → Bool) (cleaned : List Char) : List Char :=
  joinWith ['\n'] ((splitOn '\n' cleaned).takeWhile (!ends ·))

theorem startsWith_of_splitOn {cs first : List Char} {more : List (List Char)}
    (parts : splitOn '\n' cs = first :: more) : startsWith ['@'] cs = startsWith ['@'] first := by
  cases cs with
  | nil =>
      obtain ⟨rfl, -⟩ : [] = first ∧ [] = more := by simpa [splitOn] using parts
      rfl
  | cons c rest =>
      rw [splitOn] at parts
      split at parts
      · rename_i same
        obtain ⟨rfl, -⟩ : [] = first ∧ splitOn '\n' rest = more := by simpa using parts
        rw [same]
        rfl
      · split at parts
        · obtain ⟨rfl, -⟩ : [c] = first ∧ [] = more := by simpa using parts
          simp [startsWith, List.isPrefixOf]
        · rename_i part others _
          obtain ⟨rfl, -⟩ : c :: part = first ∧ others = more := by simpa using parts
          simp [startsWith, List.isPrefixOf]

/-- The text before the first `@` that follows a line feed is the first line with the lines behind it
that do not start with `@`. -/
theorem before_find? (cs : List Char) {first : List Char} {more : List (List Char)}
    (parts : splitOn '\n' cs = first :: more) :
    ((Text.find? ['\n', '@'] cs).elim cs cs.take) =
      joinWith ['\n'] (first :: more.takeWhile (!startsWith ['@'] ·)) := by
  induction cs generalizing first more with
  | nil =>
      obtain ⟨rfl, rfl⟩ : [] = first ∧ [] = more := by simpa [splitOn] using parts
      rfl
  | cons c rest ih =>
      obtain ⟨next, others, split⟩ := List.exists_cons_of_ne_nil (splitOn_ne_nil '\n' rest)
      have later := ih split
      have starts := startsWith_of_splitOn split
      have onward : (((Text.find? ['\n', '@'] rest).map (· + 1)).elim (c :: rest) (c :: rest).take) =
          c :: (Text.find? ['\n', '@'] rest).elim rest rest.take := by
        cases Text.find? ['\n', '@'] rest <;> rfl
      rw [splitOn] at parts
      split at parts
      · rename_i same
        obtain ⟨rfl, rfl⟩ : [] = first ∧ splitOn '\n' rest = more := by simpa using parts
        rw [split, Text.find?]
        cases tag : startsWith ['@'] next with
        | true =>
            have found : ['\n', '@'].isPrefixOf (c :: rest) = true := by
              rw [tag] at starts
              simpa [same, startsWith, List.isPrefixOf] using starts
            simp [found, tag, joinWith]
        | false =>
            have absent : ['\n', '@'].isPrefixOf (c :: rest) = false := by
              rw [tag] at starts
              simpa [same, startsWith, List.isPrefixOf] using starts
            rw [absent, if_neg (by simp), onward, later, same,
              List.takeWhile_cons_of_pos (by simp [tag])]
            rfl
      · rename_i differs
        rw [split] at parts
        obtain ⟨rfl, rfl⟩ : c :: next = first ∧ others = more := by simpa using parts
        have absent : ['\n', '@'].isPrefixOf (c :: rest) = false := by
          simp [List.isPrefixOf, Ne.symm differs]
        rw [Text.find?, absent, if_neg (by simp), onward, later]
        cases others.takeWhile (!startsWith ['@'] ·) <;> rfl

/-- The description is the text up to the first line that starts with `@`. -/
theorem descriptionOf_eq (cleaned : List Char) :
    descriptionOf cleaned = nonBlank (textBefore (startsWith ['@']) cleaned) := by
  obtain ⟨first, more, parts⟩ := List.exists_cons_of_ne_nil (splitOn_ne_nil '\n' cleaned)
  have before := before_find? cleaned parts
  rw [descriptionOf, startsWith_of_splitOn parts, textBefore, parts]
  split
  · rename_i tag
    rw [List.takeWhile_cons_of_neg (by simp [tag])]
    rfl
  · rename_i plain
    rw [List.takeWhile_cons_of_pos (by simp [plain]), ← before]
    cases Text.find? ['\n', '@'] cleaned <;> rfl

/-! ### Where the tags begin -/

theorem isTagLine_of_startsWith {line : List Char} (starts : startsWith ['@'] line = true) :
    isTagLine line = true := by
  obtain ⟨rest, rfl⟩ := List.isPrefixOf_iff_prefix.mp starts
  have front : trimStart (['@'] ++ rest) = '@' :: rest :=
    List.dropWhile_cons_of_neg (by decide)
  have back : trimEnd ('@' :: rest) = '@' :: trimEnd rest := by
    rw [trimEnd, List.reverse_cons, List.dropWhile_append]
    split
    · rename_i blank
      have none : rest.reverse.dropWhile isBlank = [] := by simpa using blank
      rw [trimEnd, none]
      decide
    · simp [trimEnd]
  rw [isTagLine, trim, front, back]
  rfl

theorem filter_joinWith (parts : List (List Char)) :
    (joinWith ['\n'] parts).filter (!isBlank ·) = parts.flatMap (·.filter (!isBlank ·)) := by
  have feed : isBlank '\n' = true := by decide
  induction parts with
  | nil => rfl
  | cons part rest ih =>
      cases rest with
      | nil => simp [joinWith]
      | cons next more =>
          rw [joinWith, List.filter_append, List.filter_append, ih, List.flatMap_cons]
          · simp [feed]
          · simp

theorem filter_of_nonBlank {first second : List Char} (same : nonBlank first = nonBlank second) :
    first.filter (!isBlank ·) = second.filter (!isBlank ·) := by
  have trimmed : trim first = trim second := by
    dsimp only [nonBlank] at same
    split at same <;> split at same <;> simp_all [← String.toList_inj]
  rw [← filter_trim, trimmed, filter_trim]

/-- The text before the first tag line is the text before the first line that starts with `@` if and
only if the first tag line has no blanks before its `@`. -/
theorem nonBlank_textBefore_iff (cleaned : List Char) :
    nonBlank (textBefore (startsWith ['@']) cleaned) = nonBlank (textBefore isTagLine cleaned) ↔
      ∀ line ∈ (splitOn '\n' cleaned).find? isTagLine, startsWith ['@'] line = true := by
  unfold textBefore
  cases found : (splitOn '\n' cleaned).find? isTagLine with
  | none =>
      have none := List.find?_eq_none.mp found
      have whole : (splitOn '\n' cleaned).takeWhile (!startsWith ['@'] ·) = splitOn '\n' cleaned := by
        rw [List.takeWhile_eq_self_iff]
        intro line inside
        cases starts : startsWith ['@'] line with
        | false => rfl
        | true => exact absurd (isTagLine_of_startsWith starts) (none line inside)
      have whole' : (splitOn '\n' cleaned).takeWhile (!isTagLine ·) = splitOn '\n' cleaned := by
        rw [List.takeWhile_eq_self_iff]
        intro line inside
        simpa using none line inside
      simp [whole, whole']
  | some line =>
      obtain ⟨opens, before, after, parts, plain⟩ := List.find?_eq_some_iff_append.mp found
      have unmarked : ∀ part ∈ before, startsWith ['@'] part = false := by
        intro part inside
        cases starts : startsWith ['@'] part with
        | false => rfl
        | true => simpa [isTagLine_of_startsWith starts] using plain part inside
      have upTo : (splitOn '\n' cleaned).takeWhile (!isTagLine ·) = before := by
        rw [parts, List.takeWhile_append_of_pos (by simpa using plain),
          List.takeWhile_cons_of_neg (by simp [opens]), List.append_nil]
      rw [upTo, parts, List.takeWhile_append_of_pos (by simpa using unmarked)]
      simp only [Option.mem_some_iff, forall_eq']
      cases starts : startsWith ['@'] line with
      | true => simp [starts]
      | false =>
          rw [List.takeWhile_cons_of_pos (by simp [starts])]
          refine ⟨fun same => ?_, nofun⟩
          have shown := filter_of_nonBlank same
          rw [filter_joinWith, filter_joinWith, List.flatMap_append, List.flatMap_cons] at shown
          have blank : line.filter (!isBlank ·) = [] := by
            have none := List.append_right_eq_self.mp shown
            exact (List.append_eq_nil_iff.mp none).1
          obtain ⟨rest, same⟩ := List.isPrefixOf_iff_prefix.mp opens
          rw [← filter_trim, ← same, List.filter_append, List.filter_cons_of_pos (by decide)] at blank
          simp at blank

/-- Every tag line opens a tag, in the order of the lines, and the lines up to the next tag line
belong to it. The description is the text before the first line that starts with `@`; it is the text
before the first tag line if and only if that line is not indented. -/
theorem parse_splits (comment : String) :
    (parse comment).tags = (tagBlocks (lines (clean comment.toList))).map tagAt ∧
    (tagBlocks (lines (clean comment.toList))).map Prod.fst =
      (lines (clean comment.toList)).filter isTagLine ∧
    (parse comment).description =
      nonBlank (textBefore (startsWith ['@']) (clean comment.toList)) ∧
    ((parse comment).description = nonBlank (textBefore isTagLine (clean comment.toList)) ↔
      ∀ line ∈ (splitOn '\n' (clean comment.toList)).find? isTagLine,
        startsWith ['@'] line = true) := by
  let cleaned := clean comment.toList
  have read : parse comment = ⟨descriptionOf cleaned, tagsOf cleaned⟩ := rfl
  rw [read]
  dsimp only
  rw [tagsOf_eq, descriptionOf_eq]
  exact ⟨rfl, map_fst_tagBlocks _, rfl, nonBlank_textBefore_iff cleaned⟩

/-- An indented tag line is read as a tag and shown in the description as well. -/
theorem indented_tag_shown :
    parse "* Old.\n *  @see x" = ⟨some "Old.\n @see x", [.other "see" "x"]⟩ ∧
    nonBlank (textBefore isTagLine (clean "* Old.\n *  @see x".toList)) = some "Old." := by
  constructor <;> decide +kernel

end DocComment

end ApiDocs
