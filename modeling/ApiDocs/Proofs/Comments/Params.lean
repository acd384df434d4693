import ApiDocs.Proofs.Comments.Lines

set_option autoImplicit false

/-!
The text of parameter tags. It is put together from an optional type in braces, the name of the
parameter, plain or in brackets and there with an optional default, and an optional description. The
main statement says that such a text is read as the parts that it was put together from.
-/

namespace ApiDocs.DocComment

open Text

/-! ### Characters of names -/

/-- The places of the blank characters. -/
def blankPlaces : List Nat :=
  List.range' 0x09 5 ++ List.range' 0x2000 11 ++
    [0x20, 0x85, 0xA0, 0x1680, 0x2028, 0x2029, 0x202F, 0x205F, 0x3000]

theorem isNameChar_of_isBlank {c : Char} (blank : isBlank c = true) : isNameChar c = false := by
  have listed : c.toNat ∈ blankPlaces := by
    simp only [isBlank, Bool.or_eq_true, Bool.and_eq_true, decide_eq_true_eq, beq_iff_eq] at blank
    simp only [blankPlaces, List.mem_append, List.mem_range'_1, List.mem_cons, List.not_mem_nil]
    grind
  have none : ∀ n ∈ blankPlaces, isNameChar (Char.ofNat n) = false := by decide +kernel
  simpa using none c.toNat listed

theorem not_isBlank_of_isNameChar {c : Char} (named : isNameChar c = true) : isBlank c = false := by
  cases blank : isBlank c with
  | false => rfl
  | true =>
      rw [isNameChar_of_isBlank blank] at named
      cases named

theorem ne_of_isNameChar {c mark : Char} (named : isNameChar c = true)
    (other : isNameChar mark = false) : c ≠ mark := by
  rintro rfl
  rw [other] at named
  cases named

/-! ### Runs of characters -/

section

variable {p : Char → Bool} {run rest : List Char}

theorem takeWhile_run (inside : ∀ c ∈ run, p c = true) (stops : ∀ c ∈ rest.head?, p c = false) :
    (run ++ rest).takeWhile p = run := by
  rw [List.takeWhile_append_of_pos inside]
  cases rest with
  | nil => simp
  | cons c rest => simp [stops c rfl]

theorem dropWhile_run (inside : ∀ c ∈ run, p c = true) (stops : ∀ c ∈ rest.head?, p c = false) :
    (run ++ rest).dropWhile p = rest := by
  rw [List.dropWhile_append_of_pos inside]
  cases rest with
  | nil => rfl
  | cons c rest => exact List.dropWhile_cons_of_neg (by simp [stops c rfl])

end

/-! ### The parts of a text -/

/-- A type in braces, and the blanks behind it. -/
structure BracedType where
  text : List Char
  gap : List Char
  closed : '}' ∉ text
  blank : ∀ c ∈ gap, isBlank c = true

def BracedType.chars (t : BracedType) : List Char := '{' :: (t.text ++ '}' :: t.gap)

/-- How the name of a parameter stands in the text. -/
inductive NameForm where
  | plain
  | bracketed
  | defaulted (value : List Char) (closed : ']' ∉ value)

/-- What stands behind the opening bracket and the name. -/
def NameForm.closing : NameForm → List Char
  | .plain => []
  | .bracketed => [']']
  | .defaulted value _ => '=' :: (value ++ [']'])

def NameForm.isBracketed : NameForm → Bool
  | .plain => false
  | _ => true

/-- A description, and what stands before it: blanks, and maybe a dash with blanks of its own. -/
structure Description where
  gap : List Char
  dash : Option (List Char)
  text : List Char
  apart : gap ≠ []
  blank : ∀ c ∈ gap, isBlank c = true
  dashBlank : ∀ blanks ∈ dash, ∀ c ∈ blanks, isBlank c = true
  written : text ≠ []
  trimmed : trim text = text
  undashed : text.head? ≠ some '-'

/-- The description with its dash. -/
def Description.dashed (d : Description) : List Char :=
  match d.dash with
  | none => d.text
  | some blanks => '-' :: (blanks ++ d.text)

def Description.chars (d : Description) : List Char := d.gap ++ d.dashed

/-- The text of a parameter tag, by its parts. -/
structure ParamText where
  type : Option BracedType
  name : List Char
  form : NameForm
  description : Option Description
  named : name ≠ []
  spelled : ∀ c ∈ name, isNameChar c = true

namespace ParamText

/-- What stands behind the name. -/
def rest (t : ParamText) : List Char :=
  t.form.closing ++ (t.description.map Description.chars).getD []

/-- What stands behind the type. -/
def body (t : ParamText) : List Char :=
  (if t.form.isBracketed then ['['] else []) ++ (t.name ++ t.rest)

def chars (t : ParamText) : List Char := (t.type.map BracedType.chars).getD [] ++ t.body

/-- The tag that the text stands for. -/
def tag (t : ParamText) : DocTag :=
  .param (String.ofList t.name) (t.description.map fun d => String.ofList d.text)
    t.form.isBracketed

end ParamText

/-! ### Reading -/

theorem dropType_chars (t : BracedType) {rest : List Char}
    (starts : ∀ c ∈ rest.head?, isBlank c = false) : dropType (t.chars ++ rest) = rest := by
  have behind : (t.text ++ '}' :: (t.gap ++ rest)).dropWhile (· ≠ '}') = '}' :: (t.gap ++ rest) := by
    refine dropWhile_run (fun c inside => ?_) (by simp)
    simpa using fun same : c = '}' => t.closed (same ▸ inside)
  have whole : t.chars ++ rest = '{' :: (t.text ++ '}' :: (t.gap ++ rest)) := by
    simp [BracedType.chars]
  rw [whole, dropType, behind]
  exact dropWhile_run t.blank starts

theorem dropDash_dashed (d : Description) :
    dropDash (d.chars.dropWhile isBlank) = d.text := by
  have starts := (trim_eq_self_iff.mp d.trimmed).1
  have skipped : d.chars.dropWhile isBlank = d.dashed := by
    refine dropWhile_run d.blank fun c first => ?_
    unfold Description.dashed at first
    split at first
    · exact starts c first
    · obtain rfl : '-' = c := by simpa using first
      decide
  rw [skipped]
  unfold Description.dashed
  split
  · obtain ⟨c, more, same⟩ := List.exists_cons_of_ne_nil d.written
    have differs : c ≠ '-' := by simpa [same] using d.undashed
    rw [same]
    simp [dropDash, differs]
  · rename_i blanks dash
    exact dropWhile_run (d.dashBlank blanks dash) starts

namespace ParamText

variable (t : ParamText)

/-- The description that is read behind the name. -/
theorem nonBlank_description :
    nonBlank (dropDash (((t.description.map Description.chars).getD []).dropWhile isBlank)) =
      t.description.map fun d => String.ofList d.text := by
  cases t.description with
  | none => rfl
  | some d =>
      show nonBlank (dropDash (d.chars.dropWhile isBlank)) = some (String.ofList d.text)
      rw [dropDash_dashed, nonBlank, d.trimmed, if_neg d.written]

/-- Behind the name and its brackets stands a blank, if anything. -/
theorem head_description {c : Char}
    (first : c ∈ ((t.description.map Description.chars).getD []).head?) : isBlank c = true := by
  cases about : t.description with
  | none => simp [about] at first
  | some d =>
      obtain ⟨b, more, same⟩ := List.exists_cons_of_ne_nil d.apart
      have here : b = c := by simpa [about, Description.chars, same] using first
      exact here ▸ d.blank b (by simp [same])

theorem head_rest {c : Char} (first : c ∈ t.rest.head?) : isNameChar c = false := by
  unfold rest NameForm.closing at first
  split at first
  · exact isNameChar_of_isBlank (t.head_description first)
  · obtain rfl : ']' = c := by simpa using first
    decide
  · obtain rfl : '=' = c := by simpa using first
    decide

theorem head_body {c : Char} (first : c ∈ t.body.head?) : c = '[' ∨ isNameChar c = true := by
  obtain ⟨b, more, same⟩ := List.exists_cons_of_ne_nil t.named
  unfold body at first
  split at first
  · left
    simpa [eq_comm] using first
  · right
    have here : b = c := by simpa [same] using first
    exact here ▸ t.spelled b (by simp [same])

theorem head_body_not_blank {c : Char} (first : c ∈ t.body.head?) : isBlank c = false := by
  rcases t.head_body first with rfl | named
  · decide
  · exact not_isBlank_of_isNameChar named

theorem dropType_body : dropType t.chars = t.body := by
  unfold chars
  cases t.type with
  | some braced => exact dropType_chars braced fun c => t.head_body_not_blank
  | none =>
      show dropType t.body = t.body
      cases same : t.body with
      | nil => rfl
      | cons c more =>
          have differs : c ≠ '{' := by
            rcases t.head_body (c := c) (by simp [same]) with rfl | named
            · decide
            · exact ne_of_isNameChar named (by decide)
          simp [dropType, differs]

/-- The text is read as its parts. -/
theorem param?_chars : param? t.chars = some t.tag := by
  have name : (t.name ++ t.rest).takeWhile isNameChar = t.name :=
    takeWhile_run t.spelled fun c => t.head_rest
  have behind : (t.name ++ t.rest).dropWhile isNameChar = t.rest :=
    dropWhile_run t.spelled fun c => t.head_rest
  have description := t.nonBlank_description
  unfold param? tag
  rw [dropType_body]
  cases form : t.form with
  | plain =>
      have whole : t.body = t.name ++ t.rest := by simp [body, form, NameForm.isBracketed]
      have unopened : ∀ inner, t.name ++ t.rest ≠ '[' :: inner := by
        intro inner same
        have first := t.spelled '[' (by
          obtain ⟨c, more, isName⟩ := List.exists_cons_of_ne_nil t.named
          simp_all)
        exact absurd first (by decide)
      have rest_eq : t.rest = (t.description.map Description.chars).getD [] := by
        simp [rest, form, NameForm.closing]
      have unmarked : ∀ mark more, t.rest = mark :: more → isBlank mark = true := by
        intro mark more same
        exact t.head_description (by rw [← rest_eq, same]; rfl)
      have undefaulted : ∀ more, t.rest ≠ '=' :: more := fun more same =>
        absurd (unmarked _ _ same) (by decide)
      have unclosed : ∀ more, t.rest ≠ ']' :: more := fun more same =>
        absurd (unmarked _ _ same) (by decide)
      rw [whole]
      simp only [name, behind, t.named, NameForm.isBracketed, ↓reduceIte]
      rw [rest_eq, description]
  | bracketed =>
      have whole : t.body = '[' :: (t.name ++ t.rest) := by simp [body, form, NameForm.isBracketed]
      have closed : t.rest = ']' :: (t.description.map Description.chars).getD [] := by
        simp [rest, form, NameForm.closing]
      rw [whole]
      simp only [name, behind, t.named, NameForm.isBracketed, ↓reduceIte]
      rw [closed]
      exact congrArg (fun text => some (DocTag.param _ text true)) description
  | defaulted value closed =>
      have whole : t.body = '[' :: (t.name ++ t.rest) := by simp [body, form, NameForm.isBracketed]
      have marked : t.rest =
          '=' :: (value ++ ']' :: (t.description.map Description.chars).getD []) := by
        simp [rest, form, NameForm.closing]
      have skipped : (value ++ ']' :: (t.description.map Description.chars).getD []).dropWhile
          (· ≠ ']') = ']' :: (t.description.map Description.chars).getD [] := by
        refine dropWhile_run (fun c inside => ?_) (by simp)
        simpa using fun same : c = ']' => closed (same ▸ inside)
      rw [whole]
      simp only [name, behind, t.named, NameForm.isBracketed, ↓reduceIte]
      rw [marked]
      simp only [skipped, description]

theorem getLast_dashed (d : Description) : d.chars.getLast? = d.text.getLast? := by
  obtain ⟨before, last, same⟩ := (List.eq_nil_or_concat d.text).resolve_left d.written
  unfold Description.chars Description.dashed
  split <;> simp [same, List.getLast?_cons]

theorem getLast_chars {c : Char} (last : c ∈ t.chars.getLast?) : isBlank c = false := by
  cases about : t.description with
  | some d =>
      have ending : t.chars.getLast? = d.text.getLast? := by
        rw [← getLast_dashed]
        obtain ⟨before, last, same⟩ := (List.eq_nil_or_concat d.chars).resolve_left (by
          simp [Description.chars, d.apart])
        simp [chars, body, rest, about, same]
      exact (trim_eq_self_iff.mp d.trimmed).2 c (ending ▸ last)
  | none =>
      obtain ⟨before, final, same⟩ := (List.eq_nil_or_concat t.name).resolve_left t.named
      have spelled := t.spelled final (by simp [same])
      cases form : t.form with
      | plain =>
          have here : final = c := by
            simpa [chars, body, rest, about, form, NameForm.closing, same] using last
          exact here ▸ not_isBlank_of_isNameChar spelled
      | bracketed =>
          have here : ']' = c := by
            simpa [chars, body, rest, about, form, NameForm.closing] using last
          exact here ▸ by decide
      | defaulted value closed =>
          have here : ']' = c := by
            simpa [chars, body, rest, about, form, NameForm.closing, List.getLast?_cons] using last
          exact here ▸ by decide

theorem trim_chars : trim t.chars = t.chars := by
  refine trim_eq_self_iff.mpr ⟨fun c first => ?_, fun c => t.getLast_chars⟩
  cases braced : t.type with
  | none => exact t.head_body_not_blank (by simpa [chars, braced] using first)
  | some b =>
      have here : '{' = c := by simpa [chars, braced, BracedType.chars] using first
      exact here ▸ by decide

end ParamText

/-- A tag for a parameter gives the name, whether it is in brackets, and the description, in every
form of the text. -/
theorem tagOf_paramText (t : ParamText) (tag : List Char)
    (isParam : tag ∈ ["param", "arg", "argument"].map String.toList) :
    tagOf tag t.chars =
      .param (String.ofList t.name) (t.description.map fun d => String.ofList d.text)
        t.form.isBracketed := by
  have listed : tag = "param".toList ∨ tag = "arg".toList ∨ tag = "argument".toList := by
    simpa using isParam
  simp only [tagOf, if_pos listed, t.trim_chars, t.param?_chars, Option.getD_some]
  rfl

/-- A text that has all parts. -/
def encodingText : ParamText where
  type := some ⟨"\x7ba: string".toList, [], by decide, nofun⟩
  name := "options.enc$".toList
  form := .defaulted "x=[y".toList (by decide)
  description := some {
    gap := [' ', '\n'], dash := some [' '], text := "The encoding -\nof a [file]".toList
    apart := by decide, written := by decide, trimmed := by decide, undashed := by decide
    blank := List.all_eq_true.mp (by decide)
    dashBlank := fun _ same => Option.some.inj same ▸ List.all_eq_true.mp (by decide) }
  named := by decide
  spelled := List.all_eq_true.mp (by decide)

theorem encodingText_read :
    encodingText.chars =
      "\x7b\x7ba: string\x7d[options.enc$=x=[y] \n- The encoding -\nof a [file]".toList ∧
    tagOf "arg".toList encodingText.chars =
      .param "options.enc$" (some "The encoding -\nof a [file]") true :=
  ⟨by decide, tagOf_paramText encodingText "arg".toList (by decide)⟩

end ApiDocs.DocComment
