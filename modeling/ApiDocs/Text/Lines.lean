set_option autoImplicit false

/-!
Splitting and joining text. Joining what was split gives the text back.
-/

namespace ApiDocs.Text

/-- Splits at every `mark`; `n` marks give `n + 1` parts. -/
def splitOn (mark : Char) : List Char → List (List Char)
  | [] => [[]]
  | c :: rest =>
      if c = mark then [] :: splitOn mark rest
      else match splitOn mark rest with
        | [] => [[c]]
        | part :: parts => (c :: part) :: parts

def joinWith (sep : List Char) : List (List Char) → List Char
  | [] => []
  | [part] => part
  | part :: rest => part ++ sep ++ joinWith sep rest

/-- A line ends at a line feed, and a carriage return right before the line feed is not part of
the line. -/
def stripReturn (line : List Char) : List Char :=
  if line.getLast? = some '\r' then line.dropLast else line

/-- The terminated lines, then the rest of the text unless it is empty. -/
def finishLines : List (List Char) → List (List Char)
  | [] => []
  | [last] => if last = [] then [] else [last]
  | line :: rest => stripReturn line :: finishLines rest

def lines (cs : List Char) : List (List Char) := finishLines (splitOn '\n' cs)

theorem splitOn_ne_nil (mark : Char) (cs : List Char) : splitOn mark cs ≠ [] := by
  cases cs with
  | nil => simp [splitOn]
  | cons c rest =>
      simp only [splitOn]
      split
      · simp
      · split <;> simp

theorem joinWith_splitOn (mark : Char) (cs : List Char) :
    joinWith [mark] (splitOn mark cs) = cs := by
  induction cs with
  | nil => rfl
  | cons c rest ih =>
      simp only [splitOn]
      split
      · rename_i same
        have more := splitOn_ne_nil mark rest
        cases parts : splitOn mark rest with
        | nil => exact absurd parts more
        | cons part parts' => simp [joinWith, ← parts, ih, same]
      · cases parts : splitOn mark rest with
        | nil => exact absurd parts (splitOn_ne_nil mark rest)
        | cons part parts' =>
            rw [parts] at ih
            cases parts' with
            | nil => simpa [joinWith] using ih
            | cons next more => simpa [joinWith] using ih

end ApiDocs.Text
