set_option autoImplicit false

/-!
Blank characters, and marks at the front and the end of a text.
-/

namespace ApiDocs.Text

/-- The characters with the Unicode property White_Space. -/
def isBlank (c : Char) : Bool :=
  let n := c.toNat
  (0x09 ≤ n && n ≤ 0x0D) || n == 0x20 || n == 0x85 || n == 0xA0 || n == 0x1680 ||
    (0x2000 ≤ n && n ≤ 0x200A) || n == 0x2028 || n == 0x2029 || n == 0x202F || n == 0x205F ||
    n == 0x3000

def trimStart (cs : List Char) : List Char := cs.dropWhile isBlank

def trimEnd (cs : List Char) : List Char := (cs.reverse.dropWhile isBlank).reverse

def trim (cs : List Char) : List Char := trimEnd (trimStart cs)

/-- Removes `mark` from the front of the text, when it is there. -/
def dropMark? (mark : List Char) (cs : List Char) : Option (List Char) :=
  if mark.isPrefixOf cs then some (cs.drop mark.length) else none

def startsWith (mark cs : List Char) : Bool := mark.isPrefixOf cs

def endsWith (mark cs : List Char) : Bool := mark.isSuffixOf cs

/-- Removes every copy of a nonempty `mark` that stands at the front. -/
def dropMarks (mark : List Char) (cs : List Char) : List Char :=
  if _found : mark ≠ [] ∧ mark.isPrefixOf cs = true then dropMarks mark (cs.drop mark.length) else cs
termination_by cs.length
decreasing_by
  have positive : 0 < mark.length := List.length_pos_iff.mpr _found.1
  have bounded : mark.length ≤ cs.length :=
    (List.isPrefixOf_iff_prefix.mp _found.2).length_le
  simp only [List.length_drop]
  omega

def dropEndMarks (mark : List Char) (cs : List Char) : List Char :=
  (dropMarks mark.reverse cs.reverse).reverse

/-- The first place where `mark` stands in the text. -/
def find? (mark : List Char) : List Char → Option Nat
  | [] => if mark = [] then some 0 else none
  | c :: rest =>
      if mark.isPrefixOf (c :: rest) then some 0 else (find? mark rest).map (· + 1)

def contains (mark cs : List Char) : Bool := (find? mark cs).isSome

end ApiDocs.Text
