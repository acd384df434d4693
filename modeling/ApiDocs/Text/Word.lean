import ApiDocs.Text.Letter

set_option autoImplicit false

/-!
Word characters and identifier characters.
-/

namespace ApiDocs.Text

def isAsciiLetter (c : Char) : Bool :=
  ('a' ≤ c && c ≤ 'z') || ('A' ≤ c && c ≤ 'Z')

def isAsciiDigit (c : Char) : Bool := '0' ≤ c && c ≤ '9'

/-- Circled and squared letters are alphabetic although they are symbols. -/
def circledBorders : List Nat := [0x24B6, 0x24EA, 0x1F130, 0x1F14A, 0x1F150, 0x1F16A, 0x1F170, 0x1F18A]

/-- Word characters: alphabetic characters, marks, decimal digits, connectors and the two joiners. -/
def isWord (c : Char) : Bool :=
  let n := c.toNat
  if n < 0x80 then isAsciiLetter c || isAsciiDigit c || c == '_'
  else within letterBorders n || within markBorders n || within enclosingBorders n ||
    within digitBorders n || within connectorBorders n || within circledBorders n ||
    n == 0x200C || n == 0x200D

/-- Characters that can begin an identifier. -/
def isIdentStart (c : Char) : Bool :=
  let n := c.toNat
  if n < 0x80 then isAsciiLetter c || c == '_' || c == '$'
  else n != 0x2E2F && (within letterBorders n ||
    [0x1885, 0x1886, 0x2118, 0x212E, 0x309B, 0x309C].contains n)

/-- Characters that can continue an identifier. -/
def isIdentPart (c : Char) : Bool :=
  let n := c.toNat
  if n < 0x80 then isAsciiLetter c || isAsciiDigit c || c == '_' || c == '$'
  else isIdentStart c || within markBorders n || within digitBorders n ||
    within connectorBorders n || n == 0xB7 || n == 0x387 || (0x1369 ≤ n && n ≤ 0x1371) ||
    n == 0x19DA || n == 0x200C || n == 0x200D || n == 0x30FB || n == 0xFF65

end ApiDocs.Text
