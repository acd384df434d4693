set_option autoImplicit false

/-!
Binary floating-point numbers of 64 bits, and how a decimal text is rounded to one.
-/

namespace ApiDocs.Number

/-- A binary64 number. A finite one is `mantissa * 2 ^ exponent` with its sign; the mantissa is
below `2 ^ 53` and the exponent at least `-1074`. -/
inductive Binary64 where
  | nan
  | infinite (negative : Bool)
  | finite (negative : Bool) (mantissa : Nat) (exponent : Int)
deriving DecidableEq, Repr, Inhabited

namespace Binary64

def minExponent : Int := -1074

def maxExponent : Int := 971

/-- The quotient rounded to the nearest integer, a half to the even neighbour. -/
def roundDiv (num den : Nat) : Nat :=
  let q := num / den
  let r := 2 * (num % den)
  if den < r ∨ (r = den ∧ q % 2 = 1) then q + 1 else q

/-- The fraction `num / den` divided by `2 ^ e`. -/
def scale (num den : Nat) (e : Int) : Nat × Nat :=
  if 0 ≤ e then (num, den * Nat.pow 2 e.toNat) else (num * Nat.pow 2 (-e).toNat, den)

/-- The exponent at which the nonzero fraction `num / den` has a mantissa of 53 bits, or the least
exponent when it has fewer. -/
def exponentOf (num den : Nat) : Int :=
  let e := max minExponent ((num.log2 : Int) - (den.log2 : Int) - 53)
  let (n, d) := scale num den e
  if Nat.pow 2 53 ≤ n / d then e + 1 else e

/-- The nearest binary64 number of the fraction `num / den`. -/
def ofFraction (negative : Bool) (num den : Nat) : Binary64 :=
  if num = 0 then .finite negative 0 minExponent
  else
    let e := exponentOf num den
    let (n, d) := scale num den e
    let m := roundDiv n d
    let (m, e) := if m = Nat.pow 2 53 then (Nat.pow 2 52, e + 1) else (m, e)
    if maxExponent < e then .infinite negative else .finite negative m e

/-- The nearest binary64 number of `digits * 10 ^ power`. Powers far outside the range are decided
without computing them. -/
def ofDecimal (negative : Bool) (digits : Nat) (power : Int) : Binary64 :=
  let size : Int := (Nat.toDigits 10 digits).length
  if digits = 0 ∨ size + power < -330 then .finite negative 0 minExponent
  else if 310 < size + power then .infinite negative
  else if 0 ≤ power then ofFraction negative (digits * Nat.pow 10 power.toNat) 1
  else ofFraction negative digits (Nat.pow 10 (-power).toNat)

def ofNat (n : Nat) : Binary64 := ofFraction false n 1

/-- The integer part of the magnitude, `none` when it is beyond every index. -/
def index? : Binary64 → Option Nat
  | .nan => some 0
  | .infinite negative => if negative then some 0 else none
  | .finite true _ _ => some 0
  | .finite false m e => some (if 0 ≤ e then m * Nat.pow 2 e.toNat else m / Nat.pow 2 (-e).toNat)

end Binary64

def digitValue (c : Char) : Nat := c.toNat - '0'.toNat

/-- The number that a row of decimal digits writes. -/
def ofDigits (ds : List Char) : Nat := ds.foldl (fun n d => 10 * n + digitValue d) 0

def isDigit (c : Char) : Bool := '0' ≤ c && c ≤ '9'

/-- The exponent part of a decimal number, zero when there is none. -/
def exponentPart? : List Char → Option Int
  | [] => some 0
  | mark :: rest =>
      if mark == 'e' || mark == 'E' then
        let (negative, ds) := match rest with
          | '-' :: ds => (true, ds)
          | '+' :: ds => (false, ds)
          | ds => (false, ds)
        if ds ≠ [] ∧ ds.all isDigit then
          let n : Int := ofDigits ds
          some (if negative then -n else n)
        else none
      else none

/-- Reads an unsigned decimal number: digits, a fraction, an exponent. -/
def decimal? (negative : Bool) (cs : List Char) : Option Binary64 :=
  let whole := cs.takeWhile isDigit
  let rest := cs.dropWhile isDigit
  let (fraction, rest) := match rest with
    | '.' :: more => (more.takeWhile isDigit, more.dropWhile isDigit)
    | _ => ([], rest)
  if whole = [] ∧ fraction = [] then none
  else (exponentPart? rest).map fun power =>
    Binary64.ofDecimal negative (ofDigits (whole ++ fraction)) (power - fraction.length)

/-- Reads a signed decimal number, `NaN` or `inf`. -/
def Binary64.ofText? (text : String) : Option Binary64 :=
  let (negative, cs) := match text.toList with
    | '-' :: cs => (true, cs)
    | '+' :: cs => (false, cs)
    | cs => (false, cs)
  if cs = "NaN".toList then some .nan
  else if cs = "inf".toList then some (.infinite negative)
  else decimal? negative cs

end ApiDocs.Number
