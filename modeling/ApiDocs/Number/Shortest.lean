import ApiDocs.Number.Binary64

set_option autoImplicit false

/-!
The text of a number: the fewest digits that read back as it.
-/

namespace ApiDocs.Number

/-- Significant digits `d` with the place of the point: the value is `0.d * 10 ^ point`. -/
structure Digits where
  digits : Nat
  point : Int
deriving DecidableEq, Repr

/-- A positive fraction divided by `10 ^ power`. -/
def tenth (num den : Nat) (power : Int) : Nat × Nat :=
  if 0 ≤ power then (num, den * Nat.pow 10 power.toNat) else (num * Nat.pow 10 (-power).toNat, den)

/-- How often a fraction below one can be taken times ten and stay below one. -/
def leadingZeros : Nat → Nat → Nat → Nat
  | 0, _, _ => 0
  | fuel + 1, num, den => if den ≤ num * 10 then 0 else leadingZeros fuel (num * 10) den + 1

/-- The `point` for which the positive fraction lies in `[10 ^ (point - 1), 10 ^ point)`. -/
def pointOf (num den : Nat) : Int :=
  if den ≤ num then ((Nat.toDigits 10 (num / den)).length : Int)
  else -(leadingZeros 400 num den : Int)

/-- The reals that round to a mantissa and exponent, in units of `2 ^ (exponent - 2)`, and whether
the ends belong to them. -/
structure Interval where
  low : Nat
  high : Nat
  closed : Bool

def interval (mantissa : Nat) (exponent : Int) : Interval :=
  let narrow := mantissa = Nat.pow 2 52 ∧ Binary64.minExponent < exponent
  ⟨4 * mantissa - (if narrow then 1 else 2), 4 * mantissa + 2, mantissa % 2 == 0⟩

/-- Whether `n * 10 ^ power` rounds to the number that the interval belongs to. -/
def Interval.holds (i : Interval) (exponent : Int) (n : Nat) (power : Int) : Bool :=
  let (ln, ld) := Binary64.scale i.low 1 (2 - exponent)
  let (hn, hd) := Binary64.scale i.high 1 (2 - exponent)
  let (ln, ld) := tenth ln ld power
  let (hn, hd) := tenth hn hd power
  if i.closed then ln ≤ n * ld && n * hd ≤ hn else ln < n * ld && n * hd < hn

/-- The nearest of the value's two neighbours on the grid of `10 ^ power` that reads back. -/
def onGrid? (mantissa : Nat) (exponent : Int) (power : Int) : Option Nat :=
  let (num, den) := Binary64.scale mantissa 1 (-exponent)
  let (n, d) := tenth num den power
  let below := n / d
  let above := if n % d = 0 then below else below + 1
  let i := interval mantissa exponent
  match i.holds exponent below power, i.holds exponent above power with
  | true, true =>
      let twice := 2 * (n % d)
      some (if d < twice ∨ (twice = d ∧ below % 2 = 1) then above else below)
  | true, false => some below
  | false, true => some above
  | false, false => none

/-- Tries grids of `count`, `count + 1`, ... digits. -/
def shortestFrom : Nat → Nat → Int → Int → Nat → Digits
  | 0, mantissa, _, point, _ => ⟨mantissa, point⟩
  | fuel + 1, mantissa, exponent, point, count =>
      match onGrid? mantissa exponent (point - count) with
      | some n => ⟨n, point - count + (Nat.toDigits 10 n).length⟩
      | none => shortestFrom fuel mantissa exponent point (count + 1)

def stripZeros : Nat → Nat → Nat
  | 0, n => n
  | fuel + 1, n => if n % 10 = 0 ∧ n ≠ 0 then stripZeros fuel (n / 10) else n

/-- The fewest digits that read back as the number, and of those the nearest. -/
def shortest (mantissa : Nat) (exponent : Int) : Digits :=
  let (num, den) := Binary64.scale mantissa 1 (-exponent)
  let found := shortestFrom 20 mantissa exponent (pointOf num den) 1
  { found with digits := stripZeros 20 found.digits }

/-- Where a number is written with an exponent: from `upper` integer digits on, and below
`lower` zeros after the point. -/
structure PlainRange where
  upper : Int
  lower : Int

/-- Numbers are positional from `0.000001` up to twenty-one integer digits. -/
def PlainRange.value : PlainRange := ⟨21, -5⟩

def zeros (n : Nat) : List Char := List.replicate n '0'

def positional (d : Digits) : List Char :=
  let ds := Nat.toDigits 10 d.digits
  if d.point ≤ 0 then '0' :: '.' :: zeros (-d.point).toNat ++ ds
  else if (ds.length : Int) ≤ d.point then ds ++ zeros (d.point - ds.length).toNat
  else ds.take d.point.toNat ++ '.' :: ds.drop d.point.toNat

def scientific (d : Digits) : List Char :=
  let ds := Nat.toDigits 10 d.digits
  let power := d.point - 1
  let mantissa := match ds with
    | [] => []
    | [c] => [c]
    | c :: rest => c :: '.' :: rest
  let sign := if 0 ≤ power then '+' else '-'
  mantissa ++ 'e' :: sign :: Nat.toDigits 10 power.natAbs

/-- The text of a number; both zeros are `0`. -/
def Binary64.text : Binary64 → String
  | .nan => "NaN"
  | .infinite negative => if negative then "-Infinity" else "Infinity"
  | .finite negative m e =>
      if m = 0 then "0"
      else
        let d := shortest m e
        let body := if PlainRange.value.upper < d.point ∨ d.point < PlainRange.value.lower
          then scientific d else positional d
        String.ofList (if negative then '-' :: body else body)

end ApiDocs.Number
