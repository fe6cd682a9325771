set_option autoImplicit false

/-!
# Binary floating-point numbers

The numbers of the 64-bit binary format as exact values: a significand below 2^53 times a power of
two, an infinity, or no number.  `ofDecimal` rounds a decimal to the nearest of them (a tie goes to
the even significand), and `shortest` finds the fewest decimal digits that read back as the number.
-/

namespace SheetBuild.Number

/-- A number of the 64-bit binary format. -/
inductive Binary64 where
  /-- the number `significand * 2 ^ exponent` with its sign -/
  | finite (negative : Bool) (significand : Nat) (exponent : Int)
  | infinite (negative : Bool)
  | nan
  deriving DecidableEq, Repr, Inhabited

namespace Binary64

/-- The number of decimal digits of a natural number; zero has one. -/
def decimalLength (n : Nat) : Nat := (Nat.toDigits 10 n).length

/-- The quotient rounded to the nearest natural number, a tie to the even one. -/
def roundQuotient (num den : Nat) : Nat :=
  let q := num / den
  let r := num % den
  if 2 * r < den then q
  else if den < 2 * r then q + 1
  else if q % 2 = 0 then q else q + 1

/-- A power of two. -/
def twoTo (n : Nat) : Nat := Nat.pow 2 n

/-- A power of ten. -/
def tenTo (n : Nat) : Nat := Nat.pow 10 n

/-- A quotient of natural numbers times a power of two, as a quotient. -/
def scaled (num den : Nat) (exponent : Int) : Nat × Nat :=
  if 0 ≤ exponent then (num * twoTo exponent.toNat, den) else (num, den * twoTo (-exponent).toNat)

/-- Rounds a positive quotient to a number of the format. -/
def ofQuotient (negative : Bool) (num den : Nat) : Binary64 :=
  let guess : Int := max ((num.log2 : Int) - den.log2 - 53) (-1074)
  let (n, d) := scaled num den (-guess)
  let exponent := if twoTo 53 ≤ n / d then guess + 1 else guess
  let (n, d) := scaled num den (-exponent)
  let m := roundQuotient n d
  let (m, exponent) := if m = twoTo 53 then (twoTo 52, exponent + 1) else (m, exponent)
  if 971 < exponent then .infinite negative else .finite negative m exponent

/-- The number nearest to `digits * 10 ^ exponent`. -/
def ofDecimal (negative : Bool) (digits : Nat) (exponent : Int) : Binary64 :=
  let magnitude := exponent + decimalLength digits
  if digits = 0 ∨ magnitude < -400 then .finite negative 0 (-1074)
  else if 400 < magnitude then .infinite negative
  else if 0 ≤ exponent then ofQuotient negative (digits * tenTo exponent.toNat) 1
  else ofQuotient negative digits (tenTo (-exponent).toNat)

/-- The integer that the number is, if it is one. -/
def toInt? : Binary64 → Option Int
  | .finite negative m e =>
    let (n, d) := scaled m 1 e
    if n % d = 0 then some (if negative then -((n / d : Nat) : Int) else (n / d : Nat)) else none
  | _ => none

/-- Decimal digits without a trailing zero, and the place of the decimal point counted from their
left end. -/
structure Decimal where
  digits : Nat
  point : Int
  deriving DecidableEq, Repr

/-- Whether the decimal `n * 10 ^ exponent` lies among the reals that round to the number: between
the midpoints to its two neighbours, ends included where the significand is even. -/
def roundsTo (m : Nat) (e : Int) (n : Nat) (exponent : Int) : Bool :=
  -- both sides are multiplied by 4, so that a quarter of a unit is a natural number
  let low := 4 * m - (if m = twoTo 52 ∧ -1074 < e then 1 else 2)
  let high := 4 * m + 2
  let (n, unit) := if 0 ≤ exponent then (n * tenTo exponent.toNat, 1)
    else (n, tenTo (-exponent).toNat)
  let (a, b) := scaled (4 * n) unit (-e)
  if m % 2 = 0 then low * b ≤ a && a ≤ high * b else low * b < a && a < high * b

/-- The neighbour of the number on the grid of multiples of `10 ^ exponent` that rounds to it; of
two, the nearer, and of two as near, the even one. -/
def onGrid? (m : Nat) (e : Int) (exponent : Int) : Option Nat :=
  let (a, b) := scaled m 1 e
  let (a, b) := if 0 ≤ exponent then (a, b * tenTo exponent.toNat)
    else (a * tenTo (-exponent).toNat, b)
  let below := a / b
  match roundsTo m e below exponent, roundsTo m e (below + 1) exponent with
  | true, true => some (roundQuotient a b)
  | true, false => some below
  | false, true => some (below + 1)
  | false, false => none

/-- Removes trailing zeros, raising the exponent for each. -/
def dropZeros : Nat → Nat → Int → Nat × Int
  | 0, n, e => (n, e)
  | fuel + 1, n, e => if n ≠ 0 ∧ n % 10 = 0 then dropZeros fuel (n / 10) (e + 1) else (n, e)

/-- The fewest digits that read back as the positive number `m * 2 ^ e`. -/
def shortest (m : Nat) (e : Int) : Decimal :=
  let (a, b) := scaled m 1 e
  -- the place of the leading digit: 10 ^ (top - 1) ≤ m * 2 ^ e < 10 ^ top
  let guess : Int := (decimalLength a : Int) - decimalLength b
  let top := if 0 ≤ guess then (if b * tenTo guess.toNat ≤ a then guess + 1 else guess)
    else (if b ≤ a * tenTo (-guess).toNat then guess + 1 else guess)
  let found := (List.range 17).findSome? fun k =>
    let exponent := top - (k + 1 : Nat)
    (onGrid? m e exponent).map fun n => dropZeros 17 n exponent
  let (n, exponent) := found.getD (0, 0)
  ⟨n, exponent + decimalLength n⟩

end Binary64

end SheetBuild.Number
