import SheetBuild.Number.Binary64
set_option autoImplicit false

/-!
# The text of a binary floating-point number

The fewest digits that read back, positional from 10^-4 up to 10^16 and with an exponent of at least
two digits elsewhere.  A whole number keeps a `.0`.
-/

namespace SheetBuild.Number.Binary64

/-- The decimal digits of a natural number. -/
def decimalDigits (n : Nat) : List Char := Nat.toDigits 10 n

/-- The text of a positive decimal. -/
def Decimal.text (d : Decimal) : List Char :=
  let ds := decimalDigits d.digits
  if d.point ≤ -4 ∨ 16 < d.point then
    let e := d.point - 1
    let es := decimalDigits e.natAbs
    let fraction := if ds.length ≤ 1 then [] else '.' :: ds.drop 1
    ds.take 1 ++ fraction ++ ['e', if e < 0 then '-' else '+']
      ++ (if es.length < 2 then '0' :: es else es)
  else if d.point ≤ 0 then
    ['0', '.'] ++ List.replicate d.point.natAbs '0' ++ ds
  else
    let places := d.point.toNat
    if ds.length ≤ places then ds ++ List.replicate (places - ds.length) '0' ++ ['.', '0']
    else ds.take places ++ '.' :: ds.drop places

/-- The text of a number. -/
def text : Binary64 → List Char
  | .nan => ['n', 'a', 'n']
  | .infinite negative => (if negative then ['-'] else []) ++ ['i', 'n', 'f']
  | .finite negative m e =>
    (if negative then ['-'] else [])
      ++ (if m = 0 then ['0', '.', '0'] else (shortest m e).text)

end SheetBuild.Number.Binary64
