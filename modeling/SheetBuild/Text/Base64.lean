import SheetBuild.Text.Utf8
set_option autoImplicit false

/-!
# Base64

Bytes in groups of three as groups of four characters.  Reading is lenient: characters outside the
alphabet are skipped, a pad character that cannot end its group is skipped too, and the first pad
that ends a group ends the data.
-/

namespace SheetBuild.Text.Base64

/-- The character of a six-bit value. -/
def digitChar (v : Nat) : Char :=
  if v < 26 then Char.ofNat (65 + v)
  else if v < 52 then Char.ofNat (71 + v)
  else if v < 62 then Char.ofNat (v - 4)
  else if v = 62 then '+'
  else '/'

/-- The six-bit value of a character of the alphabet. -/
def value? (c : Char) : Option Nat :=
  let n := c.toNat
  if 65 ≤ n ∧ n ≤ 90 then some (n - 65)
  else if 97 ≤ n ∧ n ≤ 122 then some (n - 71)
  else if 48 ≤ n ∧ n ≤ 57 then some (n + 4)
  else if c = '+' then some 62
  else if c = '/' then some 63
  else none

/-- Writes bytes, padding the last group with `=`. -/
def encode : Bytes → List Char
  | a :: b :: c :: r =>
    let n := a.toNat * 65536 + b.toNat * 256 + c.toNat
    digitChar (n / 262144) :: digitChar (n / 4096 % 64) :: digitChar (n / 64 % 64)
      :: digitChar (n % 64) :: encode r
  | [a, b] =>
    let n := a.toNat * 65536 + b.toNat * 256
    [digitChar (n / 262144), digitChar (n / 4096 % 64), digitChar (n / 64 % 64), '=']
  | [a] =>
    let n := a.toNat * 65536
    [digitChar (n / 262144), digitChar (n / 4096 % 64), '=', '=']
  | [] => []

/-- Why a text holds no bytes. -/
inductive DecodeError where
  /-- the last group ends early and is not padded -/
  | padding
  /-- the last group holds a single character, the given number of them in all -/
  | lone (count : Nat)
  deriving DecidableEq, Repr

/-- The wording of a decoding error. -/
def DecodeError.message : DecodeError → String
  | .padding => "Incorrect padding"
  | .lone n =>
    "Invalid base64-encoded string: number of data characters (" ++ toString n
      ++ ") cannot be 1 more than a multiple of 4"

/-- The six-bit values of an unfinished group. -/
inductive Group where
  | none
  | one (a : Nat)
  | two (a b : Nat)
  | three (a b c : Nat)

/-- How many characters an unfinished group holds. -/
def Group.size : Group → Nat
  | .none => 0
  | .one _ => 1
  | .two .. => 2
  | .three .. => 3

/-- The whole bytes that an unfinished group holds. -/
def Group.bytes : Group → Bytes
  | .none | .one _ => []
  | .two a b => [.ofNat (a * 4 + b / 16)]
  | .three a b c => [.ofNat (a * 4 + b / 16), .ofNat (b % 16 * 16 + c / 4)]

/-- Puts a value into a group: the bytes of the group it finishes, and the group after it. -/
def Group.push : Group → Nat → Bytes × Group
  | .none, a => ([], .one a)
  | .one a, b => ([], .two a b)
  | .two a b, c => ([], .three a b c)
  | .three a b c, d =>
    ([.ofNat (a * 4 + b / 16), .ofNat (b % 16 * 16 + c / 4), .ofNat (c % 4 * 64 + d)], .none)

/-- Reads on from an unfinished group.  `pads` counts the pad characters since the last value, and
`count` the values before the group. -/
def decodeFrom (g : Group) (pads count : Nat) : List Char → Except DecodeError Bytes
  | [] =>
    match g with
    | .none => .ok []
    | .one _ => .error (.lone (count + 1))
    | _ => .error .padding
  | c :: cs =>
    if c = '=' then
      if 2 ≤ g.size ∧ 4 ≤ g.size + (pads + 1) then .ok g.bytes
      else decodeFrom g (if 2 ≤ g.size then pads + 1 else pads) count cs
    else match value? c with
      | none => decodeFrom g pads count cs
      | some v =>
        let (out, g') := g.push v
        (decodeFrom g' 0 (if out.isEmpty then count else count + 4) cs).map (out ++ ·)

/-- The bytes that a text holds. -/
def decode (cs : List Char) : Except DecodeError Bytes := decodeFrom .none 0 0 cs

end SheetBuild.Text.Base64
