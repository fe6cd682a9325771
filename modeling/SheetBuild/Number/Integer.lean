import SheetBuild.Text.Blank
set_option autoImplicit false

/-!
# Integers in text

Two readers of integers.  `ofDigits` takes the plain form: digits without a leading zero, behind a
minus where the number is negative.  `ofText` brings a looser form to the plain one first: white space
and a sign in front, leading zeros, a fraction of zeros, and underscores between digits.

A run of digits is read only up to a limit on its length, which keeps the work for one number small.
-/

namespace SheetBuild.Number.Integer

/-- The most digits of an integer that are read or written. -/
def maxDigits : Nat := 4300

/-- The wording of the limit. -/
def limitText : String :=
  "Exceeds the limit (" ++ toString maxDigits ++ " digits) for integer string conversion"

/-- The hint to the setting of the limit. -/
def limitHint : String := "; use sys.set_int_max_str_digits() to increase the limit"

/-- The wording of the limit that is exceeded by a run of digits. -/
def limitMessage (digits : Nat) : String :=
  limitText ++ ": value has " ++ toString digits ++ " digits" ++ limitHint

/-- The wording of the limit that is exceeded by an integer that is to be written. -/
def writeLimitMessage : String := limitText ++ limitHint

/-- Why a text is not read as an integer. -/
inductive ReadError where
  | notDecimal
  /-- the text begins with more digits than are read -/
  | tooLong
  deriving DecidableEq, Repr

/-- A digit from 0 to 9. -/
def isDigit (c : Char) : Bool := '0' ≤ c && c ≤ '9'

/-- The number that digits write, most significant first. -/
def digitsValue (ds : List Char) : Nat := ds.foldl (fun n c => 10 * n + (c.toNat - 48)) 0

/-! ## The plain form -/

/-- The number of a run of digits that begins with no zero, unless it is zero. -/
def ofDigits : List Char → Except ReadError Nat
  | [] => .error .notDecimal
  | ['0'] => .ok 0
  | '0' :: _ => .error .notDecimal
  | cs =>
    let ds := cs.takeWhile isDigit
    if maxDigits < ds.length then .error .tooLong
    else if ds.length = cs.length then .ok (digitsValue ds)
    else .error .notDecimal

/-- The integer of digits, with a minus in front of them where it is negative. -/
def ofSigned : List Char → Except ReadError Int
  | '-' :: cs => (ofDigits cs).map fun n => -(n : Int)
  | cs => (ofDigits cs).map fun n => (n : Int)

/-! ## The loose form -/

/-- What is left of a number behind zeros and underscores, of which `last` is the one just passed.  A
minus may stand behind them too; in front of a period the character before it is kept. -/
def afterZeros? (last : Char) : List Char → Option (List Char)
  | [] => some [last]
  | c :: r =>
    if c = '0' || c = '_' then afterZeros? c r
    else if isDigit c || c = '-' then some (c :: r)
    else if c = '.' then some (last :: c :: r)
    else none

/-- A number without leading zeros. -/
def withoutZeros? : List Char → Option (List Char)
  | [] => none
  | c :: r =>
    if c = '0' then afterZeros? c r
    else if isDigit c then some (c :: r)
    else none

/-- A number without a fraction, where the fraction holds zeros only and one of them at least. -/
def withoutFraction (cs : List Char) : List Char :=
  match cs.dropWhile (· ≠ '.') with
  | _ :: z :: zs => if (z :: zs).all (· = '0') then cs.takeWhile (· ≠ '.') else cs
  | _ => cs

/-- Whether two underscores stand side by side. -/
def hasDouble : List Char → Bool
  | '_' :: '_' :: _ => true
  | _ :: r => hasDouble r
  | [] => false

/-- A number without the underscores in it, unless one stands at an end or beside another. -/
def ungrouped (cs : List Char) : List Char :=
  if cs.head? = some '_' || cs.getLast? = some '_' || hasDouble cs then cs
  else cs.filter (· ≠ '_')

/-- The sign in front of a number: whether it is a minus, and what follows it. -/
def cutSign : List Char → Bool × List Char
  | '-' :: r => (true, r)
  | '+' :: r => (false, r)
  | r => (false, r)

/-- The integer that a text writes in the loose form. -/
def ofText (cs : List Char) : Except ReadError Int :=
  let (negative, unsigned) := cutSign (Text.trimWhile Text.isWhiteSpace cs)
  match withoutZeros? unsigned with
  | none => .error .notDecimal
  | some number =>
    let number := ungrouped (withoutFraction number)
    ofSigned (if negative then '-' :: number else number)

/-! ## What is read -/

/-- A text that is too long in the plain form is no number in it either way. -/
theorem length_le_of_ofDigits {cs : List Char} {n : Nat} (h : ofDigits cs = .ok n) :
    cs.length ≤ maxDigits := by
  unfold ofDigits at h
  split at h
  · simp at h
  · simp [maxDigits]
  · simp at h
  · simp only at h
    split at h
    · simp at h
    · split at h
      · omega
      · simp at h

end SheetBuild.Number.Integer
