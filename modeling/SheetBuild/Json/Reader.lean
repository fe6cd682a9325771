import SheetBuild.Json.Value
import SheetBuild.Number.Integer
set_option autoImplicit false

/-!
# Reading JSON

`read` reads a text that is one JSON value between optional spaces.  Beside the standard's values it
accepts `NaN`, `Infinity` and `-Infinity`; it refuses raw control characters in strings, trailing
commas and a byte order mark.  Of a name given twice in an object the last value counts.

There are two limits: on the digits of an integer, and on the depth to which arrays and objects stand
inside one another.  What exceeds one of them ends the reading where it stands.
-/

namespace SheetBuild.Json

open SheetBuild.Number (Binary64)
open SheetBuild.Text (Loose Point)

/-- What stands too deep inside others. -/
inductive TooDeep where
  | array
  | object
  deriving DecidableEq, Repr

/-- The wording of a depth that is exceeded. -/
def TooDeep.message : TooDeep → String
  | .array => "maximum recursion depth exceeded while decoding a JSON array from a unicode string"
  | .object => "maximum recursion depth exceeded while decoding a JSON object from a unicode string"

/-- Why a text is not read. -/
inductive ReadError where
  /-- the text is no value -/
  | malformed
  /-- an integer of more digits than are read -/
  | longInteger (digits : Nat)
  | tooDeep (e : TooDeep)
  deriving DecidableEq, Repr

/-- The depth to which arrays and objects may stand inside one another.  The number belongs to the host:
it is what an interpreter that allows 1000 calls inside one another, as the host's does by default, leaves
for the reader of documents.  No proof needs more of it than that the documents of entries fit in. -/
def maxDepth : Nat := 990

/-- The four characters that may stand between tokens. -/
def isSpace (c : Char) : Bool := c = ' ' || c = '\t' || c = '\n' || c = '\r'

/-- The text after the spaces at its front. -/
def skipSpaces (cs : List Char) : List Char := cs.dropWhile isSpace

/-- The value of a hexadecimal digit. -/
def hexValue? (c : Char) : Option Nat :=
  let n := c.toNat
  if 48 ≤ n ∧ n ≤ 57 then some (n - 48)
  else if 97 ≤ n ∧ n ≤ 102 then some (n - 87)
  else if 65 ≤ n ∧ n ≤ 70 then some (n - 55)
  else none

/-- The number that four hexadecimal digits write, and the text after them. -/
def readUnit? : List Char → Option (Nat × List Char)
  | a :: b :: c :: d :: r => do
    let a ← hexValue? a
    let b ← hexValue? b
    let c ← hexValue? c
    let d ← hexValue? d
    return (a * 4096 + b * 256 + c * 16 + d, r)
  | _ => none

/-- The second half of a surrogate pair, where one follows. -/
def lowHalf? : List Char → Option (Nat × List Char)
  | '\\' :: 'u' :: r =>
    match readUnit? r with
    | some (low, r') => if 0xDC00 ≤ low ∧ low ≤ 0xDFFF then some (low, r') else none
    | none => none
  | _ => none

/-- Reads the escape after a backslash, as a code point.  A high surrogate joins the low one after
it. -/
def readEscape? : List Char → Option (Nat × List Char)
  | '"' :: r => some (0x22, r)
  | '\\' :: r => some (0x5C, r)
  | '/' :: r => some (0x2F, r)
  | 'b' :: r => some (0x08, r)
  | 'f' :: r => some (0x0C, r)
  | 'n' :: r => some (0x0A, r)
  | 'r' :: r => some (0x0D, r)
  | 't' :: r => some (0x09, r)
  | 'u' :: r =>
    match readUnit? r with
    | none => none
    | some (unit, r') =>
      if 0xD800 ≤ unit ∧ unit ≤ 0xDBFF then
        match lowHalf? r' with
        | some (low, r'') => some (0x10000 + (unit - 0xD800) * 1024 + (low - 0xDC00), r'')
        | none => some (unit, r')
      else some (unit, r')
  | _ => none

theorem length_readUnit? {cs r : List Char} {n : Nat} (h : readUnit? cs = some (n, r)) :
    cs.length = r.length + 4 := by
  unfold readUnit? at h
  split at h
  · simp only [Option.bind_eq_bind, Option.bind_eq_some_iff, Option.pure_def, Option.some.injEq,
      Prod.mk.injEq] at h
    obtain ⟨_, _, _, _, _, _, _, _, _, rfl⟩ := h
    rfl
  · simp at h

theorem length_lowHalf? {cs r : List Char} {n : Nat} (h : lowHalf? cs = some (n, r)) :
    cs.length = r.length + 6 := by
  unfold lowHalf? at h
  split at h
  · split at h
    · rename_i hu
      split at h
      · simp only [Option.some.injEq, Prod.mk.injEq] at h
        obtain ⟨-, rfl⟩ := h
        have := length_readUnit? hu
        simp only [List.length_cons]
        omega
      · simp at h
    · simp at h
  · simp at h

/-- An escape takes at least one character. -/
theorem length_readEscape?_lt {cs r : List Char} {c : Nat} (h : readEscape? cs = some (c, r)) :
    r.length < cs.length := by
  unfold readEscape? at h
  split at h
  case h_9 =>
    split at h
    · simp at h
    · rename_i hu
      have hlen := length_readUnit? hu
      split at h
      · split at h
        · rename_i hl
          have := length_lowHalf? hl
          simp only [Option.some.injEq, Prod.mk.injEq] at h
          obtain ⟨-, rfl⟩ := h
          simp only [List.length_cons]
          omega
        · simp only [Option.some.injEq, Prod.mk.injEq] at h
          obtain ⟨-, rfl⟩ := h
          simp only [List.length_cons]
          omega
      · simp only [Option.some.injEq, Prod.mk.injEq] at h
        obtain ⟨-, rfl⟩ := h
        simp only [List.length_cons]
        omega
  all_goals simp_all

/-- Reads the rest of a string after its opening quote; `acc` holds the code points of what came
before, reversed. -/
def readString? (acc : List Point) : List Char → Option (List Point × List Char)
  | [] => none
  | '"' :: r => some (acc.reverse, r)
  | '\\' :: r =>
    match h : readEscape? r with
    | none => none
    | some (c, r') =>
      have := length_readEscape?_lt h
      readString? (.ofCode c :: acc) r'
  | c :: r => if c.toNat < 32 then none else readString? (.char c :: acc) r
termination_by cs => cs.length

/-- The digits of a fraction, where a point and a digit follow. -/
def fraction? : List Char → Option (List Char × List Char)
  | '.' :: r =>
    let ds := r.takeWhile Number.Integer.isDigit
    if ds.isEmpty then none else some (ds, r.dropWhile Number.Integer.isDigit)
  | _ => none

/-- The sign and the digits of an exponent, where they follow. -/
def exponent? : List Char → Option (Int × List Char)
  | c :: r =>
    if c = 'e' ∨ c = 'E' then
      let (negative, r) := Number.Integer.cutSign r
      let ds := r.takeWhile Number.Integer.isDigit
      if ds.isEmpty then none
      else
        let n : Int := Number.Integer.digitsValue ds
        some (if negative then -n else n, r.dropWhile Number.Integer.isDigit)
    else none
  | [] => none

/-- The whole part of a number: a zero, or digits that begin with another. -/
def wholePart? : List Char → Option (List Char × List Char)
  | '0' :: r => some (['0'], r)
  | cs =>
    let ds := cs.takeWhile Number.Integer.isDigit
    if ds.isEmpty then none else some (ds, cs.dropWhile Number.Integer.isDigit)

/-- Reads a number after its sign.  One without a fraction and an exponent is an integer. -/
def readNumber (negative : Bool) (cs : List Char) : Except ReadError (Value × List Char) :=
  match wholePart? cs with
  | none => .error .malformed
  | some (whole, r) =>
    let (digits, r') := (fraction? r).getD ([], r)
    let value := Number.Integer.digitsValue (whole ++ digits)
    match exponent? r' with
    | some (e, r'') => .ok (.real (.ofDecimal negative value (e - digits.length)), r'')
    | none =>
      if !digits.isEmpty then .ok (.real (.ofDecimal negative value (-digits.length)), r')
      else if Number.Integer.maxDigits < whole.length then .error (.longInteger whole.length)
      else .ok (.int (if negative then -(value : Int) else value), r')

/-- Reads a value that is no object and no array. -/
def readAtom : List Char → Except ReadError (Value × List Char)
  | '"' :: r =>
    match readString? [] r with
    | some (ps, r') => .ok (.ofLoose (.ofPoints ps), r')
    | none => .error .malformed
  | 'n' :: 'u' :: 'l' :: 'l' :: r => .ok (.null, r)
  | 't' :: 'r' :: 'u' :: 'e' :: r => .ok (.bool true, r)
  | 'f' :: 'a' :: 'l' :: 's' :: 'e' :: r => .ok (.bool false, r)
  | 'N' :: 'a' :: 'N' :: r => .ok (.real .nan, r)
  | 'I' :: 'n' :: 'f' :: 'i' :: 'n' :: 'i' :: 't' :: 'y' :: r => .ok (.real (.infinite false), r)
  | '-' :: 'I' :: 'n' :: 'f' :: 'i' :: 'n' :: 'i' :: 't' :: 'y' :: r =>
    .ok (.real (.infinite true), r)
  | '-' :: r => readNumber true r
  | cs => readNumber false cs

mutual

/-- Reads a value at the front of the text.  The first argument bounds the length of the calls, and
`room` is the number of levels that may open inside. -/
def readValue : Nat → Nat → List Char → Except ReadError (Value × List Char)
  | 0, _, _ => .error .malformed
  | _ + 1, 0, '[' :: _ => .error (.tooDeep .array)
  | _ + 1, 0, '\x7b' :: _ => .error (.tooDeep .object)
  | fuel + 1, room + 1, '[' :: r =>
    match skipSpaces r with
    | ']' :: r' => .ok (.array [], r')
    | r' => readItems fuel room [] r'
  | fuel + 1, room + 1, '\x7b' :: r =>
    match skipSpaces r with
    | '\x7d' :: r' => .ok (.object [], r')
    | r' => readFields fuel room [] r'
  | _ + 1, _, cs => readAtom cs

/-- Reads the items of an array up to its end; `acc` holds those before, reversed. -/
def readItems : Nat → Nat → List Value → List Char → Except ReadError (Value × List Char)
  | 0, _, _, _ => .error .malformed
  | fuel + 1, room, acc, cs =>
    match readValue fuel room cs with
    | .error e => .error e
    | .ok (v, r) =>
      match skipSpaces r with
      | ',' :: r' => readItems fuel room (v :: acc) (skipSpaces r')
      | ']' :: r' => .ok (.array (v :: acc).reverse, r')
      | _ => .error .malformed

/-- Reads the fields of an object up to its end; `acc` holds those before, reversed, with the code
points of their names. -/
def readFields : Nat → Nat → List (List Point × Value) → List Char →
    Except ReadError (Value × List Char)
  | 0, _, _, _ => .error .malformed
  | fuel + 1, room, acc, '"' :: r =>
    match readString? [] r with
    | none => .error .malformed
    | some (name, r') =>
      match skipSpaces r' with
      | ':' :: r'' =>
        match readValue fuel room (skipSpaces r'') with
        | .error e => .error e
        | .ok (v, rest) =>
          let acc := (name, v) :: acc
          match skipSpaces rest with
          | ',' :: rest' => readFields fuel room acc (skipSpaces rest')
          | '\x7d' :: rest' => .ok (.ofFields (Value.collapse acc.reverse), rest')
          | _ => .error .malformed
      | _ => .error .malformed
  | _ + 1, _, _, _ => .error .malformed

end

/-- The value that a text writes.  A call takes a character or is followed by one that does, so twice
the length of the text bounds the length of the calls. -/
def read (cs : List Char) : Except ReadError Value :=
  match readValue (2 * cs.length + 2) maxDepth (skipSpaces cs) with
  | .ok (v, r) => if (skipSpaces r).isEmpty then .ok v else .error .malformed
  | .error e => .error e

end SheetBuild.Json
