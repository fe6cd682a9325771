set_option autoImplicit false

/-!
# UTF-8

Text and its bytes.  `encode` writes a text, `pieces` reads any byte sequence as characters and
broken spots, where a broken spot is a maximal run of bytes that begins a well-formed character and
does not finish it (or a single byte that begins none).  `decode?` accepts a byte sequence without a
broken spot, and `decodeLossy` shows each broken spot as one replacement character.
-/

namespace SheetBuild

/-- A byte sequence. -/
abbrev Bytes : Type := List UInt8

namespace Text.Utf8

/-- The bytes of one character. -/
def encodeChar (c : Char) : Bytes :=
  let n := c.toNat
  if n < 0x80 then [.ofNat n]
  else if n < 0x800 then [.ofNat (0xC0 + n / 64), .ofNat (0x80 + n % 64)]
  else if n < 0x10000 then
    [.ofNat (0xE0 + n / 4096), .ofNat (0x80 + n / 64 % 64), .ofNat (0x80 + n % 64)]
  else
    [.ofNat (0xF0 + n / 262144), .ofNat (0x80 + n / 4096 % 64), .ofNat (0x80 + n / 64 % 64),
      .ofNat (0x80 + n % 64)]

/-- The bytes of a text. -/
def encode (cs : List Char) : Bytes := cs.flatMap encodeChar

/-- What may follow the first byte of a longer character. -/
structure Follow where
  /-- the bits of the code point that the first byte holds -/
  bits : Nat
  /-- the least second byte -/
  low : Nat
  /-- the greatest second byte -/
  high : Nat
  /-- the number of bytes after the second -/
  more : Nat

/-- The continuation that a first byte asks for; `none` where no character begins with it.  The
bounds on the second byte shut out overlong forms, surrogates and code points above U+10FFFF. -/
def follow? (b : Nat) : Option Follow :=
  if 0xC2 ≤ b ∧ b ≤ 0xDF then some ⟨b - 0xC0, 0x80, 0xBF, 0⟩
  else if b = 0xE0 then some ⟨0, 0xA0, 0xBF, 1⟩
  else if b = 0xED then some ⟨0xD, 0x80, 0x9F, 1⟩
  else if 0xE1 ≤ b ∧ b ≤ 0xEF then some ⟨b - 0xE0, 0x80, 0xBF, 1⟩
  else if b = 0xF0 then some ⟨0, 0x90, 0xBF, 2⟩
  else if b = 0xF4 then some ⟨4, 0x80, 0x8F, 2⟩
  else if 0xF1 ≤ b ∧ b ≤ 0xF3 then some ⟨b - 0xF0, 0x80, 0xBF, 2⟩
  else none

/-- Reads the continuation bytes after the second; `none` is a broken spot. -/
def continuation : Nat → Nat → Bytes → Option Char × Bytes
  | 0, v, r => (some (Char.ofNat v), r)
  | _ + 1, _, [] => (none, [])
  | k + 1, v, b :: r =>
    if 0x80 ≤ b.toNat ∧ b.toNat ≤ 0xBF then continuation k (v * 64 + b.toNat % 64) r
    else (none, b :: r)

/-- Reads one character or one broken spot from the bytes after a first byte. -/
def next (b : UInt8) (r : Bytes) : Option Char × Bytes :=
  if b.toNat < 0x80 then (some (Char.ofNat b.toNat), r)
  else match follow? b.toNat, r with
    | none, _ => (none, r)
    | some _, [] => (none, [])
    | some f, b' :: r' =>
      if f.low ≤ b'.toNat ∧ b'.toNat ≤ f.high then
        continuation f.more (f.bits * 64 + b'.toNat % 64) r'
      else (none, r)

theorem length_continuation_le (k v : Nat) (r : Bytes) :
    (continuation k v r).2.length ≤ r.length := by
  fun_induction continuation k v r with
  | case1 => simp
  | case2 => simp
  | case3 _ _ _ _ _ ih => simp only [List.length_cons]; omega
  | case4 => simp

/-- Reading never gives back more than it was given. -/
theorem length_next_le (b : UInt8) (r : Bytes) : (next b r).2.length ≤ r.length := by
  unfold next
  split
  · simp
  · split
    · simp
    · simp
    · rename_i f b' r' _
      split
      · have := length_continuation_le f.more (f.bits * 64 + b'.toNat % 64) r'
        simp only [List.length_cons]
        omega
      · simp

/-- The characters of a byte sequence in order, with `none` for each broken spot. -/
def pieces : Bytes → List (Option Char)
  | [] => []
  | b :: r =>
    have := length_next_le b r
    (next b r).1 :: pieces (next b r).2
termination_by bs => bs.length
decreasing_by simp only [List.length_cons]; omega

/-- The text of a byte sequence that is UTF-8 throughout. -/
def decode? (bs : Bytes) : Option (List Char) := (pieces bs).mapM id

/-- The text of any byte sequence, with U+FFFD for each broken spot. -/
def decodeLossy (bs : Bytes) : List Char := (pieces bs).map (·.getD (Char.ofNat 0xFFFD))

@[simp] theorem encode_nil : encode [] = [] := rfl

@[simp] theorem encode_cons (c : Char) (cs : List Char) :
    encode (c :: cs) = encodeChar c ++ encode cs := rfl

end Text.Utf8

end SheetBuild
