import SheetBuild.Text.Utf8
set_option autoImplicit false

/-!
# Reading back what was written as UTF-8

The bytes of a character are read as that character, whatever bytes follow, and so the bytes of a
text are read as that text.  Hence two texts with the same bytes are one text.
-/

namespace SheetBuild.Text.Utf8

/-- A number below 256 survives the way through a byte. -/
theorem toNat_ofNat_of_lt {n : Nat} (h : n < 256) : (UInt8.ofNat n).toNat = n := by
  rw [UInt8.toNat_ofNat', Nat.mod_eq_of_lt h]

/-- The code point of a character is no surrogate, and at most U+10FFFF. -/
theorem toNat_bounds (c : Char) : c.toNat < 0xD800 ∨ (0xDFFF < c.toNat ∧ c.toNat < 0x110000) :=
  c.valid

/-- A byte below 128 is a character of its own. -/
theorem next_of_lt {n : Nat} (h : n < 0x80) (r : Bytes) :
    next (.ofNat n) r = (some (Char.ofNat n), r) := by
  have hn : (UInt8.ofNat n).toNat = n := toNat_ofNat_of_lt (by omega)
  simp [next, hn, h]

/-- A first byte and a second one that it admits are followed by the continuation. -/
theorem next_of_follow {b b' : Nat} {f : Follow} (hb : 0x80 ≤ b) (hb' : b < 256)
    (hf : follow? b = some f) (hlow : f.low ≤ b') (hhigh : b' ≤ f.high) (h' : b' < 256)
    (r : Bytes) :
    next (.ofNat b) (.ofNat b' :: r) = continuation f.more (f.bits * 64 + b' % 64) r := by
  have h1 : (UInt8.ofNat b).toNat = b := toNat_ofNat_of_lt hb'
  have h2 : (UInt8.ofNat b').toNat = b' := toNat_ofNat_of_lt h'
  have h3 : ¬ b < 0x80 := by omega
  simp [next, h1, h2, h3, hf, hlow, hhigh]

/-- A continuation byte adds six bits. -/
theorem continuation_succ (k v d : Nat) (hd : d < 64) (r : Bytes) :
    continuation (k + 1) v (.ofNat (0x80 + d) :: r) = continuation k (v * 64 + d) r := by
  have h1 : (UInt8.ofNat (0x80 + d)).toNat = 0x80 + d := toNat_ofNat_of_lt (by omega)
  have h2 : (0x80 + d) % 64 = d := by omega
  have h3 : 0x80 ≤ 0x80 + d ∧ 0x80 + d ≤ 0xBF := by omega
  rw [continuation, h1, if_pos h3, h2]

/-- The first byte of a character in two bytes. -/
theorem follow?_two {n : Nat} (hlow : 0x80 ≤ n) (hhigh : n < 0x800) :
    follow? (0xC0 + n / 64) = some ⟨n / 64, 0x80, 0xBF, 0⟩ := by
  unfold follow?
  rw [if_pos (by omega)]
  simp

/-- The first byte of a character in three bytes admits the second one: what it shuts out would be
an overlong form or a surrogate. -/
theorem follow?_three {n : Nat} (hlow : 0x800 ≤ n) (hhigh : n < 0x10000)
    (hn : n < 0xD800 ∨ 0xDFFF < n) :
    ∃ low high, follow? (0xE0 + n / 4096) = some ⟨n / 4096, low, high, 1⟩
      ∧ low ≤ 0x80 + n / 64 % 64 ∧ 0x80 + n / 64 % 64 ≤ high := by
  unfold follow?
  rw [if_neg (by omega)]
  by_cases e0 : 0xE0 + n / 4096 = 0xE0
  · exact ⟨0xA0, 0xBF, by rw [if_pos e0]; simp; omega, by omega, by omega⟩
  rw [if_neg e0]
  by_cases ed : 0xE0 + n / 4096 = 0xED
  · exact ⟨0x80, 0x9F, by rw [if_pos ed]; simp; omega, by omega, by omega⟩
  rw [if_neg ed, if_pos (by omega)]
  exact ⟨0x80, 0xBF, by simp, by omega, by omega⟩

/-- The first byte of a character in four bytes admits the second one: what it shuts out would be an
overlong form or beyond U+10FFFF. -/
theorem follow?_four {n : Nat} (hlow : 0x10000 ≤ n) (hhigh : n < 0x110000) :
    ∃ low high, follow? (0xF0 + n / 262144) = some ⟨n / 262144, low, high, 2⟩
      ∧ low ≤ 0x80 + n / 4096 % 64 ∧ 0x80 + n / 4096 % 64 ≤ high := by
  unfold follow?
  rw [if_neg (by omega), if_neg (by omega), if_neg (by omega), if_neg (by omega)]
  by_cases f0 : 0xF0 + n / 262144 = 0xF0
  · exact ⟨0x90, 0xBF, by rw [if_pos f0]; simp; omega, by omega, by omega⟩
  rw [if_neg f0]
  by_cases f4 : 0xF0 + n / 262144 = 0xF4
  · exact ⟨0x80, 0x8F, by rw [if_pos f4]; simp; omega, by omega, by omega⟩
  rw [if_neg f4, if_pos (by omega)]
  exact ⟨0x80, 0xBF, by simp, by omega, by omega⟩

/-- The bytes of a character begin with a byte from which that character is read. -/
theorem exists_next_encodeChar (c : Char) (r : Bytes) :
    ∃ b bs, encodeChar c = b :: bs ∧ next b (bs ++ r) = (some c, r) := by
  have hc := toNat_bounds c
  have hback : Char.ofNat c.toNat = c := Char.ofNat_toNat c
  generalize hn : c.toNat = n at hc hback
  unfold encodeChar
  simp only [hn]
  by_cases h1 : n < 0x80
  · refine ⟨.ofNat n, [], by rw [if_pos h1], ?_⟩
    rw [List.nil_append, next_of_lt h1, hback]
  rw [if_neg h1]
  by_cases h2 : n < 0x800
  · have hf := follow?_two (by omega) h2
    have hv : n / 64 * 64 + (0x80 + n % 64) % 64 = n := by omega
    refine ⟨_, _, by rw [if_pos h2], ?_⟩
    rw [List.cons_append, next_of_follow (by omega) (by omega) hf (by simp) (by simp; omega)
      (by omega), List.nil_append, continuation, hv, hback]
  rw [if_neg h2]
  by_cases h3 : n < 0x10000
  · obtain ⟨low, high, hf, hlow, hhigh⟩ := follow?_three (by omega) h3 (by omega)
    have hv : (n / 4096 * 64 + (0x80 + n / 64 % 64) % 64) * 64 + n % 64 = n := by omega
    refine ⟨_, _, by rw [if_pos h3], ?_⟩
    rw [List.cons_append, next_of_follow (by omega) (by omega) hf hlow hhigh (by omega),
      List.cons_append, continuation_succ _ _ _ (by omega), List.nil_append, continuation, hv,
      hback]
  rw [if_neg h3]
  obtain ⟨low, high, hf, hlow, hhigh⟩ := follow?_four (n := n) (by omega) (by omega)
  have hv : ((n / 262144 * 64 + (0x80 + n / 4096 % 64) % 64) * 64 + n / 64 % 64) * 64 + n % 64
      = n := by omega
  refine ⟨_, _, rfl, ?_⟩
  rw [List.cons_append, next_of_follow (by omega) (by omega) hf hlow hhigh (by omega),
    List.cons_append, continuation_succ _ _ _ (by omega), List.cons_append,
    continuation_succ _ _ _ (by omega), List.nil_append, continuation, hv, hback]

/-- The bytes of a character are read as that character, whatever follows. -/
theorem pieces_encodeChar_append (c : Char) (r : Bytes) :
    pieces (encodeChar c ++ r) = some c :: pieces r := by
  obtain ⟨b, bs, he, hnext⟩ := exists_next_encodeChar c r
  rw [he, List.cons_append, pieces, hnext]

/-- The bytes of a text are read as its characters, whatever follows. -/
theorem pieces_encode_append (cs : List Char) (r : Bytes) :
    pieces (encode cs ++ r) = cs.map some ++ pieces r := by
  induction cs with
  | nil => rfl
  | cons c cs ih =>
    rw [encode_cons, List.append_assoc, pieces_encodeChar_append, ih, List.map_cons,
      List.cons_append]

theorem pieces_encode (cs : List Char) : pieces (encode cs) = cs.map some := by
  have h := pieces_encode_append cs []
  rwa [List.append_nil, pieces, List.append_nil] at h

/-- The text that was written is shown. -/
@[simp] theorem decodeLossy_encode (cs : List Char) : decodeLossy (encode cs) = cs := by
  rw [decodeLossy, pieces_encode, List.map_map]
  exact List.map_id cs

/-- Two texts with the same bytes are one text. -/
theorem encode_injective {a b : List Char} (h : encode a = encode b) : a = b := by
  rw [← decodeLossy_encode a, h, decodeLossy_encode]

end SheetBuild.Text.Utf8
