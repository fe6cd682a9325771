import SheetBuild.Text.Base64
set_option autoImplicit false

/-!
# Reading back what was written as base64

Each character of the alphabet is read as the value that it stands for, and the values of a group as
the bytes of the group, whether it is full or padded.  So the bytes that were written are read again
(`decode_encode`).
-/

namespace SheetBuild.Text.Base64

/-- The 64 characters stand for their own values, and none of them is the pad. -/
theorem value?_digitChar {v : Nat} (h : v < 64) :
    value? (digitChar v) = some v ∧ digitChar v ≠ '=' := by
  have hall : ∀ v : Fin 64, value? (digitChar v) = some v.val ∧ digitChar v ≠ '=' := by decide
  exact hall ⟨v, h⟩

/-- What is written are characters of the alphabet and pads. -/
theorem mem_encode {bs : Bytes} {c : Char} (h : c ∈ encode bs) :
    (∃ v, v < 64 ∧ c = digitChar v) ∨ c = '=' := by
  fun_induction encode bs with
  | case1 a b c' r n ih =>
    have ha := a.toNat_lt
    have hb := b.toNat_lt
    have hc := c'.toNat_lt
    simp only [List.mem_cons] at h
    rcases h with rfl | rfl | rfl | rfl | h
    · exact .inl ⟨n / 262144, by omega, rfl⟩
    · exact .inl ⟨n / 4096 % 64, by omega, rfl⟩
    · exact .inl ⟨n / 64 % 64, by omega, rfl⟩
    · exact .inl ⟨n % 64, by omega, rfl⟩
    · exact ih h
  | case2 a b n =>
    have ha := a.toNat_lt
    have hb := b.toNat_lt
    simp only [List.mem_cons, List.not_mem_nil, or_false] at h
    rcases h with rfl | rfl | rfl | rfl
    · exact .inl ⟨n / 262144, by omega, rfl⟩
    · exact .inl ⟨n / 4096 % 64, by omega, rfl⟩
    · exact .inl ⟨n / 64 % 64, by omega, rfl⟩
    · exact .inr rfl
  | case3 a n =>
    have ha := a.toNat_lt
    simp only [List.mem_cons, List.not_mem_nil, or_false] at h
    rcases h with rfl | rfl | rfl | rfl
    · exact .inl ⟨n / 262144, by omega, rfl⟩
    · exact .inl ⟨n / 4096 % 64, by omega, rfl⟩
    · exact .inr rfl
    · exact .inr rfl
  | case4 => simp at h

theorem encode_ne_nil {bs : Bytes} (h : bs ≠ []) : encode bs ≠ [] := by
  match bs with
  | [] => exact absurd rfl h
  | [_] | [_, _] | _ :: _ :: _ :: _ => simp [encode]

/-- A value is put into the group, and reading goes on with the group after it. -/
theorem decodeFrom_digit (g : Group) (pads count : Nat) {v : Nat} (h : v < 64) (cs : List Char) :
    decodeFrom g pads count (digitChar v :: cs) =
      (decodeFrom (g.push v).2 0 (if (g.push v).1.isEmpty then count else count + 4) cs).map
        ((g.push v).1 ++ ·) := by
  obtain ⟨hvalue, hpad⟩ := value?_digitChar h
  rw [decodeFrom, if_neg hpad, hvalue]

/-- A value that does not fill its group is only put into it. -/
theorem decodeFrom_digit_of_unfilled {g g' : Group} {v : Nat} (h : v < 64) (hg : g.push v = ([], g'))
    (pads count : Nat) (cs : List Char) :
    decodeFrom g pads count (digitChar v :: cs) = decodeFrom g' 0 count cs := by
  rw [decodeFrom_digit g pads count h, hg]
  simp only [List.isEmpty_nil, if_true, List.nil_append]
  cases decodeFrom g' 0 count cs <;> rfl

/-- The bytes that a full group of values holds. -/
def triple (v w x y : Nat) : Bytes :=
  [.ofNat (v * 4 + w / 16), .ofNat (w % 16 * 16 + x / 4), .ofNat (x % 4 * 64 + y)]

/-- A full group is read as its bytes. -/
theorem decodeFrom_group (pads count : Nat) {v w x y : Nat} (hv : v < 64) (hw : w < 64) (hx : x < 64)
    (hy : y < 64) (cs : List Char) :
    decodeFrom .none pads count
        (digitChar v :: digitChar w :: digitChar x :: digitChar y :: cs) =
      (decodeFrom .none 0 (count + 4) cs).map (triple v w x y ++ ·) := by
  rw [decodeFrom_digit_of_unfilled hv rfl, decodeFrom_digit_of_unfilled hw rfl,
    decodeFrom_digit_of_unfilled hx rfl, decodeFrom_digit _ _ _ hy]
  rfl

/-- A group of three values and a pad is read as two bytes. -/
theorem decodeFrom_padded (pads count : Nat) {v w x : Nat} (hv : v < 64) (hw : w < 64) (hx : x < 64) :
    decodeFrom .none pads count [digitChar v, digitChar w, digitChar x, '='] =
      .ok [.ofNat (v * 4 + w / 16), .ofNat (w % 16 * 16 + x / 4)] := by
  rw [decodeFrom_digit_of_unfilled hv rfl, decodeFrom_digit_of_unfilled hw rfl,
    decodeFrom_digit_of_unfilled hx rfl]
  rfl

/-- A group of two values and two pads is read as one byte. -/
theorem decodeFrom_padded_twice (pads count : Nat) {v w : Nat} (hv : v < 64) (hw : w < 64) :
    decodeFrom .none pads count [digitChar v, digitChar w, '=', '='] =
      .ok [.ofNat (v * 4 + w / 16)] := by
  rw [decodeFrom_digit_of_unfilled hv rfl, decodeFrom_digit_of_unfilled hw rfl]
  rfl

/-- A byte whose number is known. -/
theorem ofNat_eq_of_toNat {n : Nat} {a : UInt8} (h : n = a.toNat) : UInt8.ofNat n = a := by
  rw [h, UInt8.ofNat_toNat]

/-- Reading gives back the bytes that were written. -/
theorem decode_encode (bs : Bytes) : decode (encode bs) = .ok bs := by
  suffices h : ∀ pads count, decodeFrom .none pads count (encode bs) = .ok bs from h 0 0
  fun_induction encode bs with
  | case1 a b c r n ih =>
    intro pads count
    have ha := a.toNat_lt
    have hb := b.toNat_lt
    have hc := c.toNat_lt
    rw [decodeFrom_group pads count (by omega) (by omega) (by omega) (by omega), ih]
    have hbytes : triple (n / 262144) (n / 4096 % 64) (n / 64 % 64) (n % 64) = [a, b, c] := by
      rw [triple, ofNat_eq_of_toNat (a := a) (by omega), ofNat_eq_of_toNat (a := b) (by omega),
        ofNat_eq_of_toNat (a := c) (by omega)]
    rw [hbytes]
    rfl
  | case2 a b n =>
    intro pads count
    have ha := a.toNat_lt
    have hb := b.toNat_lt
    rw [decodeFrom_padded pads count (by omega) (by omega) (by omega),
      ofNat_eq_of_toNat (a := a) (by omega), ofNat_eq_of_toNat (a := b) (by omega)]
  | case3 a n =>
    intro pads count
    have ha := a.toNat_lt
    rw [decodeFrom_padded_twice pads count (by omega) (by omega),
      ofNat_eq_of_toNat (a := a) (by omega)]
  | case4 =>
    intro pads count
    rfl

end SheetBuild.Text.Base64
