import SheetBuild.Json.Printer
import SheetBuild.Json.Reader
set_option autoImplicit false

/-!
# Reading back texts and integers

What is written for a text between quotes is read as that text, where no two halves of a surrogate pair
in it belong together; joining those that do leaves what is written as it is.  The digits of an integer
are read as that integer, unless they are more than are read.
-/

namespace SheetBuild.Json

open SheetBuild.Number (Integer.isDigit Integer.digitsValue Integer.maxDigits)
open SheetBuild.Text (Point)
open SheetBuild.Text.Quoted (hexDigit hexDigits)

/-! ## Escapes -/

theorem hexValue?_hexDigit : ∀ {d : Nat}, d < 16 → hexValue? (hexDigit d) = some d := by
  decide

/-- Four hexadecimal digits of a number below 65536 are read as that number. -/
theorem readUnit?_hexDigits {n : Nat} (h : n < 0x10000) (r : List Char) :
    readUnit? (hexDigits 4 n ++ r) = some (n, r) := by
  have hvalue : n / 16 / 16 / 16 % 16 * 4096 + n / 16 / 16 % 16 * 256 + n / 16 % 16 * 16 + n % 16
      = n := by omega
  simp only [hexDigits, List.nil_append, List.cons_append, readUnit?]
  rw [hexValue?_hexDigit (Nat.mod_lt _ (by decide)), hexValue?_hexDigit (Nat.mod_lt _ (by decide)),
    hexValue?_hexDigit (Nat.mod_lt _ (by decide)), hexValue?_hexDigit (Nat.mod_lt _ (by decide))]
  simp only [Option.bind_eq_bind, Option.bind_some, Option.pure_def, hvalue]

/-- An escape is read as the character that it stands for. -/
theorem readString?_escape {r r' : List Char} {n : Nat} (h : readEscape? r = some (n, r'))
    (acc : List Point) : readString? acc ('\\' :: r) = readString? (.ofCode n :: acc) r' := by
  rw [readString?]
  split
  · rename_i hnone
    rw [h] at hnone
    exact absurd hnone (by simp)
  · rename_i c s hsome
    rw [h] at hsome
    obtain ⟨rfl, rfl⟩ := Prod.mk.inj (Option.some.inj hsome)
    rfl

theorem readString?_toChar {r r' : List Char} {c : Char} (h : readEscape? r = some (c.toNat, r'))
    (acc : List Point) : readString? acc ('\\' :: r) = readString? (.char c :: acc) r' := by
  rw [readString?_escape h, Point.ofCode_toNat]

/-- A character that needs no escape is read as it stands. -/
theorem readString?_plain {c : Char} (hquote : c ≠ '"') (hslash : c ≠ '\\') (hlow : ¬ c.toNat < 32)
    (acc : List Point) (r : List Char) :
    readString? acc (c :: r) = readString? (.char c :: acc) r := by
  rw [readString?]
  · rw [if_neg hlow]
  · exact hquote
  · exact hslash

/-- The escape of a 16-bit unit that is no half of a pair. -/
theorem readEscape?_unit {n : Nat} (h : n < 0xD800 ∨ 0xDFFF < n) (hn : n < 0x10000)
    (r : List Char) : readEscape? ('u' :: (hexDigits 4 n ++ r)) = some (n, r) := by
  simp only [readEscape?, readUnit?_hexDigits hn]
  rw [if_neg (by omega)]

/-- The escapes of the two halves of a pair. -/
theorem readEscape?_pair {n : Nat} (hn : n < 0x100000) (r : List Char) :
    readEscape? ('u' :: (hexDigits 4 (0xD800 + n / 1024)
      ++ '\\' :: 'u' :: (hexDigits 4 (0xDC00 + n % 1024) ++ r))) = some (0x10000 + n, r) := by
  have hhigh : 0xD800 + n / 1024 < 0x10000 := by omega
  have hlow : 0xDC00 + n % 1024 < 0x10000 := by omega
  have hvalue : 0x10000 + (0xD800 + n / 1024 - 0xD800) * 1024 + (0xDC00 + n % 1024 - 0xDC00)
      = 0x10000 + n := by omega
  simp only [readEscape?, readUnit?_hexDigits hhigh, lowHalf?, readUnit?_hexDigits hlow]
  rw [if_pos (by omega), if_pos (by omega)]
  simp only [hvalue]

/-- What is written for a character is read as that character. -/
theorem readString?_escapeChar (c : Char) (acc : List Point) (r : List Char) :
    readString? acc (escapeChar c ++ r) = readString? (.char c :: acc) r := by
  unfold escapeChar
  split
  · subst_vars
    exact readString?_toChar (by rfl) acc
  split
  · subst_vars
    exact readString?_toChar (by rfl) acc
  split
  · subst_vars
    exact readString?_toChar (by rfl) acc
  split
  · subst_vars
    exact readString?_toChar (by rfl) acc
  split
  · subst_vars
    exact readString?_toChar (by rfl) acc
  split
  · subst_vars
    exact readString?_toChar (by rfl) acc
  split
  · subst_vars
    exact readString?_toChar (by rfl) acc
  have hvalid : c.toNat < 0xD800 ∨ (0xDFFF < c.toNat ∧ c.toNat < 0x110000) := c.valid
  split
  · rename_i hquote hslash _ _ _ _ _ hprintable
    exact readString?_plain hquote hslash (by omega) acc r
  split
  · rename_i hunit
    have hescape := readEscape?_unit (n := c.toNat) (by omega) hunit r
    exact readString?_toChar hescape acc
  · rename_i hpair
    have hescape := readEscape?_pair (n := c.toNat - 0x10000) (by omega) r
    have hvalue : 0x10000 + (c.toNat - 0x10000) = c.toNat := by omega
    rw [hvalue] at hescape
    simp only [escapeUnit, List.append_assoc]
    exact readString?_toChar hescape acc

/-! ## Halves of pairs -/

theorem code_half_lt (high : Bool) (n : Fin 1024) : (Point.half high n).code < 0x10000 := by
  have hn := n.isLt
  cases high with
  | true => rw [Point.code]; omega
  | false => rw [Point.code]; omega

/-- No low half is found where the escape of another unit stands. -/
theorem lowHalf?_unit {n : Nat} (hn : n < 0x10000) (h : n < 0xDC00 ∨ 0xDFFF < n) (r : List Char) :
    lowHalf? (escapeUnit n ++ r) = none := by
  have hread : lowHalf? (escapeUnit n ++ r)
      = if 0xDC00 ≤ n ∧ n ≤ 0xDFFF then some (n, r) else none := by
    simp only [escapeUnit, List.cons_append, List.nil_append, lowHalf?, readUnit?_hexDigits hn]
  rw [hread, if_neg (by omega)]

/-- No low half is found where a character stands. -/
theorem lowHalf?_escapeChar (c : Char) (r : List Char) : lowHalf? (escapeChar c ++ r) = none := by
  have hvalid : c.toNat < 0xD800 ∨ (0xDFFF < c.toNat ∧ c.toNat < 0x110000) := c.valid
  unfold escapeChar
  split
  · rfl
  split
  · rfl
  split
  · rfl
  split
  · rfl
  split
  · rfl
  split
  · rfl
  split
  · rfl
  split
  · rename_i hslash _ _ _ _ _ _
    unfold lowHalf?
    split
    · rename_i heq
      exact absurd (List.cons.inj heq).1 hslash
    · rfl
  split
  · rename_i hunit
    exact lowHalf?_unit hunit (by omega) r
  · simp only [List.append_assoc]
    exact lowHalf?_unit (by omega) (by omega) _

/-- A code point is read as it is written, unless it is a high half that a low one follows. -/
theorem readString?_escapePoint {p : Point} {r : List Char}
    (h : ∀ n, p = .half true n → lowHalf? r = none) (acc : List Point) :
    readString? acc (escapePoint p ++ r) = readString? (p :: acc) r := by
  cases p with
  | char c => exact readString?_escapeChar c acc r
  | half high n =>
    have hunit := readUnit?_hexDigits (code_half_lt high n) r
    have hread : readEscape? ('u' :: (hexDigits 4 (Point.half high n).code ++ r))
        = some ((Point.half high n).code, r) := by
      simp only [readEscape?, hunit]
      cases high with
      | true => simp only [h n rfl, ite_self]
      | false => rw [if_neg (by simp only [Point.code]; omega)]
    have hescape := readString?_escape hread acc
    rw [Point.ofCode_code] at hescape
    exact hescape

/-- Two halves that belong together are written as the character that they make up. -/
theorem escapePoint_pair (m n : Fin 1024) :
    escapePoint (.char (Point.pair m n))
      = escapePoint (.half true m) ++ escapePoint (.half false n) := by
  have hm := m.isLt
  have hn := n.isLt
  have hcode : (Point.pair m n).toNat = 0x10000 + m * 1024 + n := by
    have hvalid : (0x10000 + m * 1024 + n : Nat).isValidChar := .inr ⟨by omega, by omega⟩
    rw [Point.pair, Char.ofNat, dif_pos hvalid]
    rfl
  have hne : ∀ c : Char, c.toNat < 0x10000 → Point.pair m n ≠ c := by
    rintro c hc rfl
    omega
  have hhigh : (0x10000 + m * 1024 + n - 0x10000 : Nat) / 1024 = m := by omega
  have hlow : (0x10000 + m * 1024 + n - 0x10000 : Nat) % 1024 = n := by omega
  rw [escapePoint, escapeChar, if_neg (hne _ (by decide)), if_neg (hne _ (by decide)),
    if_neg (hne _ (by decide)), if_neg (hne _ (by decide)), if_neg (hne _ (by decide)),
    if_neg (hne _ (by decide)), if_neg (hne _ (by decide)), hcode, if_neg (by omega),
    if_neg (by omega)]
  simp only [hhigh, hlow]
  rfl

/-- Code points are written as they are when they are joined. -/
theorem flatMap_escapePoint_joined (ps : List Point) :
    (Point.joined ps).flatMap escapePoint = ps.flatMap escapePoint := by
  fun_induction Point.joined ps with
  | case1 m n ps ih =>
    rw [List.flatMap_cons, escapePoint_pair, ih, List.append_assoc]
    rfl
  | case2 p ps hpair ih => rw [List.flatMap_cons, ih, List.flatMap_cons]
  | case3 => rfl

/-- What is written for code points is read as them, up to the quote that closes it. -/
theorem readString?_points {ps : List Point} (h : Point.areApart ps = true) (acc : List Point)
    (r : List Char) :
    readString? acc (ps.flatMap escapePoint ++ '"' :: r) = some (acc.reverse ++ ps, r) := by
  fun_induction Point.areApart ps generalizing acc with
  | case1 => exact absurd h (by simp)
  | case2 p ps hpair ih =>
    have hnext : ∀ m, p = .half true m → lowHalf? (ps.flatMap escapePoint ++ '"' :: r) = none := by
      rintro m rfl
      cases ps with
      | nil => rfl
      | cons q qs =>
        rw [List.flatMap_cons, List.append_assoc]
        cases q with
        | char c => exact lowHalf?_escapeChar c _
        | half high n =>
          cases high with
          | true =>
            refine lowHalf?_unit (code_half_lt true n) (.inl ?_) _
            have hn := n.isLt
            simp only [Point.code]
            omega
          | false => exact absurd rfl (hpair m n qs rfl)
    rw [List.flatMap_cons, List.append_assoc, readString?_escapePoint hnext, ih h]
    simp
  | case3 => rw [List.flatMap_nil, List.nil_append, readString?, List.append_nil]

/-- What is written for a text is read as its characters, up to the quote that closes it. -/
theorem readString?_flatMap (cs : List Char) (acc : List Point) (r : List Char) :
    readString? acc (cs.flatMap escapeChar ++ '"' :: r) = some (acc.reverse ++ cs.map .char, r) := by
  have hpoints := readString?_points (Point.areApart_map_char cs) acc r
  rwa [List.flatMap_map] at hpoints

theorem return_not_mem_hexDigits (width n : Nat) : '\r' ∉ hexDigits width n := by
  have hdigit : ∀ d < 16, '\r' ≠ hexDigit d := by decide
  induction width generalizing n with
  | zero => exact List.not_mem_nil
  | succ width ih =>
    rw [hexDigits, List.mem_append, List.mem_singleton]
    rintro (h | h)
    · exact ih (n / 16) h
    · exact hdigit (n % 16) (Nat.mod_lt _ (by decide)) h

theorem return_not_mem_escapeUnit (n : Nat) : '\r' ∉ escapeUnit n := by
  simp [escapeUnit, return_not_mem_hexDigits]

/-- A carriage return is always escaped. -/
theorem return_not_mem_escapeChar (c : Char) : '\r' ∉ escapeChar c := by
  unfold escapeChar
  split
  · decide
  split
  · decide
  split
  · decide
  split
  · decide
  split
  · decide
  split
  · decide
  split
  · decide
  split
  · rename_i hreturn _ _
    simpa using Ne.symm hreturn
  split
  · exact return_not_mem_escapeUnit c.toNat
  · rw [List.mem_append]
    rintro (h | h)
    · exact return_not_mem_escapeUnit _ h
    · exact return_not_mem_escapeUnit _ h

theorem return_not_mem_quotedPoints (ps : List Point) : '\r' ∉ quotedPoints ps := by
  have hbody : '\r' ∉ ps.flatMap escapePoint := by
    rw [List.mem_flatMap]
    rintro ⟨p, -, h⟩
    cases p with
    | char c => exact return_not_mem_escapeChar c h
    | half => exact return_not_mem_escapeUnit _ h
  simp [quotedPoints, hbody]

/-- A text is written as its characters are. -/
theorem quotedPoints_map_char (cs : List Char) : quotedPoints (cs.map .char) = quoted cs := by
  rw [quotedPoints, List.flatMap_map]
  rfl

theorem return_not_mem_quoted (cs : List Char) : '\r' ∉ quoted cs := by
  rw [← quotedPoints_map_char]
  exact return_not_mem_quotedPoints _

/-! ## Numbers -/

theorem isDigit_of_mem_toDigits {n : Nat} {c : Char} (h : c ∈ Nat.toDigits 10 n) :
    Integer.isDigit c = true := by
  have hdigit := Nat.isDigit_of_mem_toDigits (by decide) (by decide) h
  simp only [Char.isDigit, Bool.and_eq_true, decide_eq_true_eq] at hdigit
  simp only [Integer.isDigit, Bool.and_eq_true, decide_eq_true_eq]
  exact hdigit

/-- The digits of a positive number do not begin with a zero. -/
theorem head?_toDigits {n : Nat} (h : 0 < n) : (Nat.toDigits 10 n).head? ≠ some '0' := by
  induction n using Nat.strongRecOn with
  | ind n ih =>
    rcases Nat.lt_or_ge n 10 with hlt | hge
    · have hone : ∀ m < 10, 0 < m → some (Nat.digitChar m) ≠ some '0' := by decide
      rw [Nat.toDigits_of_lt_base hlt]
      exact hone n hlt h
    · obtain ⟨d, ds, hd⟩ := List.exists_cons_of_ne_nil (Nat.toDigits_ne_nil (n := n / 10) (b := 10))
      have hhead := ih (n / 10) (by omega) (by omega)
      rw [Nat.toDigits_of_base_le (by decide) hge]
      rw [hd] at hhead ⊢
      exact hhead

theorem digitsValue_toDigits (n : Nat) : Integer.digitsValue (Nat.toDigits 10 n) = n :=
  Nat.ofDigitChars_ten_toDigits

/-- What may follow a value: nothing, a comma, or the end of an array or object. -/
def Ends (rest : List Char) : Prop :=
  ∀ c r, rest = c :: r → c = ',' ∨ c = ']' ∨ c = '\x7d'

theorem Ends.takeWhile_isDigit {rest ds : List Char} (h : Ends rest)
    (hds : ∀ c ∈ ds, Integer.isDigit c = true) :
    (ds ++ rest).takeWhile Integer.isDigit = ds ∧ (ds ++ rest).dropWhile Integer.isDigit = rest := by
  have hstop : rest.takeWhile Integer.isDigit = [] ∧ rest.dropWhile Integer.isDigit = rest := by
    cases rest with
    | nil => exact ⟨rfl, rfl⟩
    | cons c r =>
      rcases h c r rfl with rfl | rfl | rfl
      · exact ⟨rfl, rfl⟩
      · exact ⟨rfl, rfl⟩
      · exact ⟨rfl, rfl⟩
  rw [List.takeWhile_append_of_pos hds, List.dropWhile_append_of_pos hds, hstop.1, hstop.2,
    List.append_nil]
  exact ⟨rfl, rfl⟩

/-- The digits of a number are its whole part. -/
theorem wholePart?_toDigits (n : Nat) {rest : List Char} (h : Ends rest) :
    wholePart? (Nat.toDigits 10 n ++ rest) = some (Nat.toDigits 10 n, rest) := by
  obtain ⟨htake, hdrop⟩ := h.takeWhile_isDigit fun c hc => isDigit_of_mem_toDigits (n := n) hc
  have hne : (Nat.toDigits 10 n).isEmpty = false := by
    simp [Nat.toDigits_ne_nil]
  rcases Nat.eq_zero_or_pos n with rfl | hpos
  · rfl
  · have hhead := head?_toDigits hpos
    unfold wholePart?
    split
    · rename_i r heq
      obtain ⟨d, ds, hd⟩ := List.exists_cons_of_ne_nil (Nat.toDigits_ne_nil (n := n) (b := 10))
      rw [hd] at heq hhead
      exact absurd (congrArg some (List.cons.inj heq).1) hhead
    · simp only [htake, hdrop, hne, Bool.false_eq_true, if_false]

/-- An integer is read as an integer, unless it has more digits than are read. -/
theorem readNumber_toDigits (negative : Bool) (n : Nat) {rest : List Char} (h : Ends rest) :
    readNumber negative (Nat.toDigits 10 n ++ rest) =
      if Integer.maxDigits < (Nat.toDigits 10 n).length then
        .error (.longInteger (Nat.toDigits 10 n).length)
      else .ok (.int (if negative then -(n : Int) else n), rest) := by
  have hfraction : fraction? rest = none := by
    unfold fraction?
    split
    · rename_i r
      have := h '.' r rfl
      simp at this
    · rfl
  have hexponent : exponent? rest = none := by
    unfold exponent?
    split
    · rename_i c r
      rcases h c r rfl with rfl | rfl | rfl
      · rfl
      · rfl
      · rfl
    · rfl
  unfold readNumber
  rw [wholePart?_toDigits n h]
  simp only [hfraction, Option.getD_none, hexponent, List.append_nil, digitsValue_toDigits,
    List.isEmpty_nil, Bool.not_true, Bool.false_eq_true, if_false]

/-- The first digit of a number is no bracket, space or letter. -/
theorem exists_cons_toDigits (n : Nat) :
    ∃ d ds, Nat.toDigits 10 n = d :: ds ∧ Integer.isDigit d = true := by
  obtain ⟨d, ds, hd⟩ := List.exists_cons_of_ne_nil (Nat.toDigits_ne_nil (n := n) (b := 10))
  exact ⟨d, ds, hd, isDigit_of_mem_toDigits (n := n) (by simp [hd])⟩

/-- A text that begins with a digit is read as a number. -/
theorem readAtom_of_isDigit {d : Char} (hd : Integer.isDigit d = true) (r : List Char) :
    readAtom (d :: r) = readNumber false (d :: r) := by
  have hne : ∀ c, Integer.isDigit c = false → d ≠ c := by
    rintro c hc rfl
    rw [hd] at hc
    exact absurd hc (by simp)
  unfold readAtom
  split
  case h_9 => rfl
  all_goals
    rename_i heq
    exact absurd (List.cons.inj heq).1 (hne _ rfl)

/-- A minus in front of digits is read as the sign of a number. -/
theorem readAtom_minus {d : Char} (hd : Integer.isDigit d = true) (r : List Char) :
    readAtom ('-' :: d :: r) = readNumber true (d :: r) := by
  have hne : d ≠ 'I' := by
    rintro rfl
    exact absurd hd (by decide)
  unfold readAtom
  split
  case h_7 =>
    rename_i heq
    exact absurd (List.cons.inj (List.cons.inj heq).2).1 hne
  case h_8 =>
    rename_i heq
    rw [(List.cons.inj heq).2]
  case h_9 =>
    rename_i hother
    exact absurd rfl (hother _)
  all_goals
    rename_i heq
    exact absurd (List.cons.inj heq).1 (by decide)

/-- The text of an integer is read as that integer, unless it has more digits than are read. -/
theorem readAtom_intText (i : Int) {rest : List Char} (h : Ends rest) :
    readAtom (intText i ++ rest) =
      if Integer.maxDigits < (Nat.toDigits 10 i.natAbs).length then
        .error (.longInteger (Nat.toDigits 10 i.natAbs).length)
      else .ok (.int i, rest) := by
  obtain ⟨d, ds, hd, hdigit⟩ := exists_cons_toDigits i.natAbs
  unfold intText
  split
  · have hvalue : -(i.natAbs : Int) = i := by omega
    have hread := readNumber_toDigits true i.natAbs h
    simp only [if_true, hvalue] at hread
    rw [← hread, hd]
    exact readAtom_minus hdigit (ds ++ rest)
  · have hvalue : (i.natAbs : Int) = i := by omega
    have hread := readNumber_toDigits false i.natAbs h
    simp only [Bool.false_eq_true, if_false, hvalue] at hread
    rw [← hread, hd]
    exact readAtom_of_isDigit hdigit (ds ++ rest)

/-- The text of an integer begins with a digit or a minus. -/
theorem exists_cons_intText (i : Int) :
    ∃ c r, intText i = c :: r ∧ (c = '-' ∨ Integer.isDigit c = true) := by
  obtain ⟨d, ds, hd, hdigit⟩ := exists_cons_toDigits i.natAbs
  unfold intText
  split
  · exact ⟨_, _, rfl, .inl rfl⟩
  · exact ⟨d, ds, hd, .inr hdigit⟩

theorem ne_of_begins_number {c : Char} (h : c = '-' ∨ Integer.isDigit c = true) :
    isSpace c = false ∧ c ≠ ']' ∧ c ≠ '[' ∧ c ≠ '\x7b' := by
  rcases h with rfl | h
  · decide
  · have hne : ∀ x, Integer.isDigit x = false → c ≠ x := by
      rintro x hx rfl
      rw [h] at hx
      exact absurd hx (by simp)
    refine ⟨?_, hne _ rfl, hne _ rfl, hne _ rfl⟩
    simp [isSpace, hne ' ' rfl, hne '\t' rfl, hne '\n' rfl, hne '\r' rfl]

end SheetBuild.Json
