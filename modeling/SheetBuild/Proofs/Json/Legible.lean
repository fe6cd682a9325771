import Mathlib.Algebra.Ring.Nat
import Mathlib.Data.List.TakeWhile
import SheetBuild.Proofs.Json.Recovery
set_option autoImplicit false

/-!
# What is read is legible

The reader stops at an integer with more digits than it reads, and joins the halves of surrogate pairs that
belong together.  So the integers in a value that it gives are short, and its texts are apart
(`isLegible_of_read`).  Hence what was read once is read back from its compact text.
-/

namespace SheetBuild

/-! ## Integers -/

namespace Number.Integer

/-- Digits write a number below the power of ten that has as many zeros. -/
theorem digitsValue_lt {ds : List Char} (h : ∀ c ∈ ds, isDigit c = true) :
    digitsValue ds < 10 ^ ds.length := by
  have hfold : ∀ n, ds.foldl (fun n c => 10 * n + (c.toNat - 48)) n < (n + 1) * 10 ^ ds.length := by
    induction ds with
    | nil => exact fun n => by simp
    | cons d ds ih =>
      intro n
      obtain ⟨hd, hds⟩ := List.forall_mem_cons.1 h
      have hdigit : d.toNat - 48 < 10 := by
        simp only [isDigit, Bool.and_eq_true, decide_eq_true_eq, Char.le_def, UInt32.le_iff_toNat_le]
          at hd
        have : d.toNat ≤ 57 := hd.2
        omega
      refine Nat.lt_of_lt_of_le (ih hds _) ?_
      rw [List.length_cons, Nat.pow_succ', ← Nat.mul_assoc]
      refine Nat.mul_le_mul_right _ ?_
      show 10 * n + (d.toNat - 48) + 1 ≤ (n + 1) * 10
      omega
  have hzero := hfold 0
  rwa [Nat.zero_add, Nat.one_mul] at hzero

end Number.Integer

namespace Json

open SheetBuild.Number (Integer.isDigit Integer.maxDigits Integer.digitsValue_lt)
open SheetBuild.Text (Loose Point)

/-! ## Values -/

/-- Whether no two halves of a surrogate pair that belong together stand in a text of a value. -/
def Value.isApart (v : Value) : Bool :=
  v.every fun
    | .broken t => (Loose.broken t).isApart
    | _ => true

/-- What is read back from the text that is written for it. -/
structure Value.IsLegible (v : Value) : Prop where
  short : v.isShort = true
  apart : v.isApart = true

theorem Value.isApart_ofLoose (t : Loose) : (Value.ofLoose t).isApart = t.isApart := by
  cases t with
  | whole s => exact (Loose.isApart_whole s).symm
  | broken t => rfl

/-- What stands among fields when one was put there is that one, or stood there before. -/
theorem Value.mem_put {α : Type} [DecidableEq α] {fields : List (α × Value)} {name : α} {v : Value}
    {f : α × Value} (h : f ∈ put fields name v) : f = (name, v) ∨ f ∈ fields := by
  induction fields with
  | nil => simp_all [put]
  | cons g fields ih =>
    obtain ⟨n, w⟩ := g
    unfold put at h
    split at h <;> grind

/-- Collapsed fields are among the fields. -/
theorem Value.mem_of_mem_collapse {α : Type} [DecidableEq α] {fields : List (α × Value)}
    {f : α × Value} (h : f ∈ collapse fields) : f ∈ fields := by
  have hfold : ∀ kept, f ∈ fields.foldl (fun acc g => put acc g.1 g.2) kept →
      f ∈ kept ∨ f ∈ fields := by
    clear h
    induction fields with
    | nil => exact fun _ hf => .inl hf
    | cons g fields ih =>
      intro kept hf
      rcases ih _ hf with hkept | hlater
      · rcases mem_put hkept with rfl | hkept
        · exact .inr List.mem_cons_self
        · exact .inl hkept
      · exact .inr (List.mem_cons_of_mem _ hlater)
  exact (hfold [] h).resolve_left List.not_mem_nil

section Every

variable {p : Value → Bool}

theorem Value.mem_textFields {fields : List (Value × Value)} {f : String × Value} :
    f ∈ textFields fields ↔ (.text f.1, f.2) ∈ fields := by
  obtain ⟨name, v⟩ := f
  rw [textFields, List.mem_filterMap]
  constructor
  · rintro ⟨⟨n, w⟩, hmem, hname⟩
    cases n with
    | text s =>
      obtain ⟨rfl, rfl⟩ := Prod.mk.inj (Option.some.inj hname)
      exact hmem
    | _ => exact absurd hname (by simp)
  · intro hmem
    exact ⟨_, hmem, rfl⟩

theorem Value.every_ofFields {fields : List (List Point × Value)}
    (h : ∀ f ∈ fields, (Value.ofLoose (.ofPoints f.1)).every p = true ∧ f.2.every p = true) :
    (Value.ofFields fields).every p = true := by
  have hnamed : ∀ g ∈ fields.map fun f => (Value.ofLoose (.ofPoints f.1), f.2),
      g.1.every p = true ∧ g.2.every p = true := by
    intro g hg
    obtain ⟨f, hf, rfl⟩ := List.mem_map.1 hg
    exact h f hf
  unfold Value.ofFields
  simp only
  split
  · refine every_object.2 fun f hf => ?_
    have hname := hnamed _ (mem_textFields.1 hf)
    exact ⟨by simpa [every] using hname.1, hname.2⟩
  · exact every_torn.2 hnamed

/-- What holds of the parts of a value holds of those of what stands under a name in it. -/
theorem Value.every_of_field? {v w : Value} {name : String} (h : v.field? name = some w)
    (hv : v.every p = true) : w.every p = true := by
  obtain ⟨fields, hfields, hlookup⟩ := Option.bind_eq_some_iff.1 h
  obtain ⟨f, hfound, rfl⟩ := Option.map_eq_some_iff.1 hlookup
  have hf : f ∈ fields := List.mem_of_find?_eq_some hfound
  unfold Value.fields? at hfields
  split at hfields
  · obtain rfl := Option.some.inj hfields
    exact (every_object.1 hv f hf).2
  · obtain rfl := Option.some.inj hfields
    exact (every_torn.1 hv _ (mem_textFields.1 hf)).2
  · exact absurd hfields (by simp)

end Every

/-- What stands under a name of a legible value is legible. -/
theorem Value.IsLegible.of_field? {v w : Value} {name : String} (h : v.field? name = some w)
    (hv : v.IsLegible) : w.IsLegible :=
  ⟨every_of_field? h hv.short, every_of_field? h hv.apart⟩

/-! ## Reading -/

/-- What a reading gives satisfies a condition in all its parts. -/
def Gives (p : Value → Bool) (x : Except ReadError (Value × List Char)) : Prop :=
  ∀ v r, x = .ok (v, r) → v.every p = true

section Gives

variable {p : Value → Bool}

theorem gives_ok {v : Value} {r : List Char} (h : v.every p = true) : Gives p (.ok (v, r)) := by
  intro w s heq
  rw [← (Prod.mk.inj (Except.ok.inj heq)).1]
  exact h

theorem gives_error (e : ReadError) : Gives p (.error e) := fun _ _ h => absurd h (by simp)

/-- The names of fields are read as texts are. -/
theorem Gives.name (hatoms : ∀ cs, Gives p (readAtom cs)) {ps : List Point} {cs r : List Char}
    (h : readString? [] cs = some (ps, r)) : (Value.ofLoose (.ofPoints ps)).every p = true := by
  refine hatoms ('"' :: cs) _ r ?_
  simp only [readAtom, h]

/-- What holds of all atoms that are read holds of all parts of the values, items and fields that are
read; of those in front of them it holds already. -/
theorem gives_readers (hatoms : ∀ cs, Gives p (readAtom cs)) (fuel : Nat) :
    (∀ room cs, Gives p (readValue fuel room cs)) ∧
      (∀ room acc cs, (∀ v ∈ acc, v.every p = true) → Gives p (readItems fuel room acc cs)) ∧
      ∀ room acc cs,
        (∀ f ∈ acc, (Value.ofLoose (.ofPoints f.1)).every p = true ∧ f.2.every p = true) →
          Gives p (readFields fuel room acc cs) := by
  induction fuel with
  | zero =>
    refine ⟨fun room cs => ?_, fun room acc cs _ => ?_, fun room acc cs _ => ?_⟩
    · rw [readValue.eq_def]
      exact gives_error _
    · rw [readItems]
      exact gives_error _
    · rw [readFields.eq_def]
      exact gives_error _
  | succ fuel ih =>
    -- each reader calls the others with less fuel, whatever room is left for brackets
    obtain ⟨hvalue, hitems, hfields⟩ := ih
    refine ⟨fun room cs => ?_, fun room acc cs hacc => ?_, fun room acc cs hacc => ?_⟩
    · rw [readValue.eq_def]
      split
      · exact gives_error _
      · exact gives_error _
      · exact gives_error _
      · rename_i hfuel
        obtain rfl := Nat.succ.inj hfuel
        split
        · exact gives_ok (by simp [Value.every, Value.everyItem])
        · exact hitems _ [] _ (by simp)
      · rename_i hfuel
        obtain rfl := Nat.succ.inj hfuel
        split
        · exact gives_ok (by simp [Value.every, Value.everyField])
        · exact hfields _ [] _ (by simp)
      · exact hatoms _
    · rw [readItems]
      split
      · exact gives_error _
      · rename_i v r hv
        have hevery : ∀ w ∈ v :: acc, w.every p = true :=
          List.forall_mem_cons.2 ⟨hvalue _ _ _ _ hv, hacc⟩
        split
        · exact hitems _ _ _ hevery
        · refine gives_ok ?_
          exact Value.every_array.2 fun w hw => hevery w (List.mem_reverse.1 hw)
        · exact gives_error _
    · rw [readFields.eq_def]
      split
      · exact gives_error _
      · rename_i hfuel
        obtain rfl := Nat.succ.inj hfuel
        split
        · exact gives_error _
        split
        · split
          · exact gives_error _
          rename_i name _ hname _ _ _ _ v _ hv
          have hevery : ∀ f ∈ (name, v) :: _,
              (Value.ofLoose (.ofPoints f.1)).every p = true ∧ f.2.every p = true :=
            List.forall_mem_cons.2 ⟨⟨Gives.name hatoms hname, hvalue _ _ _ _ hv⟩, hacc⟩
          simp only
          split
          · exact hfields _ _ _ hevery
          · refine gives_ok (Value.every_ofFields fun f hf => ?_)
            exact hevery f (List.mem_reverse.1 (Value.mem_of_mem_collapse hf))
          · exact gives_error _
        · exact gives_error _
      · exact gives_error _

theorem every_of_read (hatoms : ∀ cs, Gives p (readAtom cs)) {cs : List Char} {v : Value}
    (h : Json.read cs = .ok v) : v.every p = true := by
  unfold Json.read at h
  split at h
  · rename_i w r hread
    split at h
    · exact Except.ok.inj h ▸ (gives_readers hatoms _).1 _ _ _ _ hread
    · exact absurd h (by simp)
  · exact absurd h (by simp)

end Gives

/-! ## Atoms -/

/-- The whole part of a number are digits. -/
theorem isDigit_of_wholePart? {cs whole r : List Char} (h : wholePart? cs = some (whole, r)) :
    ∀ c ∈ whole, Integer.isDigit c = true := by
  unfold wholePart? at h
  split at h
  · obtain ⟨rfl, -⟩ := Prod.mk.inj (Option.some.inj h)
    simp only [List.mem_singleton, forall_eq]
    rfl
  · simp only at h
    split at h
    · exact absurd h (by simp)
    · obtain ⟨rfl, -⟩ := Prod.mk.inj (Option.some.inj h)
      exact fun c hc => List.mem_takeWhile_imp hc

/-- A number that is read as an integer is short, and no number is a text. -/
theorem isLegible_of_readNumber {negative : Bool} {cs r : List Char} {v : Value}
    (h : readNumber negative cs = .ok (v, r)) : v.isShort = true ∧ v.isApart = true := by
  unfold readNumber at h
  split at h
  · exact absurd h (by simp)
  · rename_i whole rest hwhole
    simp only at h
    split at h
    · obtain ⟨rfl, -⟩ := Prod.mk.inj (Except.ok.inj h)
      exact ⟨rfl, rfl⟩
    split at h
    · obtain ⟨rfl, -⟩ := Prod.mk.inj (Except.ok.inj h)
      exact ⟨rfl, rfl⟩
    split at h
    · exact absurd h (by simp)
    · rename_i hfraction hlimit
      obtain ⟨rfl, -⟩ := Prod.mk.inj (Except.ok.inj h)
      have hempty : ((fraction? rest).getD ([], rest)).1 = [] := by simpa using hfraction
      have hdigits := Integer.digitsValue_lt (isDigit_of_wholePart? hwhole)
      -- without a fraction the digits of the whole part are all there are, and these are few enough
      refine ⟨decide_eq_true ((Nat.length_toDigits_le_iff (by decide) (by decide)).2 ?_), rfl⟩
      rw [hempty, List.append_nil]
      have hbound : 10 ^ whole.length ≤ 10 ^ Integer.maxDigits :=
        Nat.pow_le_pow_right (by decide) (by omega)
      refine lt_of_eq_of_lt ?_ (Nat.lt_of_lt_of_le hdigits hbound)
      cases negative <;> simp

/-- No low half is found behind the high half that an escape comes to. -/
theorem lowHalf?_of_readEscape? {cs r : List Char} {n : Nat} (h : readEscape? cs = some (n, r))
    (hhigh : ∃ m, Point.ofCode n = .half true m) : lowHalf? r = none := by
  have hbetween : 0xD800 ≤ n ∧ n < 0xDC00 := by
    obtain ⟨m, hm⟩ := hhigh
    unfold Point.ofCode at hm
    split at hm
    · have hlow : decide (n < 0xDC00) = true := (Point.half.inj hm).1
      exact ⟨by omega, of_decide_eq_true hlow⟩
    · exact absurd hm (by simp)
  unfold readEscape? at h
  split at h
  case h_9 =>
    split at h
    · exact absurd h (by simp)
    · rename_i unit r' hunit
      split at h
      · split at h
        · rename_i low r'' hlow
          obtain ⟨rfl, -⟩ := Prod.mk.inj (Option.some.inj h)
          omega
        · rename_i hnone
          obtain ⟨-, rfl⟩ := Prod.mk.inj (Option.some.inj h)
          exact hnone
      · obtain ⟨rfl, -⟩ := Prod.mk.inj (Option.some.inj h)
        omega
  case h_10 => exact absurd h (by simp)
  all_goals
    obtain ⟨rfl, -⟩ := Prod.mk.inj (Option.some.inj h)
    omega

/-- A low half is found where an escape comes to one. -/
theorem lowHalf?_ne_none {cs r : List Char} {c : Nat} {n : Fin 1024}
    (h : readEscape? cs = some (c, r)) (hlow : Point.ofCode c = .half false n) :
    lowHalf? ('\\' :: cs) ≠ none := by
  have hbetween : 0xDC00 ≤ c ∧ c ≤ 0xDFFF := by
    unfold Point.ofCode at hlow
    split at hlow
    · have hhigh : decide (c < 0xDC00) = false := (Point.half.inj hlow).1
      have := of_decide_eq_false hhigh
      omega
    · exact absurd hlow (by simp)
  unfold readEscape? at h
  split at h
  case h_9 =>
    split at h
    · exact absurd h (by simp)
    · rename_i unit r' hunit
      have hunit_eq : unit = c := by
        split at h
        · split at h
          · have := (Prod.mk.inj (Option.some.inj h)).1
            omega
          · exact (Prod.mk.inj (Option.some.inj h)).1
        · exact (Prod.mk.inj (Option.some.inj h)).1
      rw [lowHalf?, hunit]
      simp [hunit_eq, hbetween]
  case h_10 => exact absurd h (by simp)
  all_goals
    obtain ⟨rfl, -⟩ := Prod.mk.inj (Option.some.inj h)
    omega

/-- The code points that are read are apart; and they begin with a low half only where one is found. -/
theorem areApart_of_readString? {acc ps : List Point} {cs r : List Char}
    (h : readString? acc cs = some (ps, r)) :
    ∃ qs, ps = acc.reverse ++ qs ∧ Point.areApart qs = true ∧
      ∀ n qs', qs = .half false n :: qs' → lowHalf? cs ≠ none := by
  induction acc, cs using readString?.induct with
  | case1 acc => exact absurd h (by simp [readString?])
  | case2 acc r =>
    rw [readString?] at h
    obtain ⟨rfl, -⟩ := Prod.mk.inj (Option.some.inj h)
    exact ⟨[], by simp, rfl, fun n qs' heq => absurd heq (by simp)⟩
  | case3 acc r hnone =>
    rw [readString?] at h
    split at h
    · exact absurd h (by simp)
    · rename_i hsome
      exact absurd (hnone.symm.trans hsome) (by simp)
  | case4 acc r c r' hescape _ ih =>
    rw [readString?] at h
    split at h
    · exact absurd h (by simp)
    rename_i c' r'' hescape'
    obtain ⟨rfl, rfl⟩ := Prod.mk.inj (Option.some.inj (hescape'.symm.trans hescape))
    obtain ⟨qs, hps, hapart, hlow⟩ := ih h
    refine ⟨Point.ofCode c' :: qs, by rw [hps]; simp, Point.areApart_cons hapart ?_, ?_⟩
    · intro m n qs' hhigh hqs
      exact hlow n qs' hqs (lowHalf?_of_readEscape? hescape ⟨m, hhigh⟩)
    · intro n qs' heq
      exact lowHalf?_ne_none hescape (List.cons.inj heq).1
  | case5 acc c r hquote hslash hcontrol =>
    rw [readString?] at h
    · rw [if_pos hcontrol] at h
      exact absurd h (by simp)
    · exact hquote
    · exact hslash
  | case6 acc c r hquote hslash hcontrol ih =>
    rw [readString?] at h
    · rw [if_neg hcontrol] at h
      obtain ⟨qs, hps, hapart, -⟩ := ih h
      refine ⟨.char c :: qs, by rw [hps]; simp, Point.areApart_cons hapart ?_, ?_⟩
      · intro m n qs' hhigh
        exact absurd hhigh (by simp)
      · intro n qs' heq
        exact absurd (List.cons.inj heq).1 (by simp)
    · exact hquote
    · exact hslash

/-- The texts and numbers that are read satisfy both conditions. -/
theorem isLegible_of_readAtom {cs r : List Char} {v : Value} (h : readAtom cs = .ok (v, r)) :
    v.isShort = true ∧ v.isApart = true := by
  unfold readAtom at h
  split at h
  · split at h
    · rename_i ps r' hread
      obtain ⟨rfl, -⟩ := Prod.mk.inj (Except.ok.inj h)
      obtain ⟨qs, rfl, hapart, -⟩ := areApart_of_readString? hread
      refine ⟨Value.isShort_ofLoose _, ?_⟩
      rw [Value.isApart_ofLoose, Loose.isApart, Loose.points_ofPoints]
      exact hapart
    · exact absurd h (by simp)
  case h_8 => exact isLegible_of_readNumber h
  case h_9 => exact isLegible_of_readNumber h
  all_goals
    obtain ⟨rfl, -⟩ := Prod.mk.inj (Except.ok.inj h)
    exact ⟨rfl, rfl⟩

/-- What is read is legible. -/
theorem isLegible_of_read {cs : List Char} {v : Value} (h : Json.read cs = .ok v) : v.IsLegible where
  short := every_of_read (fun _ _ _ hatom => (isLegible_of_readAtom hatom).1) h
  apart := every_of_read (fun _ _ _ hatom => (isLegible_of_readAtom hatom).2) h

end Json

end SheetBuild
