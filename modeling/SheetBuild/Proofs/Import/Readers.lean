import SheetBuild.Import.Scan
set_option autoImplicit false

/-!
# What the readers of the scanner do

The readers of `Import.Scan` one move at a time: an equation for each, without the bookkeeping of its
termination, and where it stops.  A token is read by what it is made of, so it is read alike wherever
it stands and whatever comes behind it (`readStringBody_local`, `readUrlBody_local`,
`readTarget_local`).  Inside a rule of the indented spelling a comment ends with its line
(`Cursor.Inside`).
-/

namespace SheetBuild.Import

/-! ## Comments -/

theorem skipNested_line {indent : Nat} {past r : List Char}
    (h : isNested indent (r.takeWhile (· ≠ '\n')) = true) :
    skipNested indent ⟨past, '\n' :: r⟩
      = skipNested indent
          ⟨(r.takeWhile (· ≠ '\n')).reverse ++ '\n' :: past, r.dropWhile (· ≠ '\n')⟩ := by
  rw [skipNested]
  simp only [if_pos h, Cursor.moveOver, List.reverse_cons, List.append_assoc,
    List.singleton_append]

theorem skipNested_of_not {indent : Nat} {past r : List Char}
    (h : isNested indent (r.takeWhile (· ≠ '\n')) = false) :
    skipNested indent ⟨past, '\n' :: r⟩ = ⟨past, '\n' :: r⟩ := by
  rw [skipNested]
  simp only [h, Bool.false_eq_true, if_false]

/-- There are no lines below where no line ends. -/
theorem skipNested_stop {indent : Nat} {c : Cursor} (h : ∀ r, c.rest ≠ '\n' :: r) :
    skipNested indent c = c := by
  rw [skipNested]
  split
  · rename_i r hr
    exact absurd hr (h r)
  · rfl

/-! ## Gaps -/

/-- Whether the text begins with a comment. -/
def startsComment : List Char → Bool
  | ch :: ch' :: _ => ch = '/' && (ch' = '/' || ch' = '*')
  | _ => false

theorem startsComment_iff {cs : List Char} :
    startsComment cs = true ↔ ∃ r, cs = '/' :: '/' :: r ∨ cs = '/' :: '*' :: r := by
  match cs with
  | [] => simp [startsComment]
  | [ch] => simp [startsComment]
  | ch :: ch' :: r =>
    simp only [startsComment, Bool.and_eq_true, Bool.or_eq_true, decide_eq_true_eq,
      List.cons.injEq]
    constructor
    · rintro ⟨rfl, rfl | rfl⟩
      · exact ⟨r, .inl ⟨rfl, rfl, rfl⟩⟩
      · exact ⟨r, .inr ⟨rfl, rfl, rfl⟩⟩
    · rintro ⟨r', ⟨rfl, rfl, -⟩ | ⟨rfl, rfl, -⟩⟩
      · exact ⟨rfl, .inl rfl⟩
      · exact ⟨rfl, .inr rfl⟩

/-- The text begins with neither white space nor a comment. -/
structure Stops (newlines : Bool) (rest : List Char) : Prop where
  noComment : startsComment rest = false
  noGap : ∀ ch ∈ rest.head?, isGap newlines ch = false

section Gap

variable {indented newlines : Bool} {past r : List Char}

theorem skipGap_line :
    skipGap indented newlines ⟨past, '/' :: '/' :: r⟩
      = skipGap indented newlines (skipLineComment indented ⟨past, '/' :: '/' :: r⟩) := by
  rw [skipGap]
  rfl

theorem skipGap_block :
    skipGap indented newlines ⟨past, '/' :: '*' :: r⟩
      = (skipBlockBody indented ⟨past, '/' :: '*' :: r⟩ ('*' :: '/' :: past) r).bind
          (skipGap indented newlines) := by
  rw [skipGap]
  split
  · rename_i heq
    exact absurd (List.cons.inj (List.cons.inj heq).2).1 (by decide)
  · rename_i heq
    obtain rfl := (List.cons.inj (List.cons.inj heq).2).2
    split
    · rename_i hb
      simp only at hb
      rw [hb]
      rfl
    · rename_i hb
      simp only at hb
      rw [hb]
      rfl
  · rename_i hblock heq
    obtain ⟨rfl, rfl⟩ := List.cons.inj heq
    exact absurd rfl (hblock r rfl)
  · rename_i heq
    exact absurd heq (by simp)

theorem skipGap_gap {ch : Char} (h : isGap newlines ch = true) :
    skipGap indented newlines ⟨past, ch :: r⟩ = skipGap indented newlines ⟨ch :: past, r⟩ := by
  rw [skipGap]
  split
  · rename_i heq
    obtain ⟨rfl, -⟩ := List.cons.inj heq
    exact absurd h (by simp [isGap])
  · rename_i heq
    obtain ⟨rfl, -⟩ := List.cons.inj heq
    exact absurd h (by simp [isGap])
  · rename_i heq
    obtain ⟨rfl, rfl⟩ := List.cons.inj heq
    rw [if_pos h]
  · rename_i heq
    exact absurd heq (by simp)

theorem skipGap_gaps {ms : List Char} (h : ∀ ch ∈ ms, isGap newlines ch = true) :
    skipGap indented newlines ⟨past, ms ++ r⟩
      = skipGap indented newlines ⟨ms.reverse ++ past, r⟩ := by
  induction ms generalizing past with
  | nil => rfl
  | cons ch ms ih =>
    rw [List.forall_mem_cons] at h
    rw [List.cons_append, skipGap_gap h.1, ih h.2, List.reverse_cons, List.append_assoc,
      List.singleton_append]

theorem skipGap_stop {c : Cursor} (h : Stops newlines c.rest) :
    skipGap indented newlines c = .ok c := by
  obtain ⟨hcomment, hgap⟩ := h
  rw [skipGap]
  split
  · rename_i heq
    simp [heq, startsComment] at hcomment
  · rename_i heq
    simp [heq, startsComment] at hcomment
  · rename_i ch r _ _ heq
    have hch : isGap newlines ch = false := hgap ch (by simp [heq])
    rw [if_neg (by simp [hch])]
  · rfl

/-- A text stops where its first two characters open no comment and the first is no gap. -/
theorem stops_of_cons {ch : Char} (hline : ∀ r', ch = '/' → r = '/' :: r' → False)
    (hblock : ∀ r', ch = '/' → r = '*' :: r' → False) (hgap : isGap newlines ch ≠ true) :
    Stops newlines (ch :: r) := by
  refine ⟨?_, by simpa using hgap⟩
  cases r with
  | nil => rfl
  | cons ch' r =>
    simp only [startsComment, Bool.and_eq_false_imp, decide_eq_true_eq, Bool.or_eq_false_iff,
      decide_eq_false_iff_not]
    intro hch
    exact ⟨fun h => hline r hch (by rw [h]), fun h => hblock r hch (by rw [h])⟩

theorem stops_nil : Stops newlines [] := ⟨rfl, by simp⟩

/-- White space and comments are skipped to the end. -/
theorem stops_of_skipGap {c d : Cursor} (h : skipGap indented newlines c = .ok d) :
    Stops newlines d.rest := by
  fun_induction skipGap indented newlines c with
  | case1 c r hr ih => exact ih h
  | case2 => simp at h
  | case3 c r hr d' hb ih => exact ih h
  | case4 c ch r _ _ hr hgap ih => exact ih h
  | case5 c ch r hline hblock hr hgap =>
    obtain rfl := Except.ok.inj h
    exact hr ▸ stops_of_cons hline hblock hgap
  | case6 c hr =>
    obtain rfl := Except.ok.inj h
    exact hr ▸ stops_nil

/-- In the indented spelling every comment ends. -/
theorem exists_skipBlockBody (opening : Cursor) (past r : List Char) :
    ∃ d, skipBlockBody true opening past r = .ok d := by
  fun_induction skipBlockBody true opening past r with
  | case1 => exact ⟨_, rfl⟩
  | case2 _ h => exact absurd rfl h
  | case3 => exact ⟨_, rfl⟩
  | case4 => exact ⟨_, rfl⟩
  | case5 _ _ _ _ _ ih => exact ih

theorem exists_skipGap (newlines : Bool) (c : Cursor) : ∃ d, skipGap true newlines c = .ok d := by
  fun_induction skipGap true newlines c with
  | case1 _ _ _ ih => exact ih
  | case2 c r hr e hb =>
    obtain ⟨d, hd⟩ := exists_skipBlockBody c ('*' :: '/' :: c.past) r
    rw [hd] at hb
    exact absurd hb (by simp)
  | case3 _ _ _ _ _ ih => exact ih
  | case4 _ _ _ _ _ _ _ ih => exact ih
  | case5 => exact ⟨_, rfl⟩
  | case6 => exact ⟨_, rfl⟩

end Gap

/-! ## Tokens -/

/-- Where a tail begins with none of the characters that are taken, none of it is taken. -/
theorem takeWhile_append_tail {p : Char → Bool} {tail : List Char}
    (h : ∀ ch ∈ tail.head?, p ch = false) (rest : List Char) :
    (rest ++ tail).takeWhile p = rest.takeWhile p ∧
      (rest ++ tail).dropWhile p = rest.dropWhile p ++ tail := by
  induction rest with
  | nil =>
    cases tail with
    | nil => simp
    | cons ch r => simp [h ch rfl]
  | cons ch rest ih =>
    cases hch : p ch with
    | true => simp [hch, ih]
    | false => simp [hch]

namespace Cursor

/-- From the first cursor to the second one moves over these characters. -/
structure Over (ms : List Char) (c d : Cursor) : Prop where
  rest_eq : c.rest = ms ++ d.rest
  past_eq : d.past = ms.reverse ++ c.past

theorem Over.eq {ms : List Char} {c d : Cursor} (h : Over ms c d) :
    d = ⟨ms.reverse ++ c.past, d.rest⟩ := by
  rw [← h.past_eq]

theorem Over.between_eq {ms : List Char} {c d : Cursor} (h : Over ms c d) : between c d = ms := by
  rw [between, h.rest_eq, List.length_append, Nat.add_sub_cancel, List.take_left]

theorem Over.cons {ms past r : List Char} {ch : Char} {d : Cursor} (h : Over ms ⟨ch :: past, r⟩ d) :
    Over (ch :: ms) ⟨past, ch :: r⟩ d := by
  obtain ⟨hr, hp⟩ := h
  exact ⟨congrArg (ch :: ·) hr, by simpa using hp⟩

theorem Over.trans {ms ns : List Char} {c d e : Cursor} (h : Over ms c d) (h' : Over ns d e) :
    Over (ms ++ ns) c e :=
  ⟨by rw [h.rest_eq, h'.rest_eq, List.append_assoc],
    by rw [h'.past_eq, h.past_eq, List.reverse_append, List.append_assoc]⟩

theorem over_skipWhile (p : Char → Bool) (c : Cursor) :
    Over (c.rest.takeWhile p) c (c.skipWhile p) :=
  ⟨List.takeWhile_append_dropWhile.symm, rfl⟩

end Cursor

open Cursor (Over)

/-- A string is read by what stands in it, wherever it stands and whatever comes behind it. -/
theorem readStringBody_local {opening : Cursor} {quote : Char} {acc past r s : List Char}
    {f : Cursor} (h : readStringBody opening quote acc past r = .ok (s, f)) :
    ∃ ms, Over (ms ++ [quote]) ⟨past, r⟩ f ∧ ∀ opening' past' rest',
      readStringBody opening' quote acc past' (ms ++ quote :: rest')
        = .ok (s, ⟨quote :: (ms.reverse ++ past'), rest'⟩) := by
  fun_induction readStringBody opening quote acc past r with
  | case1 => simp at h
  | case2 acc past r =>
    obtain ⟨rfl, rfl⟩ := Prod.mk.inj (Except.ok.inj h)
    refine ⟨[], ⟨rfl, rfl⟩, ?_⟩
    intro opening' past' rest'
    rw [List.nil_append, readStringBody.eq_def]
    simp
  | case3 => simp at h
  | case4 => simp at h
  | case5 acc past ch r hq hn ih =>
    obtain ⟨ms, hover, hread⟩ := ih h
    refine ⟨'\\' :: ch :: ms, hover.cons.cons, ?_⟩
    intro opening' past' rest'
    rw [List.cons_append, List.cons_append, readStringBody, if_neg hq, if_neg hn, if_pos rfl, hread]
    simp
  | case6 acc past ch r hq hn hb ih =>
    obtain ⟨ms, hover, hread⟩ := ih h
    refine ⟨ch :: ms, hover.cons, ?_⟩
    intro opening' past' rest'
    rw [List.cons_append, readStringBody.eq_def]
    simp only [if_neg hq, if_neg hn, if_neg hb, hread]
    simp

theorem readUrlBody_nil (opening : Cursor) (past : List Char) :
    readUrlBody opening ⟨past, []⟩ = .error (opening.unclosed .url) := by
  rw [readUrlBody]

theorem readUrlBody_cons (opening : Cursor) (past : List Char) (ch : Char) (r : List Char) :
    readUrlBody opening ⟨past, ch :: r⟩ =
      if isQuote ch then
        (readStringBody ⟨past, ch :: r⟩ ch [] (ch :: past) r).bind fun p => readUrlBody opening p.2
      else if ch = '\n' then .error (opening.unclosed .url)
      else if ch = ')' then .ok ⟨ch :: past, r⟩
      else readUrlBody opening ⟨ch :: past, r⟩ := by
  rw [readUrlBody]
  split
  · rename_i h
    exact absurd h (by simp)
  · rename_i ch' r' h
    obtain ⟨rfl, rfl⟩ := List.cons.inj h
    congr 1
    split
    · rename_i hs
      rw [hs, Except.bind]
    · rename_i hs
      rw [hs, Except.bind]

/-- A `url(…)` is read by what stands in it. -/
theorem readUrlBody_local {opening c f : Cursor} (h : readUrlBody opening c = .ok f) :
    ∃ ms, Over (ms ++ [')']) c f ∧ ∀ opening' past' rest',
      readUrlBody opening' ⟨past', ms ++ ')' :: rest'⟩
        = .ok ⟨')' :: (ms.reverse ++ past'), rest'⟩ := by
  fun_induction readUrlBody opening c with
  | case1 | case2 | case4 => simp at h
  | case3 c ch r hr hq s d hs ih =>
    obtain ⟨past, rest⟩ := c
    subst hr
    obtain ⟨ms, hover, hread⟩ := ih h
    obtain ⟨ns, hover', hread'⟩ := readStringBody_local hs
    refine ⟨ch :: (ns ++ ch :: ms), ?_, ?_⟩
    · simpa using (hover'.trans hover).cons
    · intro opening' past' rest'
      rw [List.cons_append, readUrlBody_cons, if_pos hq, List.append_assoc, List.cons_append,
        hread', Except.bind, hread]
      simp
  | case5 c r hr hq hn =>
    obtain ⟨past, rest⟩ := c
    subst hr
    obtain rfl := Except.ok.inj h
    refine ⟨[], ⟨rfl, rfl⟩, ?_⟩
    intro opening' past' rest'
    rw [List.nil_append, readUrlBody_cons, if_neg hq, if_neg hn, if_pos rfl]
    rfl
  | case6 c ch r hr hq hn hp ih =>
    obtain ⟨past, rest⟩ := c
    subst hr
    obtain ⟨ms, hover, hread⟩ := ih h
    refine ⟨ch :: ms, hover.cons, ?_⟩
    intro opening' past' rest'
    rw [List.cons_append, readUrlBody_cons, if_neg hq, if_neg hn, if_neg hp, hread]
    simp

/-- The text begins with nothing that an unquoted reference could go on with. -/
def StopsBare (rest : List Char) : Prop := ∀ ch ∈ rest.head?, endsBare ch = true

theorem startsUrl_iff {cs : List Char} : startsUrl cs = true ↔ ∃ r, cs = ['u', 'r', 'l', '('] ++ r := by
  constructor
  · intro h
    unfold startsUrl at h
    split at h
    · exact ⟨_, rfl⟩
    · simp at h
  · rintro ⟨r, rfl⟩
    rfl

/-- What follows an unquoted reference does not make a `url(…)` of it. -/
theorem startsUrl_append {ms r : List Char} (h : StopsBare r) :
    startsUrl (ms ++ r) = startsUrl ms := by
  rw [Bool.eq_iff_iff, startsUrl_iff, startsUrl_iff]
  constructor
  · rintro ⟨r', hr'⟩
    rcases List.append_eq_append_iff.1 hr' with ⟨mid, hmid, rfl⟩ | ⟨mid, rfl, -⟩
    · cases mid with
      | nil => exact ⟨[], by simp [hmid]⟩
      | cons ch mid =>
        have hch : endsBare ch = true := h ch rfl
        have hmem : ch ∈ ['u', 'r', 'l', '('] := by rw [hmid]; simp
        simp only [List.mem_cons, List.not_mem_nil, or_false] at hmem
        rcases hmem with rfl | rfl | rfl | rfl <;> simp [endsBare] at hch
    · exact ⟨mid, rfl⟩
  · rintro ⟨r', rfl⟩
    exact ⟨r' ++ r, by simp⟩

/-- What begins with `url(` still does when the text behind its parenthesis changes. -/
theorem startsUrl_congr {ms r r' : List Char} (h : startsUrl (ms ++ ')' :: r) = true) :
    startsUrl (ms ++ ')' :: r') = true := by
  obtain ⟨t, ht⟩ := startsUrl_iff.1 h
  rcases List.append_eq_append_iff.1 ht with ⟨mid, hmid, ht'⟩ | ⟨mid, rfl, -⟩
  · cases mid with
    | nil => exact startsUrl_iff.2 ⟨')' :: r', by simp [hmid]⟩
    | cons ch mid =>
      have hch : ch = ')' := (List.cons.inj ht').1.symm
      have hmem : ch ∈ ['u', 'r', 'l', '('] := by rw [hmid]; simp
      exact absurd (hch ▸ hmem) (by decide)
  · exact startsUrl_iff.2 ⟨mid ++ ')' :: r', by simp⟩

/-! ## Inside a rule -/

namespace Cursor

/-- Something other than indentation stands before the cursor on its line. -/
def Inside (c : Cursor) : Prop := c.lineFront.all isIndent = false

theorem Inside.indent?_eq {c : Cursor} (h : c.Inside) : c.indent? = none := by
  rw [indent?, h]
  rfl

/-- A cursor stays inside as long as it stays on its line. -/
theorem Inside.over {ms : List Char} {c d : Cursor} (h : c.Inside) (hover : Over ms c d)
    (hline : '\n' ∉ ms) : d.Inside := by
  have hms : ∀ ch ∈ ms.reverse, decide (ch ≠ '\n') = true := by
    intro ch hch
    rw [List.mem_reverse] at hch
    simpa using fun heq : ch = '\n' => hline (heq ▸ hch)
  have hfront : d.lineFront = ms.reverse ++ c.lineFront := by
    rw [lineFront, hover.past_eq, List.takeWhile_append_of_pos hms, lineFront]
  rw [Inside, hfront, List.all_append, h, Bool.and_false]

theorem inside_cons {ch : Char} {past r : List Char} (hline : ch ≠ '\n')
    (hindent : isIndent ch = false) : Inside ⟨ch :: past, r⟩ := by
  simp [Inside, lineFront, hline, hindent]

end Cursor

open Cursor (Inside)

/-- Behind something else a line comment ends with its line. -/
theorem skipLineComment_of_inside {indented : Bool} {c : Cursor} (h : c.Inside) :
    skipLineComment indented c = c.skipWhile (· ≠ '\n') := by
  rw [skipLineComment, h.indent?_eq, skipBelow]
  simp

theorem inside_skipLineComment {indented : Bool} {c : Cursor} (h : c.Inside) :
    (skipLineComment indented c).Inside := by
  rw [skipLineComment_of_inside h]
  refine h.over (Cursor.over_skipWhile _ c) fun hmem => ?_
  simpa using List.all_eq_true.1 List.all_takeWhile _ hmem

theorem skipBlockBody_of_inside {opening d : Cursor} {past r : List Char} (h : opening.Inside)
    (hd : skipBlockBody true opening past r = .ok d) :
    ∃ ms, Over ms ⟨past, r⟩ d ∧ '\n' ∉ ms := by
  fun_induction skipBlockBody true opening past r with
  | case1 =>
    obtain rfl := Except.ok.inj hd
    exact ⟨[], ⟨rfl, rfl⟩, by simp⟩
  | case2 => simp at hd
  | case3 past r =>
    obtain rfl := Except.ok.inj hd
    exact ⟨['*', '/'], ⟨rfl, rfl⟩, by decide⟩
  | case4 past ch r _ hline =>
    rw [h.indent?_eq] at hd
    obtain rfl := Except.ok.inj hd
    exact ⟨[], ⟨rfl, rfl⟩, by simp⟩
  | case5 past ch r _ hline ih =>
    obtain ⟨ms, hover, hms⟩ := ih hd
    refine ⟨ch :: ms, hover.cons, ?_⟩
    have hch : '\n' ≠ ch := fun heq => hline (by simp [← heq])
    simp [hch, hms]

/-- The white space and the comments in a rule stay on its line. -/
theorem skipGap_of_inside {c d : Cursor} (h : c.Inside) (hd : skipGap true false c = .ok d) :
    ∃ ms, Over ms c d ∧ '\n' ∉ ms := by
  fun_induction skipGap true false c with
  | case1 c r hr ih =>
    have hover := Cursor.over_skipWhile (· ≠ '\n') c
    have hline : '\n' ∉ c.rest.takeWhile (· ≠ '\n') := fun hmem => by
      simpa using List.all_eq_true.1 List.all_takeWhile _ hmem
    obtain ⟨ms, hover', hms⟩ := ih (inside_skipLineComment h) hd
    rw [skipLineComment_of_inside h] at hover'
    refine ⟨_, hover.trans hover', ?_⟩
    rw [List.mem_append, not_or]
    exact ⟨hline, hms⟩
  | case2 => simp at hd
  | case3 c r hr e hb ih =>
    obtain ⟨past, rest⟩ := c
    subst hr
    obtain ⟨ms, hover, hms⟩ := skipBlockBody_of_inside h hb
    have hopen : Over ('/' :: '*' :: ms) ⟨past, '/' :: '*' :: r⟩ e := hover.cons.cons
    have hline : '\n' ∉ '/' :: '*' :: ms := by simp [hms]
    obtain ⟨ns, hover', hns⟩ := ih (h.over hopen hline) hd
    exact ⟨_, hopen.trans hover', by simp [hms, hns]⟩
  | case4 c ch r _ _ hr hgap ih =>
    obtain ⟨past, rest⟩ := c
    subst hr
    have hover : Over [ch] ⟨past, ch :: r⟩ ⟨ch :: past, r⟩ := ⟨rfl, rfl⟩
    have hline : '\n' ∉ [ch] := by
      rintro hmem
      obtain rfl := List.mem_singleton.1 hmem
      simp [isGap] at hgap
    obtain ⟨ms, hover', hms⟩ := ih (h.over hover hline) hd
    exact ⟨_, hover.trans hover', by simpa [hms] using hline⟩
  | case5 =>
    obtain rfl := Except.ok.inj hd
    exact ⟨[], ⟨rfl, rfl⟩, by simp⟩
  | case6 =>
    obtain rfl := Except.ok.inj hd
    exact ⟨[], ⟨rfl, rfl⟩, by simp⟩

theorem inside_skipGap {c d : Cursor} (h : c.Inside) (hd : skipGap true false c = .ok d) :
    d.Inside := by
  obtain ⟨ms, hover, hms⟩ := skipGap_of_inside h hd
  exact h.over hover hms

/-! ## References -/

theorem readTarget_of_quote {indented : Bool} {past r : List Char} {ch : Char}
    (hq : isQuote ch = true) :
    readTarget indented ⟨past, ch :: r⟩
      = (readStringBody ⟨past, ch :: r⟩ ch [] (ch :: past) r).map some := by
  simp only [readTarget, if_pos hq]

theorem readTarget_of_url {indented : Bool} {past r : List Char} {ch : Char}
    (hq : isQuote ch = false) (hu : startsUrl (ch :: r) = true) :
    readTarget indented ⟨past, ch :: r⟩
      = (readUrlBody ⟨past, ch :: r⟩ ⟨ch :: past, r⟩).map
          fun d => some (between ⟨past, ch :: r⟩ d, d) := by
  simp only [readTarget, hq, Bool.false_eq_true, if_false, hu, if_true]

theorem readTarget_of_bare {past r : List Char} {ch : Char}
    (hq : isQuote ch = false) (hu : startsUrl (ch :: r) = false) (hb : startsBare ch = true) :
    readTarget true ⟨past, ch :: r⟩
      = .ok (some ((ch :: r).takeWhile (!endsBare ·),
          Cursor.skipWhile (!endsBare ·) ⟨past, ch :: r⟩)) := by
  have hover := Cursor.over_skipWhile (!endsBare ·) ⟨past, ch :: r⟩
  simp only [readTarget, hq, hu, hb, Bool.false_eq_true, if_false, Bool.and_self, if_true,
    hover.between_eq]

theorem readTarget_of_none {indented : Bool} {past r : List Char} {ch : Char}
    (hq : isQuote ch = false) (hu : startsUrl (ch :: r) = false)
    (hb : (indented && startsBare ch) = false) : readTarget indented ⟨past, ch :: r⟩ = .ok none := by
  simp only [readTarget, hq, hu, hb, Bool.false_eq_true, if_false]

/-- Where there is a text but no reference, none of the three kinds begins. -/
theorem begins_of_readTarget_none {indented : Bool} {past r : List Char} {ch : Char}
    (h : readTarget indented ⟨past, ch :: r⟩ = .ok none) :
    isQuote ch = false ∧ startsUrl (ch :: r) = false ∧ (indented && startsBare ch) = false := by
  cases hq : isQuote ch with
  | true =>
    rw [readTarget_of_quote hq] at h
    cases hb : readStringBody ⟨past, ch :: r⟩ ch [] (ch :: past) r <;> simp [hb, Except.map] at h
  | false =>
    cases hu : startsUrl (ch :: r) with
    | true =>
      rw [readTarget_of_url hq hu] at h
      cases hb : readUrlBody ⟨past, ch :: r⟩ ⟨ch :: past, r⟩ <;> simp [hb, Except.map] at h
    | false =>
      refine ⟨rfl, rfl, ?_⟩
      cases hb : indented && startsBare ch with
      | true => simp [readTarget, hq, hu, hb] at h
      | false => rfl

/-- The characters are read as a reference, wherever they stand, before any text that ends an unquoted
reference if `rest` does. -/
def ReadsAs (indented : Bool) (ms t rest : List Char) : Prop :=
  ∀ past' rest', (StopsBare rest → StopsBare rest') →
    readTarget indented ⟨past', ms ++ rest'⟩ = .ok (some (t, ⟨ms.reverse ++ past', rest'⟩))

/-- A character that an unquoted reference begins with goes on with it. -/
theorem endsBare_of_startsBare {newlines : Bool} {ch : Char} {r : List Char}
    (hs : Stops newlines (ch :: r)) (hb : startsBare ch = true) : endsBare ch = false := by
  have hgap : isGap newlines ch = false := hs.noGap ch rfl
  simp only [startsBare, isGap, endsBare, Bool.or_eq_false_iff, Bool.not_eq_true',
    decide_eq_false_iff_not] at *
  obtain ⟨⟨⟨hcomma, hsemicolon⟩, hbrace⟩, hline⟩ := hb
  exact ⟨⟨⟨⟨hgap.1, hline⟩, hcomma⟩, hsemicolon⟩, hbrace⟩

/-- A bare run of characters is read as it stands. -/
theorem readsAs_bare {ch : Char} {ms : List Char} (hq : isQuote ch = false)
    (hu : startsUrl (ch :: ms) = false) (hb : startsBare ch = true)
    (hms : ∀ x ∈ ch :: ms, endsBare x = false) {rest : List Char} (hrest : StopsBare rest) :
    ReadsAs true (ch :: ms) (ch :: ms) rest := by
  intro past' rest' hstop
  have hu' : startsUrl (ch :: (ms ++ rest')) = false := by
    rw [← List.cons_append, startsUrl_append (hstop hrest), hu]
  have hnone : rest'.takeWhile (!endsBare ·) = [] := by
    cases rest' with
    | nil => rfl
    | cons x r =>
      have hx : endsBare x = true := hstop hrest x rfl
      simp [hx]
  have htake : (ch :: (ms ++ rest')).takeWhile (!endsBare ·) = ch :: ms := by
    have hall : ∀ x ∈ ch :: ms, (!endsBare x) = true := fun x hx => by simp [hms x hx]
    rw [← List.cons_append, List.takeWhile_append_of_pos hall, hnone, List.append_nil]
  have hover := Cursor.over_skipWhile (!endsBare ·) ⟨past', ch :: (ms ++ rest')⟩
  rw [htake] at hover
  have hrest' : (Cursor.skipWhile (!endsBare ·) ⟨past', ch :: (ms ++ rest')⟩).rest = rest' := by
    have happend : ch :: ms ++ rest' = _ := hover.rest_eq
    exact (List.append_cancel_left happend).symm
  rw [List.cons_append, readTarget_of_bare hq hu' hb, htake, hover.eq, hrest']

theorem readTarget_local_quote {indented : Bool} {past r s : List Char} {ch : Char} {d : Cursor}
    (hq : isQuote ch = true) (h : readStringBody ⟨past, ch :: r⟩ ch [] (ch :: past) r = .ok (s, d)) :
    ∃ ms, Over (ch :: (ms ++ [ch])) ⟨past, ch :: r⟩ d ∧ d.Inside ∧
      ∀ rest, ReadsAs indented (ch :: (ms ++ [ch])) s rest := by
  obtain ⟨ms, hover, hread⟩ := readStringBody_local h
  have hch : ch = '"' ∨ ch = '\'' := by simpa [isQuote] using hq
  refine ⟨ms, hover.cons, ?_, fun _ past' rest' _ => ?_⟩
  · rw [hover.eq, List.reverse_append]
    rcases hch with rfl | rfl <;> exact Cursor.inside_cons (by decide) (by decide)
  · have hrest : ch :: (ms ++ [ch]) ++ rest' = ch :: (ms ++ ch :: rest') := by simp
    rw [hrest, readTarget_of_quote hq, hread]
    simp [Except.map]

theorem readTarget_local_url {indented : Bool} {past r : List Char} {ch : Char} {d : Cursor}
    (hq : isQuote ch = false) (hu : startsUrl (ch :: r) = true)
    (h : readUrlBody ⟨past, ch :: r⟩ ⟨ch :: past, r⟩ = .ok d) :
    ∃ ms, Over (ch :: (ms ++ [')'])) ⟨past, ch :: r⟩ d ∧ d.Inside ∧
      ∀ rest, ReadsAs indented (ch :: (ms ++ [')'])) (ch :: (ms ++ [')'])) rest := by
  obtain ⟨ms, hover, hread⟩ := readUrlBody_local h
  refine ⟨ms, hover.cons, ?_, fun _ past' rest' _ => ?_⟩
  · rw [hover.eq, List.reverse_append]
    exact Cursor.inside_cons (by decide) (by decide)
  · have hrest : ch :: (ms ++ [')']) ++ rest' = ch :: (ms ++ ')' :: rest') := by simp
    have hr : r = ms ++ ')' :: d.rest := by simpa using hover.rest_eq
    have hu' : startsUrl (ch :: (ms ++ ')' :: rest')) = true := by
      rw [hr, ← List.cons_append] at hu
      rw [← List.cons_append]
      exact startsUrl_congr hu
    have hover' : Over (ch :: (ms ++ [')'])) ⟨past', ch :: (ms ++ ')' :: rest')⟩
        ⟨')' :: (ms.reverse ++ ch :: past'), rest'⟩ := ⟨by simp, by simp⟩
    rw [hrest, readTarget_of_url hq hu', hread, Except.map, hover'.between_eq]
    simp

theorem readTarget_local_bare {newlines : Bool} {past r : List Char} {ch : Char}
    (hs : Stops newlines (ch :: r)) (hq : isQuote ch = false) (hu : startsUrl (ch :: r) = false)
    (hb : startsBare ch = true) :
    let d := Cursor.skipWhile (!endsBare ·) ⟨past, ch :: r⟩
    ∃ ms, Over (ch :: ms) ⟨past, ch :: r⟩ d ∧ (ch :: r).takeWhile (!endsBare ·) = ch :: ms ∧
      '\n' ∉ ch :: ms ∧ ReadsAs true (ch :: ms) (ch :: ms) d.rest := by
  intro d
  have hover : Over ((ch :: r).takeWhile (!endsBare ·)) ⟨past, ch :: r⟩ d :=
    Cursor.over_skipWhile (!endsBare ·) ⟨past, ch :: r⟩
  have hstop : StopsBare d.rest := by
    intro x hx
    have hend := List.head?_dropWhile_not (!endsBare ·) (ch :: r)
    simp only [d, Cursor.skipWhile, Cursor.moveOver, Option.mem_def] at hx
    simpa [hx] using hend
  have hms : ∀ x ∈ (ch :: r).takeWhile (!endsBare ·), endsBare x = false := by
    intro x hx
    simpa using List.all_eq_true.1 List.all_takeWhile x hx
  have hhead : (ch :: r).takeWhile (!endsBare ·) = ch :: r.takeWhile (!endsBare ·) := by
    simp [endsBare_of_startsBare hs hb]
  rw [hhead] at hms hover
  refine ⟨_, hover, hhead, fun hmem => absurd (hms _ hmem) (by decide), ?_⟩
  refine readsAs_bare hq ?_ hb hms hstop
  rw [← startsUrl_append hstop, ← hover.rest_eq, hu]

/-- A reference is read by what it is made of, and behind it one is inside the rule. -/
theorem readTarget_local {indented newlines : Bool} {c f : Cursor} {t : List Char}
    (hs : Stops newlines c.rest) (h : readTarget indented c = .ok (some (t, f))) :
    ∃ ms, Over ms c f ∧ ms ≠ [] ∧ ReadsAs indented ms t f.rest ∧ (c.Inside → f.Inside) := by
  obtain ⟨past, rest⟩ := c
  cases rest with
  | nil => simp [readTarget] at h
  | cons ch r =>
  cases hq : isQuote ch with
  | true =>
    rw [readTarget_of_quote hq] at h
    cases hb : readStringBody ⟨past, ch :: r⟩ ch [] (ch :: past) r with
    | error e => simp [hb, Except.map] at h
    | ok p =>
      obtain ⟨s, d⟩ := p
      simp only [hb, Except.map, Except.ok.injEq, Option.some.injEq, Prod.mk.injEq] at h
      obtain ⟨rfl, rfl⟩ := h
      obtain ⟨ms, hover, hinside, hreads⟩ := readTarget_local_quote hq hb
      exact ⟨_, hover, by simp, hreads _, fun _ => hinside⟩
  | false =>
    cases hu : startsUrl (ch :: r) with
    | true =>
      rw [readTarget_of_url hq hu] at h
      cases hb : readUrlBody ⟨past, ch :: r⟩ ⟨ch :: past, r⟩ with
      | error e => simp [hb, Except.map] at h
      | ok d =>
        simp only [hb, Except.map, Except.ok.injEq, Option.some.injEq, Prod.mk.injEq] at h
        obtain ⟨rfl, rfl⟩ := h
        obtain ⟨ms, hover, hinside, hreads⟩ := readTarget_local_url hq hu hb
        rw [hover.between_eq]
        exact ⟨_, hover, by simp, hreads _, fun _ => hinside⟩
    | false =>
      cases hb : indented && startsBare ch with
      | false =>
        rw [readTarget_of_none hq hu hb] at h
        exact absurd h (by simp)
      | true =>
        rw [Bool.and_eq_true] at hb
        obtain ⟨rfl, hb⟩ := hb
        rw [readTarget_of_bare hq hu hb] at h
        obtain ⟨rfl, rfl⟩ := Prod.mk.inj (Option.some.inj (Except.ok.inj h))
        obtain ⟨ms, hover, htake, hline, hreads⟩ := readTarget_local_bare hs hq hu hb
        rw [htake]
        exact ⟨_, hover, by simp, hreads, fun h => h.over hover hline⟩

/-! ## Rules and texts -/

theorem readRule_eq (indented : Bool) (past r : List Char) :
    readRule indented ⟨past, '@' :: r⟩ =
      match Directive.ofWord? (r.takeWhile isNameChar) with
      | none => .ok ([], Cursor.skipWhile isNameChar ⟨'@' :: past, r⟩)
      | some directive =>
        readReferences indented directive (Cursor.skipWhile isNameChar ⟨'@' :: past, r⟩) := by
  have hover : Over (r.takeWhile isNameChar) ⟨'@' :: past, r⟩
      (Cursor.skipWhile isNameChar ⟨'@' :: past, r⟩) :=
    Cursor.over_skipWhile isNameChar ⟨'@' :: past, r⟩
  rw [← hover.between_eq]
  rfl

/-- Behind the name of a rule one is inside the rule. -/
theorem inside_name (past r : List Char) :
    (Cursor.skipWhile isNameChar ⟨'@' :: past, r⟩).Inside := by
  have hat : Inside ⟨'@' :: past, r⟩ := Cursor.inside_cons (by decide) (by decide)
  refine hat.over (Cursor.over_skipWhile isNameChar _) fun hmem => ?_
  have hline : isNameChar '\n' = true := List.all_eq_true.1 List.all_takeWhile _ hmem
  exact absurd hline (by decide)

/-- The reference that is read at a place. -/
def Cursor.reference (c : Cursor) (directive : Directive) (target : List Char) : Reference :=
  ⟨directive, String.ofList target, c.line, c.column⟩

theorem readReferences_eq (indented : Bool) (directive : Directive) (c : Cursor) :
    readReferences indented directive c =
      (skipGap indented (!indented) c).bind fun d =>
        (readTarget indented d).bind fun target? =>
          match target? with
          | none => .ok ([], d)
          | some (target, f) =>
            if directive = .import_ then
              (skipGap indented (!indented) f).bind fun g =>
                match g.rest with
                | ',' :: r =>
                  (readReferences indented directive ⟨',' :: g.past, r⟩).map fun p =>
                    (d.reference directive target :: p.1, p.2)
                | _ => .ok ([d.reference directive target], g)
            else .ok ([d.reference directive target], f) := by
  rw [readReferences]
  split
  · rename_i hd
    rw [hd]
    rfl
  · rename_i d hd
    simp only [hd, Except.bind]
    split
    · rename_i ht
      simp only [ht]
    · rename_i ht
      simp only [ht]
    · rename_i target f ht
      simp only [ht]
      by_cases himport : directive = .import_
      · simp only [if_pos himport]
        split
        · rename_i hg
          simp only [hg]
        · rename_i g hg
          simp only [hg]
          split
          · rename_i hr
            simp only [hr]
            rfl
          · rename_i hne
            split
            · rename_i r hr
              exact absurd hr (hne r)
            · rfl
      · simp only [if_neg himport]
        rfl

theorem scanFrom_eq (indented : Bool) (c : Cursor) :
    scanFrom indented c =
      (skipGap indented true c).bind fun d =>
        match d.rest with
        | [] => .ok []
        | ch :: r =>
          if ch = '@' then
            (readRule indented d).bind fun p => (scanFrom indented p.2).map (p.1 ++ ·)
          else if isQuote ch then
            (readStringBody d ch [] (ch :: d.past) r).bind fun p => scanFrom indented p.2
          else if startsUrl (ch :: r) then
            (readUrlBody d ⟨ch :: d.past, r⟩).bind (scanFrom indented)
          else scanFrom indented ⟨ch :: d.past, r⟩ := by
  rw [scanFrom]
  split
  · rename_i hd
    rw [hd]
    rfl
  · rename_i d hd
    simp only [hd, Except.bind]
    split
    · rename_i hr
      simp only [hr]
    · rename_i ch r hr
      simp only [hr]
      by_cases hat : ch = '@'
      · simp only [if_pos hat]
        split
        · rename_i hp
          simp only [hp]
        · rename_i hp
          simp only [hp]
      · simp only [if_neg hat]
        by_cases hq : isQuote ch = true
        · simp only [if_pos hq]
          split
          · rename_i hs
            simp only [hs]
          · rename_i hs
            simp only [hs]
        · simp only [if_neg hq]
          by_cases hu : startsUrl (ch :: r) = true
          · simp only [if_pos hu]
            split
            · rename_i hb
              simp only [hb]
            · rename_i hb
              simp only [hb]
          · simp only [if_neg hu]

/-- Where the gap ahead is the same, so is everything that is found behind it. -/
theorem scanFrom_congr {indented : Bool} {c c' : Cursor}
    (h : skipGap indented true c = skipGap indented true c') :
    scanFrom indented c = scanFrom indented c' := by
  rw [scanFrom_eq, h, ← scanFrom_eq]

end SheetBuild.Import
