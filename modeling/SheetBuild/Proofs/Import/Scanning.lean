import SheetBuild.Proofs.Import.Lexeme
import SheetBuild.Proofs.Import.Readers
set_option autoImplicit false

/-!
# Scanning finds the references among the lexemes

`scan` looks for rules, references, comments and strings while it moves one cursor through the text.
In the spelling with braces it finds what the lexemes of the text say
(`scan_eq_referencesByLexemes`).  Each reader of the scanner moves over whole lexemes, so at every
place that the scanner comes to, what is ahead of it are the lexemes of the rest of the text.
-/

namespace SheetBuild.Import

namespace Cursor

/-- Moves over a number of characters. -/
def jump (n : Nat) (c : Cursor) : Cursor := ⟨(c.rest.take n).reverse ++ c.past, c.rest.drop n⟩

theorem jump_cons (n : Nat) (ch : Char) (past r : List Char) :
    jump (n + 1) ⟨past, ch :: r⟩ = jump n ⟨ch :: past, r⟩ := by
  simp [jump]

/-- A move over a character and some more can be made in two parts. -/
theorem jump_add_cons (m n : Nat) (ch : Char) (past r : List Char) :
    jump (m + (n + 1)) ⟨past, ch :: r⟩ = jump m ⟨(r.take n).reverse ++ ch :: past, r.drop n⟩ := by
  rw [← Nat.add_assoc, jump_cons, jump, jump, Nat.add_comm m n, List.take_add, List.drop_drop,
    List.reverse_append, List.append_assoc]

theorem skipWhile_eq_jump (p : Char → Bool) (c : Cursor) :
    c.skipWhile p = c.jump (c.rest.takeWhile p).length := by
  have h : c.rest = c.rest.takeWhile p ++ c.rest.dropWhile p :=
    List.takeWhile_append_dropWhile.symm
  rw [skipWhile, moveOver, jump]
  generalize c.rest.takeWhile p = front at h ⊢
  generalize c.rest.dropWhile p = back at h ⊢
  rw [h, List.take_left, List.drop_left]

theorem between_jump (c : Cursor) (n : Nat) : between c (c.jump n) = c.rest.take n := by
  rw [between, jump, List.length_drop, List.take_eq_take_iff]
  omega

end Cursor

open Lexeme Placed

/-! ## Each reader moves over the rest of a lexeme -/

theorem skipBlockBody_eq (opening : Cursor) (past r : List Char) :
    skipBlockBody false opening past r =
      match commentLength? r with
      | none => .error (opening.unclosed .comment)
      | some n => .ok (Cursor.jump n ⟨past, r⟩) := by
  fun_induction commentLength? r generalizing past with
  | case1 => simp [skipBlockBody]
  | case2 r => simp [skipBlockBody, Cursor.jump]
  | case3 ch r hne ih =>
    rw [skipBlockBody]
    · simp only [Bool.false_and, Bool.false_eq_true, if_false]
      rw [ih]
      cases commentLength? r with
      | none => rfl
      | some n => simp [Cursor.jump_cons]
    · exact hne

theorem readStringBody_eq (opening : Cursor) (quote : Char) (acc past r : List Char) :
    readStringBody opening quote acc past r =
      match stringLength? quote r with
      | none => .error (opening.unclosed .string)
      | some n => .ok (acc.reverse ++ unescape (r.take n), Cursor.jump (n + 1) ⟨past, r⟩) := by
  fun_induction stringLength? quote r generalizing acc past with
  | case1 => simp [readStringBody]
  | case2 r =>
    rw [readStringBody.eq_def]
    simp [unescape, Cursor.jump]
  | case3 r h1 =>
    rw [readStringBody.eq_def]
    simp [h1]
  | case4 h1 h2 =>
    rw [readStringBody.eq_def]
    simp [h1]
  | case5 ch r h1 h2 ih =>
    rw [readStringBody.eq_def]
    simp only [h1, h2, if_false, if_true, ih]
    cases stringLength? quote r with
    | none => simp
    | some n => simp [Cursor.jump_cons, unescape]
  | case6 ch r h1 h2 h3 ih =>
    rw [readStringBody.eq_def]
    simp only [h1, h2, h3, if_false, ih]
    cases stringLength? quote r with
    | none => simp
    | some n => simp [Cursor.jump_cons, unescape, h3]

theorem readUrlBody_eq (opening : Cursor) (past r : List Char) :
    readUrlBody opening ⟨past, r⟩ =
      match urlLength r with
      | .error none => .error (opening.unclosed .url)
      | .error (some n) => .error ((Cursor.jump n ⟨past, r⟩).unclosed .string)
      | .ok n => .ok (Cursor.jump n ⟨past, r⟩) := by
  fun_induction urlLength r generalizing past with
  | case1 => rw [readUrlBody_nil]
  | case2 ch r hq hs =>
    rw [readUrlBody_cons, if_pos hq, readStringBody_eq, hs]
    rfl
  | case3 ch r hq n hs at? hu ih =>
    rw [readUrlBody_cons, if_pos hq, readStringBody_eq, hs, Except.bind, Cursor.jump, ih, hu]
    cases at? with
    | none => rfl
    | some m => simp only [Option.map_some, Cursor.jump_add_cons]
  | case4 ch r hq n hs m hu ih =>
    rw [readUrlBody_cons, if_pos hq, readStringBody_eq, hs, Except.bind, Cursor.jump, ih, hu]
    simp only [Cursor.jump_add_cons]
  | case5 r hq =>
    rw [readUrlBody_cons, if_neg hq, if_pos rfl]
  | case6 r hq hn =>
    rw [readUrlBody_cons, if_neg hq, if_neg hn, if_pos rfl]
    rfl
  | case7 ch r hq hn hp at? hu ih =>
    rw [readUrlBody_cons, if_neg hq, if_neg hn, if_neg hp, ih, hu]
    cases at? with
    | none => rfl
    | some m => simp only [Option.map_some, Cursor.jump_cons]
  | case8 ch r hq hn hp m hu ih =>
    rw [readUrlBody_cons, if_neg hq, if_neg hn, if_neg hp, ih, hu]
    simp only [Cursor.jump_cons]

/-! ## What is ahead of a cursor -/

namespace Cursor

/-- The lexemes that count in the text after the cursor, at their places. -/
def ahead (c : Cursor) : Except ScanError (List Placed) := placedFrom c.past c.rest

theorem ahead_nil (past : List Char) : ahead ⟨past, []⟩ = .ok [] := by
  rw [ahead, placedFrom, split]
  rfl

/-- A token that is never closed ends the lexemes. -/
theorem ahead_of_opening {ch : Char} {r : List Char} {o : Opening} (h : first ch r = .error o)
    (past : List Char) :
    ahead ⟨past, ch :: r⟩ = .error ((jump o.before ⟨past, ch :: r⟩).unclosed o.token) := by
  rw [ahead, placedFrom, split, h]
  rfl

/-- One lexeme is ahead, and then what is ahead behind it. -/
theorem ahead_of_first {ch : Char} {r : List Char} {kind : LexemeKind} {n : Nat}
    (h : first ch r = .ok (kind, n)) (past : List Char) :
    ahead ⟨past, ch :: r⟩ = (ahead (jump n ⟨ch :: past, r⟩)).map fun ps =>
      significant [⟨⟨kind, ch :: r.take n⟩, past⟩] ++ ps := by
  rw [ahead, ahead, placedFrom, placedFrom, split, h, jump]
  simp only
  cases hs : split (r.drop n) with
  | error o =>
    have hpast := congrArg Cursor.past (jump_add_cons o.before n ch past r)
    simp only [jump] at hpast
    simp only [hpast, Except.map]
  | ok ls =>
    simp only [ofLexemes, significant, List.reverse_cons, List.append_assoc, Except.map,
      ← List.filter_append, List.singleton_append]

/-- White space and comments that are ahead do not count. -/
theorem ahead_of_gap {ch : Char} {r : List Char} {kind : LexemeKind} {n : Nat}
    (h : first ch r = .ok (kind, n)) (hgap : Lexeme.isGap ⟨kind, ch :: r.take n⟩ = true)
    (past : List Char) : ahead ⟨past, ch :: r⟩ = ahead (jump n ⟨ch :: past, r⟩) := by
  rw [ahead_of_first h]
  simp only [significant, List.filter, hgap, Bool.not_true, List.nil_append]
  cases ahead (jump n ⟨ch :: past, r⟩) <;> rfl

/-- Any other lexeme that is ahead counts. -/
theorem ahead_of_counting {ch : Char} {r : List Char} {kind : LexemeKind} {n : Nat}
    (h : first ch r = .ok (kind, n)) (hgap : Lexeme.isGap ⟨kind, ch :: r.take n⟩ = false)
    (past : List Char) :
    ahead ⟨past, ch :: r⟩
      = (ahead (jump n ⟨ch :: past, r⟩)).map (⟨⟨kind, ch :: r.take n⟩, past⟩ :: ·) := by
  rw [ahead_of_first h]
  simp only [significant, List.filter, hgap, Bool.not_false, List.singleton_append]

end Cursor

/-! ## The first lexeme -/

theorem first_blank {ch : Char} (h : Lexeme.isBlank ch = true) (r : List Char) :
    first ch r = .ok (.blank, 0) := by
  unfold first
  rw [if_pos h]

theorem first_lineComment (r : List Char) :
    first '/' ('/' :: r) = .ok (.lineComment, 1 + (r.takeWhile (· ≠ '\n')).length) := rfl

theorem first_blockComment (r : List Char) :
    first '/' ('*' :: r) =
      match commentLength? r with
      | none => .error ⟨.comment, 0⟩
      | some n => .ok (.blockComment, 1 + n) := rfl

theorem first_atKeyword (r : List Char) :
    first '@' r = .ok (.atKeyword, (r.takeWhile isNameChar).length) := by
  simp [first, Lexeme.isBlank]

theorem first_string {quote : Char} (h : isQuote quote = true) (r : List Char) :
    first quote r =
      match stringLength? quote r with
      | none => .error ⟨.string, 0⟩
      | some n => .ok (.string, n + 1) := by
  have hq : quote = '"' ∨ quote = '\'' := by simpa [isQuote] using h
  rcases hq with rfl | rfl
  · rfl
  · rfl

theorem first_url (r : List Char) :
    first 'u' ('r' :: 'l' :: '(' :: r) =
      match urlLength r with
      | .error at? => .error (openingOfUrl at?)
      | .ok n => .ok (.url, 3 + n) := rfl

/-- The cursor stands at a lexeme that counts, or at the end of the text. -/
def Cursor.AtLexeme (c : Cursor) : Prop :=
  ∀ ch r, c.rest = ch :: r → Lexeme.isBlank ch = false ∧
    ∀ r', (ch = '/' → r ≠ '/' :: r') ∧ (ch = '/' → r ≠ '*' :: r')

theorem first_single {ch : Char} {r : List Char} (h : Cursor.AtLexeme ⟨[], ch :: r⟩)
    (hat : ch ≠ '@') (hquote : isQuote ch = false) (hurl : startsUrl (ch :: r) = false) :
    first ch r = .ok (.single, 0) := by
  obtain ⟨hblank, hcomment⟩ := h ch r rfl
  unfold first
  rw [if_neg (by simp [hblank])]
  split
  · exact absurd rfl ((hcomment _).1 rfl)
  · exact absurd rfl ((hcomment _).2 rfl)
  · exact absurd rfl hat
  · rw [if_neg (by simp [hquote]), if_neg (by simp [hurl])]

/-! ## Lists of references -/

/-- The reference that a lexeme with this text is. -/
def Placed.reference (directive : Directive) (p : Placed) (target : List Char) : Reference :=
  ⟨directive, String.ofList target, line p.past, column p.past⟩

theorem listed_of_none (directive : Directive) {p : Placed} (h : p.lexeme.target? = none)
    (ps : List Placed) : listed directive (p :: ps) = [] := by
  rw [listed.eq_def]
  simp [h]

theorem listed_of_comma (directive : Directive) {p q : Placed} {target : List Char}
    (h : p.lexeme.target? = some target) (hcomma : q.lexeme.isComma = true) (ps : List Placed) :
    listed directive (p :: q :: ps) = p.reference directive target :: listed directive ps := by
  rw [listed.eq_def]
  simp [h, hcomma, Placed.reference]

theorem listed_of_end (directive : Directive) {p : Placed} {target : List Char}
    (h : p.lexeme.target? = some target) {ps : List Placed}
    (hend : ∀ q qs, ps = q :: qs → q.lexeme.isComma = false) :
    listed directive (p :: ps) = [p.reference directive target] := by
  rw [listed.eq_def]
  cases ps with
  | nil => simp [h, Placed.reference]
  | cons q qs => simp [h, hend q qs rfl, Placed.reference]

/-- A rule other than `@import` takes at most one reference. -/
theorem behind_of_ne {directive : Directive} (hne : directive ≠ .import_) (ps : List Placed) :
    behind directive ps = (listed directive ps).take 1 := by
  cases directive with
  | import_ => exact absurd rfl hne
  | use => rfl
  | forward => rfl

theorem take_listed (directive : Directive) {p : Placed} {target : List Char}
    (h : p.lexeme.target? = some target) (ps : List Placed) :
    (listed directive (p :: ps)).take 1 = [p.reference directive target] := by
  rw [listed.eq_def]
  simp [h, Placed.reference]

/-! ## Readers and what is ahead -/

theorem isGap_true (ch : Char) : Import.isGap true ch = Lexeme.isBlank ch := by
  simp [Import.isGap, Lexeme.isBlank]

theorem skipBelow_false (indent : Option Nat) (c : Cursor) : skipBelow false indent c = c := rfl

/-- A line comment is one lexeme. -/
theorem ahead_skipLineComment (past r : List Char) :
    (skipLineComment false ⟨past, '/' :: '/' :: r⟩).ahead
      = Cursor.ahead ⟨past, '/' :: '/' :: r⟩ := by
  have hmove : skipLineComment false ⟨past, '/' :: '/' :: r⟩
      = Cursor.jump (1 + (r.takeWhile (· ≠ '\n')).length) ⟨'/' :: past, '/' :: r⟩ := by
    rw [skipLineComment, skipBelow_false, Cursor.skipWhile_eq_jump, ← Cursor.jump_cons]
    simp [Nat.add_comm]
  rw [hmove, Cursor.ahead_of_gap (first_lineComment r) rfl]

/-- A block comment is one lexeme, and one that is never closed ends the lexemes. -/
theorem ahead_skipBlockBody (past r : List Char) :
    (skipBlockBody false ⟨past, '/' :: '*' :: r⟩ ('*' :: '/' :: past) r).bind Cursor.ahead
      = Cursor.ahead ⟨past, '/' :: '*' :: r⟩ := by
  have hfirst := first_blockComment r
  rw [skipBlockBody_eq]
  cases hc : commentLength? r with
  | none =>
    rw [hc] at hfirst
    rw [Cursor.ahead_of_opening hfirst]
    rfl
  | some n =>
    rw [hc] at hfirst
    rw [Cursor.ahead_of_gap hfirst rfl, Nat.add_comm, Cursor.jump_cons]
    rfl

/-- Moving over white space and comments changes nothing ahead, and ends at a lexeme that counts. -/
theorem ahead_skipGap {c : Cursor} :
    (skipGap false true c).bind Cursor.ahead = c.ahead ∧
      ∀ d, skipGap false true c = .ok d → d.AtLexeme := by
  fun_induction skipGap false true c with
  | case1 c r hr ih =>
    obtain ⟨past, rest⟩ := c
    subst hr
    rw [← ahead_skipLineComment]
    exact ih
  | case2 c r hr e hb =>
    obtain ⟨past, rest⟩ := c
    subst hr
    rw [← ahead_skipBlockBody, hb]
    exact ⟨rfl, by simp⟩
  | case3 c r hr d hb ih =>
    obtain ⟨past, rest⟩ := c
    subst hr
    rw [← ahead_skipBlockBody, hb]
    exact ih
  | case4 c ch r _ _ hr hgap ih =>
    obtain ⟨past, rest⟩ := c
    subst hr
    rw [isGap_true] at hgap
    rw [Cursor.ahead_of_gap (first_blank hgap r) rfl]
    exact ih
  | case5 c ch r hline hblock hr hgap =>
    obtain ⟨past, rest⟩ := c
    subst hr
    refine ⟨rfl, ?_⟩
    intro d hd ch' r' hrest
    obtain rfl := Except.ok.inj hd
    obtain ⟨rfl, rfl⟩ := List.cons.inj hrest
    rw [isGap_true] at hgap
    exact ⟨by simpa using hgap, fun r' => ⟨hline r', hblock r'⟩⟩
  | case6 c hr =>
    refine ⟨rfl, ?_⟩
    intro d hd ch r hrest
    obtain rfl := Except.ok.inj hd
    rw [hr] at hrest
    exact absurd hrest (by simp)

/-- What the kind of the first lexeme says about the text. -/
theorem startsAs_of_first {ch : Char} {r : List Char} {kind : LexemeKind} {n : Nat}
    (h : first ch r = .ok (kind, n)) :
    (kind = .string → isQuote ch = true) ∧ (kind = .url → startsUrl (ch :: r) = true) ∧
      (Lexeme.isGap ⟨kind, ch :: r.take n⟩ = true → ∀ past, ¬ Cursor.AtLexeme ⟨past, ch :: r⟩) := by
  unfold first at h
  split at h
  · rename_i hblank
    obtain ⟨rfl, rfl⟩ := Prod.mk.inj (Except.ok.inj h)
    refine ⟨by simp, by simp, fun _ past hc => ?_⟩
    rw [(hc ch r rfl).1] at hblank
    exact absurd hblank (by simp)
  · split at h
    · obtain ⟨rfl, rfl⟩ := Prod.mk.inj (Except.ok.inj h)
      exact ⟨by simp, by simp, fun _ past hc => ((hc _ _ rfl).2 _).1 rfl rfl⟩
    · rename_i r' _
      cases hn : commentLength? r' with
      | none => simp [hn] at h
      | some m =>
        simp only [hn, Except.ok.injEq, Prod.mk.injEq] at h
        obtain ⟨rfl, rfl⟩ := h
        exact ⟨by simp, by simp, fun _ past hc => ((hc _ _ rfl).2 _).2 rfl rfl⟩
    · obtain ⟨rfl, rfl⟩ := Prod.mk.inj (Except.ok.inj h)
      exact ⟨by simp, by simp, by simp [Lexeme.isGap]⟩
    · split at h
      · rename_i hq
        cases hn : stringLength? ch r with
        | none => simp [hn] at h
        | some m =>
          simp only [hn, Except.ok.injEq, Prod.mk.injEq] at h
          obtain ⟨rfl, rfl⟩ := h
          exact ⟨fun _ => hq, by simp, by simp [Lexeme.isGap]⟩
      · split at h
        · rename_i hu
          cases hn : urlLength (r.drop 3) with
          | error at? => simp [hn] at h
          | ok m =>
            simp only [hn, Except.ok.injEq, Prod.mk.injEq] at h
            obtain ⟨rfl, rfl⟩ := h
            exact ⟨by simp, fun _ => hu, by simp [Lexeme.isGap]⟩
        · obtain ⟨rfl, rfl⟩ := Prod.mk.inj (Except.ok.inj h)
          exact ⟨by simp, by simp, by simp [Lexeme.isGap]⟩

/-- Unless the text ends here, the first lexeme ahead of a cursor that stands at one counts. -/
theorem exists_of_ahead {c : Cursor} (hc : c.AtLexeme) {ps : List Placed} (h : c.ahead = .ok ps) :
    (c.rest = [] ∧ ps = []) ∨
      ∃ ch r kind n ps', c.rest = ch :: r ∧ first ch r = .ok (kind, n) ∧
        ps = ⟨⟨kind, ch :: r.take n⟩, c.past⟩ :: ps' := by
  obtain ⟨past, rest⟩ := c
  cases rest with
  | nil =>
    rw [Cursor.ahead_nil] at h
    exact .inl ⟨rfl, (Except.ok.inj h).symm⟩
  | cons ch r =>
    cases hf : first ch r with
    | error o =>
      rw [Cursor.ahead_of_opening hf] at h
      exact absurd h (by simp)
    | ok p =>
      obtain ⟨kind, n⟩ := p
      have hgap : Lexeme.isGap ⟨kind, ch :: r.take n⟩ = false := by
        rw [Bool.eq_false_iff]
        intro hgap
        exact (startsAs_of_first hf).2.2 hgap past hc
      rw [Cursor.ahead_of_counting hf hgap] at h
      cases ha : Cursor.ahead (Cursor.jump n ⟨ch :: past, r⟩) with
      | error e =>
        rw [ha] at h
        exact absurd h (by simp [Except.map])
      | ok ps' =>
        rw [ha] at h
        exact .inr ⟨ch, r, kind, n, ps', rfl, hf, (Except.ok.inj h).symm⟩

namespace Cursor

/-- Moving from one cursor to another passes over these lexemes. -/
def Passes (c : Cursor) (ps : List Placed) (d : Cursor) : Prop := c.ahead = d.ahead.map (ps ++ ·)

theorem Passes.trans {c d e : Cursor} {ps qs : List Placed} (h : c.Passes ps d)
    (h' : d.Passes qs e) : c.Passes (ps ++ qs) e := by
  rw [Passes, h, h']
  cases e.ahead with
  | error _ => rfl
  | ok _ => simp [Except.map]

/-- What is never closed behind a lexeme is never closed. -/
theorem Passes.error {c d : Cursor} {ps : List Placed} (h : c.Passes ps d) {e : ScanError}
    (hd : d.ahead = .error e) : c.ahead = .error e := by
  rw [h, hd]
  rfl

theorem passes_of_eq {c d : Cursor} (h : c.ahead = d.ahead) : c.Passes [] d := by
  rw [Passes, h]
  cases d.ahead <;> rfl

/-- White space and comments pass over nothing that counts. -/
theorem passes_skipGap {c d : Cursor} (h : skipGap false true c = .ok d) : c.Passes [] d := by
  have hc := ahead_skipGap (c := c)
  rw [h] at hc
  exact passes_of_eq hc.1.symm

theorem ahead_of_skipGap_error {c : Cursor} {e : ScanError} (h : skipGap false true c = .error e) :
    c.ahead = .error e := by
  have hc := ahead_skipGap (c := c)
  rw [h] at hc
  exact hc.1.symm

end Cursor

theorem length_of_stringLength? {quote : Char} {r : List Char} {n : Nat}
    (h : stringLength? quote r = some n) : n < r.length := by
  fun_induction stringLength? quote r generalizing n with
  | case1 => simp at h
  | case2 r =>
    obtain rfl := Option.some.inj h
    exact Nat.zero_lt_succ _
  | case3 => simp at h
  | case4 => simp at h
  | case5 ch r _ _ ih =>
    obtain ⟨m, hm, rfl⟩ := Option.map_eq_some_iff.mp h
    have := ih hm
    simp only [List.length_cons]
    omega
  | case6 ch r _ _ _ ih =>
    obtain ⟨m, hm, rfl⟩ := Option.map_eq_some_iff.mp h
    have := ih hm
    simp only [List.length_cons]
    omega

/-- What stands in a string, between its quotes. -/
theorem dropLast_take_of_stringLength? {quote : Char} {r : List Char} {n : Nat}
    (h : stringLength? quote r = some n) : (r.take (n + 1)).dropLast = r.take n := by
  have hn := length_of_stringLength? h
  rw [List.dropLast_eq_take, List.take_take, List.length_take, Nat.min_eq_left hn]
  simp

/-- Reading a string passes over one lexeme with the content of the string, and one that is never
closed ends the lexemes. -/
theorem readStringBody_passes {quote : Char} (hq : isQuote quote = true) (past r : List Char) :
    match readStringBody ⟨past, quote :: r⟩ quote [] (quote :: past) r with
    | .error e => Cursor.ahead ⟨past, quote :: r⟩ = .error e
    | .ok (content, f) => ∃ l : Lexeme, l.target? = some content ∧
        Cursor.Passes ⟨past, quote :: r⟩ [⟨l, past⟩] f := by
  have hfirst := first_string hq r
  rw [readStringBody_eq]
  cases hs : stringLength? quote r with
  | none =>
    rw [hs] at hfirst
    exact Cursor.ahead_of_opening hfirst past
  | some n =>
    rw [hs] at hfirst
    refine ⟨_, ?_, Cursor.ahead_of_counting hfirst rfl past⟩
    simp only [target?, List.reverse_nil, List.nil_append, List.drop_succ_cons, List.drop_zero]
    rw [dropLast_take_of_stringLength? hs]

/-- Inside the name and the parenthesis that open a `url(…)` it is not closed. -/
theorem urlLength_opening (r : List Char) :
    urlLength ('r' :: 'l' :: '(' :: r) =
      match urlLength r with
      | .error at? => .error (at?.map (· + 3))
      | .ok n => .ok (n + 3) := by
  rw [urlLength, urlLength, urlLength]
  cases urlLength r with
  | error at? => cases at? <;> rfl
  | ok n => rfl

/-- Reading a `url(…)` passes over one lexeme with this text, and one that is never closed ends the
lexemes. -/
theorem readUrlBody_passes {ch : Char} {r : List Char} (hu : startsUrl (ch :: r) = true)
    (past : List Char) :
    match readUrlBody ⟨past, ch :: r⟩ ⟨ch :: past, r⟩ with
    | .error e => Cursor.ahead ⟨past, ch :: r⟩ = .error e
    | .ok f => ∃ l : Lexeme, l.target? = some (between ⟨past, ch :: r⟩ f) ∧
        Cursor.Passes ⟨past, ch :: r⟩ [⟨l, past⟩] f := by
  obtain ⟨r, rfl, rfl⟩ : ∃ r', ch = 'u' ∧ r = 'r' :: 'l' :: '(' :: r' := by
    unfold startsUrl at hu
    split at hu
    · rename_i r' heq
      obtain ⟨rfl, rfl⟩ := List.cons.inj heq
      exact ⟨r', rfl, rfl⟩
    · simp at hu
  have hfirst := first_url r
  rw [readUrlBody_eq, urlLength_opening]
  cases hn : urlLength r with
  | error at? =>
    rw [hn] at hfirst
    rw [Cursor.ahead_of_opening hfirst]
    cases at? with
    | none => rfl
    | some n => simp [openingOfUrl, Cursor.jump_cons]
  | ok n =>
    simp only [hn, Nat.add_comm 3 n] at hfirst
    refine ⟨_, ?_, Cursor.ahead_of_counting hfirst rfl past⟩
    rw [← Cursor.jump_cons, Cursor.between_jump]
    rfl

/-- The first lexeme ahead is the reference at the cursor, if there is one. -/
theorem readTarget_passes {c : Cursor} (hc : c.AtLexeme) :
    match readTarget false c with
    | .error e => c.ahead = .error e
    | .ok none => ∀ ps, c.ahead = .ok ps → ∀ directive, listed directive ps = []
    | .ok (some (target, f)) => ∃ l : Lexeme, l.target? = some target ∧
        c.Passes [⟨l, c.past⟩] f := by
  obtain ⟨past, rest⟩ := c
  cases rest with
  | nil =>
    intro ps hps directive
    rw [Cursor.ahead_nil] at hps
    obtain rfl := Except.ok.inj hps
    rfl
  | cons ch r =>
    cases hq : isQuote ch with
    | true =>
      have hread : readTarget false ⟨past, ch :: r⟩
          = (readStringBody ⟨past, ch :: r⟩ ch [] (ch :: past) r).map some := if_pos hq
      have hpass := readStringBody_passes hq past r
      rw [hread]
      revert hpass
      cases readStringBody ⟨past, ch :: r⟩ ch [] (ch :: past) r with
      | error e => exact id
      | ok p => exact id
    | false =>
      have hnotQuote : ¬ isQuote ch = true := by simp [hq]
      cases hu : startsUrl (ch :: r) with
      | true =>
        have hread : readTarget false ⟨past, ch :: r⟩
            = (readUrlBody ⟨past, ch :: r⟩ ⟨ch :: past, r⟩).map
                fun d => some (between ⟨past, ch :: r⟩ d, d) :=
          (if_neg hnotQuote).trans (if_pos hu)
        have hpass := readUrlBody_passes hu past
        rw [hread]
        revert hpass
        cases readUrlBody ⟨past, ch :: r⟩ ⟨ch :: past, r⟩ with
        | error e => exact id
        | ok d => exact id
      | false =>
        have hread : readTarget false ⟨past, ch :: r⟩ = .ok none := by simp [readTarget, hq, hu]
        rw [hread]
        intro ps hps directive
        obtain ⟨hrest, -⟩ | ⟨ch', r', kind, n, ps', hrest, hf, rfl⟩ := exists_of_ahead hc hps
        · exact absurd hrest (by simp)
        · obtain ⟨rfl, rfl⟩ := List.cons.inj hrest
          obtain ⟨hstring, hurl, -⟩ := startsAs_of_first hf
          have hnone : target? ⟨kind, ch :: r.take n⟩ = none := by
            cases kind with
            | string => simp [hq] at hstring
            | url => simp [hu] at hurl
            | blank | lineComment | blockComment | atKeyword | single => rfl
          exact listed_of_none directive hnone ps'

/-- A lexeme that may be a reference begins no rule. -/
theorem directive?_of_target? {l : Lexeme} {target : List Char} (h : l.target? = some target) :
    l.directive? = none := by
  obtain ⟨kind, text⟩ := l
  cases kind with
  | atKeyword => simp [target?] at h
  | blank | lineComment | blockComment | string | url | single => rfl

/-! ## Rules -/

/-- A comma is one lexeme. -/
theorem passes_comma (past r : List Char) :
    Cursor.Passes ⟨past, ',' :: r⟩ [⟨⟨.single, [',']⟩, past⟩] ⟨',' :: past, r⟩ :=
  Cursor.ahead_of_counting (n := 0) rfl rfl past

/-- Where no comma follows, a list of references ends. -/
theorem isComma_of_ahead {c : Cursor} (hc : c.AtLexeme) (hne : ∀ r, c.rest ≠ ',' :: r)
    {p : Placed} {ps : List Placed} (h : c.ahead = .ok (p :: ps)) : p.lexeme.isComma = false := by
  obtain ⟨-, hps⟩ | ⟨ch, r, kind, n, ps', hrest, -, hps⟩ := exists_of_ahead hc h
  · exact absurd hps (by simp)
  · obtain ⟨rfl, -⟩ := List.cons.inj hps
    have hch : ch ≠ ',' := by
      rintro rfl
      exact hne r hrest
    simp [isComma, hch]

/-- A reading of references is right when it ends behind lexemes that begin no rule, and found what
the lexemes say stands behind the rule. -/
def Rightly (directive : Directive) (c : Cursor) :
    Except ScanError (List Reference × Cursor) → Prop
  | .error e => c.ahead = .error e
  | .ok (references, f) => ∃ passed, (∀ p ∈ passed, p.lexeme.directive? = none) ∧
      c.Passes passed f ∧ ∀ ps, f.ahead = .ok ps → behind directive (passed ++ ps) = references

theorem readReferences_rightly (directive : Directive) (c : Cursor) :
    Rightly directive c (readReferences false directive c) := by
  fun_induction readReferences false directive c with
  | case1 c e hd => exact Cursor.ahead_of_skipGap_error hd
  | case2 c d hd e ht =>
    have htarget := readTarget_passes (ahead_skipGap.2 d hd)
    rw [ht] at htarget
    exact (Cursor.passes_skipGap hd).error htarget
  | case3 c d hd ht =>
    have htarget := readTarget_passes (ahead_skipGap.2 d hd)
    rw [ht] at htarget
    refine ⟨[], by simp, Cursor.passes_skipGap hd, ?_⟩
    intro ps hps
    cases directive <;> simp [behind, htarget ps hps]
  | case4 c d hd target f ht himport e hg =>
    have htarget := readTarget_passes (ahead_skipGap.2 d hd)
    rw [ht] at htarget
    obtain ⟨l, -, hpass⟩ := htarget
    have herror := hpass.error (Cursor.ahead_of_skipGap_error hg)
    exact (Cursor.passes_skipGap hd).error herror
  | case5 c d hd target f ht reference himport g hg r hr ih =>
    subst himport
    have htarget := readTarget_passes (ahead_skipGap.2 d hd)
    rw [ht] at htarget
    obtain ⟨l, hl, hpass⟩ := htarget
    obtain ⟨past, rest⟩ := g
    subst hr
    have hfront := (((Cursor.passes_skipGap hd).trans hpass).trans (Cursor.passes_skipGap hg)).trans
      (passes_comma past r)
    cases hread : readReferences false .import_ ⟨',' :: past, r⟩ with
    | error e =>
      rw [hread] at ih
      exact hfront.error ih
    | ok p =>
      rw [hread] at ih
      obtain ⟨passed, hpassed, hrest, hbehind⟩ := ih
      refine ⟨_, ?_, hfront.trans hrest, ?_⟩
      · intro p hp
        simp only [List.nil_append, List.append_nil, List.singleton_append, List.mem_append,
          List.mem_cons, List.not_mem_nil, or_false] at hp
        rcases hp with (rfl | rfl) | hp
        · exact directive?_of_target? hl
        · rfl
        · exact hpassed p hp
      · intro ps hps
        rw [← hbehind ps hps]
        exact listed_of_comma .import_ (p := ⟨l, d.past⟩) (q := ⟨⟨.single, [',']⟩, past⟩) hl rfl
          (passed ++ ps)
  | case6 c d hd target f ht reference himport g hg hne =>
    subst himport
    have htarget := readTarget_passes (ahead_skipGap.2 d hd)
    rw [ht] at htarget
    obtain ⟨l, hl, hpass⟩ := htarget
    have hfront := ((Cursor.passes_skipGap hd).trans hpass).trans (Cursor.passes_skipGap hg)
    refine ⟨_, ?_, hfront, ?_⟩
    · simpa using directive?_of_target? hl
    · intro ps hps
      have hend : ∀ q qs, ps = q :: qs → q.lexeme.isComma = false := by
        rintro q qs rfl
        exact isComma_of_ahead (ahead_skipGap.2 g hg) hne hps
      exact listed_of_end .import_ (p := ⟨l, d.past⟩) hl hend
  | case7 c d hd target f ht reference himport =>
    have htarget := readTarget_passes (ahead_skipGap.2 d hd)
    rw [ht] at htarget
    obtain ⟨l, hl, hpass⟩ := htarget
    refine ⟨_, ?_, (Cursor.passes_skipGap hd).trans hpass, ?_⟩
    · simpa using directive?_of_target? hl
    · intro ps _
      rw [behind_of_ne himport]
      exact take_listed directive (p := ⟨l, d.past⟩) hl ps

theorem references_append {passed : List Placed}
    (h : ∀ p ∈ passed, p.lexeme.directive? = none) (ps : List Placed) :
    references (passed ++ ps) = references ps := by
  induction passed with
  | nil => rfl
  | cons p passed ih =>
    rw [List.forall_mem_cons] at h
    rw [List.cons_append, references, h.1]
    exact ih h.2

/-- The references of the text after the cursor, by its lexemes. -/
def Cursor.referencesAhead (c : Cursor) : Except ScanError (List Reference) :=
  c.ahead.map references

/-- Lexemes that begin no rule have no references. -/
theorem Cursor.Passes.referencesAhead {c d : Cursor} {passed : List Placed}
    (h : c.Passes passed d) (hpassed : ∀ p ∈ passed, p.lexeme.directive? = none) :
    c.referencesAhead = d.referencesAhead := by
  rw [Cursor.referencesAhead, Cursor.referencesAhead, h]
  cases d.ahead with
  | error _ => rfl
  | ok ps => exact congrArg Except.ok (references_append hpassed ps)

/-- Reading a rule finds its references and leaves those behind it. -/
theorem readRule_ahead (past r : List Char) :
    match readRule false ⟨past, '@' :: r⟩ with
    | .error e => Cursor.referencesAhead ⟨past, '@' :: r⟩ = .error e
    | .ok (found, f) => Cursor.referencesAhead ⟨past, '@' :: r⟩
        = f.referencesAhead.map (found ++ ·) := by
  have hkeyword := Cursor.ahead_of_counting (first_atKeyword r) rfl past
  have hmove : Cursor.skipWhile isNameChar ⟨'@' :: past, r⟩
      = Cursor.jump (r.takeWhile isNameChar).length ⟨'@' :: past, r⟩ :=
    Cursor.skipWhile_eq_jump isNameChar ⟨'@' :: past, r⟩
  have hword := Cursor.between_jump ⟨'@' :: past, r⟩ (r.takeWhile isNameChar).length
  simp only [readRule, Cursor.step, hmove, hword]
  generalize Cursor.jump (r.takeWhile isNameChar).length ⟨'@' :: past, r⟩ = d at hkeyword ⊢
  generalize r.take (r.takeWhile isNameChar).length = word at hkeyword ⊢
  cases hdirective : Directive.ofWord? word with
  | none =>
    have hpassed : ∀ p ∈ [(⟨⟨.atKeyword, '@' :: word⟩, past⟩ : Placed)],
        p.lexeme.directive? = none := by
      simpa [directive?] using hdirective
    have hpass : Cursor.Passes ⟨past, '@' :: r⟩ [⟨⟨.atKeyword, '@' :: word⟩, past⟩] d := hkeyword
    have hsame := hpass.referencesAhead hpassed
    simp only
    rw [hsame]
    cases d.referencesAhead <;> rfl
  | some directive =>
    have hrightly := readReferences_rightly directive d
    simp only
    cases hread : readReferences false directive d with
    | error e =>
      rw [hread] at hrightly
      have herror : d.ahead = .error e := hrightly
      simp only
      rw [Cursor.referencesAhead, hkeyword, herror]
      rfl
    | ok p =>
      obtain ⟨found, f⟩ := p
      rw [hread] at hrightly
      obtain ⟨passed, hpassed, hpass, hbehind⟩ := hrightly
      simp only
      rw [Cursor.referencesAhead, Cursor.referencesAhead, hkeyword, hpass]
      cases hf : f.ahead with
      | error e => rfl
      | ok ps =>
        have hrule : directive? ⟨.atKeyword, '@' :: word⟩ = some directive := by
          simpa [directive?] using hdirective
        simp only [Except.map, references, hrule, hbehind ps hf, references_append hpassed ps]

theorem referencesAhead_skipGap {c d : Cursor} (h : skipGap false true c = .ok d) :
    c.referencesAhead = d.referencesAhead :=
  (Cursor.passes_skipGap h).referencesAhead (by simp)

/-- Behind a lexeme that begins no rule are the same references. -/
theorem referencesAhead_lexeme {c d : Cursor} {l : Lexeme} (h : c.Passes [⟨l, c.past⟩] d)
    (hl : l.directive? = none) : c.referencesAhead = d.referencesAhead :=
  h.referencesAhead (by simpa using hl)

theorem referencesAhead_of_error {c : Cursor} {e : ScanError} (h : c.ahead = .error e) :
    c.referencesAhead = .error e := by
  rw [Cursor.referencesAhead, h]
  rfl

theorem scanFrom_eq_referencesAhead (c : Cursor) : scanFrom false c = c.referencesAhead := by
  -- each turn of the loop moves over one lexeme that counts, and the text behind it is shorter
  fun_induction scanFrom false c with
  | case1 c e hd => exact (referencesAhead_of_error (Cursor.ahead_of_skipGap_error hd)).symm
  | case2 c d hd hr =>
    rw [referencesAhead_skipGap hd]
    obtain ⟨past, rest⟩ := d
    subst hr
    rw [Cursor.referencesAhead, Cursor.ahead_nil]
    rfl
  | case3 c d hd r e hp hr =>
    rw [referencesAhead_skipGap hd]
    obtain ⟨past, rest⟩ := d
    subst hr
    have hrule := readRule_ahead past r
    rw [hp] at hrule
    exact hrule.symm
  | case4 c d hd r found f hp hr ih =>
    rw [referencesAhead_skipGap hd]
    obtain ⟨past, rest⟩ := d
    subst hr
    have hrule := readRule_ahead past r
    rw [hp] at hrule
    rw [ih]
    exact hrule.symm
  | case5 c d hd ch r hr hat hq e hs =>
    rw [referencesAhead_skipGap hd]
    obtain ⟨past, rest⟩ := d
    subst hr
    have hstring := readStringBody_passes hq past r
    rw [hs] at hstring
    exact (referencesAhead_of_error hstring).symm
  | case6 c d hd ch r hr hat hq content f hs ih =>
    rw [referencesAhead_skipGap hd]
    obtain ⟨past, rest⟩ := d
    subst hr
    have hstring := readStringBody_passes hq past r
    rw [hs] at hstring
    obtain ⟨l, hl, hpass⟩ := hstring
    rw [ih, referencesAhead_lexeme hpass (directive?_of_target? hl)]
  | case7 c d hd ch r hr hat hq hu e hb =>
    rw [referencesAhead_skipGap hd]
    obtain ⟨past, rest⟩ := d
    subst hr
    have hurl := readUrlBody_passes hu past
    rw [hb] at hurl
    exact (referencesAhead_of_error hurl).symm
  | case8 c d hd ch r hr hat hq hu f hb ih =>
    rw [referencesAhead_skipGap hd]
    obtain ⟨past, rest⟩ := d
    subst hr
    have hurl := readUrlBody_passes hu past
    rw [hb] at hurl
    obtain ⟨l, hl, hpass⟩ := hurl
    rw [ih, referencesAhead_lexeme hpass (directive?_of_target? hl)]
  | case9 c d hd ch r hr hat hq hu ih =>
    have hat' := ahead_skipGap.2 d hd
    rw [referencesAhead_skipGap hd, ih]
    obtain ⟨past, rest⟩ := d
    subst hr
    have hfirst : first ch r = .ok (.single, 0) :=
      first_single hat' hat (by simpa using hq) (by simpa using hu)
    have hpass : Cursor.Passes ⟨past, ch :: r⟩ [⟨⟨.single, [ch]⟩, past⟩] ⟨ch :: past, r⟩ :=
      Cursor.ahead_of_counting hfirst rfl past
    exact (referencesAhead_lexeme hpass rfl).symm

/-- The scanner of the spelling with braces finds the references among the lexemes of a text, and
fails where a token is never closed. -/
theorem scan_eq_referencesByLexemes (source : List Char) :
    scan false source = referencesByLexemes source :=
  scanFrom_eq_referencesAhead (.start source)

end SheetBuild.Import
