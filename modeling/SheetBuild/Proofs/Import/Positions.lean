import Mathlib.Data.List.Forall2
import SheetBuild.Proofs.Import.Division
set_option autoImplicit false

/-!
# Where references and errors are placed

What a scan reports, against a grammar of its tokens that knows nothing of cursors.  `StringBody` and
`UrlBody` say what may stand inside a string and inside a `url(…)`, `Spells` what a reference is
spelled like before a given text, and `NeverClosed` what a text looks like that opens a token for
nothing.  `lineAt` and `columnAt` count the line and the column of an offset in the whole text.

In both spellings of a stylesheet the references of a scan are tokens of the text, one behind the
other, and the line and the column of each are those of the one offset where it begins; an error is
placed at the one offset where a token opens that is never closed (`scan_places`).
-/

namespace SheetBuild.Import

open Cursor (Over over_skipWhile)

/-! ## Tokens -/

/-- How the text between the quotes of a string is spelled, and what it says: a backslash takes the
character behind it as it is. -/
inductive StringBody (quote : Char) : List Char → List Char → Prop
  | nil : StringBody quote [] []
  | plain {ch : Char} {s t : List Char} (hquote : ch ≠ quote) (hline : ch ≠ '\n')
      (hslash : ch ≠ '\\') (h : StringBody quote s t) : StringBody quote (ch :: s) (ch :: t)
  | escaped {ch : Char} {s t : List Char} (h : StringBody quote s t) :
      StringBody quote ('\\' :: ch :: s) (ch :: t)

/-- What may stand between the parentheses of a `url(…)`: strings, and other characters of one line. -/
inductive UrlBody : List Char → Prop
  | nil : UrlBody []
  | string {quote : Char} {b t s : List Char} (hquote : isQuote quote = true)
      (hb : StringBody quote b t) (h : UrlBody s) : UrlBody (quote :: (b ++ quote :: s))
  | plain {ch : Char} {s : List Char} (hquote : isQuote ch = false) (hline : ch ≠ '\n')
      (hclose : ch ≠ ')') (h : UrlBody s) : UrlBody (ch :: s)

/-- The opening of a `url(…)`. -/
def urlOpening : List Char := ['u', 'r', 'l', '(']

/-- `Spells indented text after target`: before `after`, a reference to `target` is spelled `text`.  It
is a string, which stands for its content; a `url(…)`, which stands for itself; or, in the indented
spelling, a run of characters that none could lengthen. -/
inductive Spells (indented : Bool) : List Char → List Char → List Char → Prop
  | string {quote : Char} {b t after : List Char} (hquote : isQuote quote = true)
      (hb : StringBody quote b t) : Spells indented (quote :: (b ++ [quote])) after t
  | url {b after : List Char} (hb : UrlBody b) :
      Spells indented (urlOpening ++ b ++ [')']) after (urlOpening ++ b ++ [')'])
  | bare {text after : List Char} (hindented : indented = true) (hne : text ≠ [])
      (hquote : ∀ ch ∈ text.head?, isQuote ch = false) (hurl : startsUrl (text ++ after) = false)
      (hrun : ∀ ch ∈ text, endsBare ch = false) (hmax : StopsBare after) :
      Spells indented text after text

/-- Whether a string that is open before the text is closed in it. -/
def ClosesString (quote : Char) (cs : List Char) : Prop :=
  ∃ b t after, StringBody quote b t ∧ cs = b ++ quote :: after

/-- Whether a `url(` that is open before the text is closed in it. -/
def ClosesUrl (cs : List Char) : Prop := ∃ b after, UrlBody b ∧ cs = b ++ ')' :: after

/-- The text begins with the opening of a token that is not closed in it.  In the indented spelling a
comment ends with its lines at the latest. -/
inductive NeverClosed (indented : Bool) : Unclosed → List Char → Prop
  | string {quote : Char} {cs : List Char} (hquote : isQuote quote = true)
      (h : ¬ ClosesString quote cs) : NeverClosed indented .string (quote :: cs)
  | url {cs : List Char} (h : ¬ ClosesUrl cs) : NeverClosed indented .url (urlOpening ++ cs)
  | comment {cs : List Char} (hindented : indented = false) (h : ¬ ['*', '/'] <:+: cs) :
      NeverClosed indented .comment ('/' :: '*' :: cs)

/-- The spelling of a reference is not empty. -/
theorem Spells.ne_nil {indented : Bool} {text after target : List Char}
    (h : Spells indented text after target) : text ≠ [] := by
  cases h with
  | string => exact List.cons_ne_nil _ _
  | url => exact List.cons_ne_nil _ _
  | bare _ hne => exact hne

theorem eq_of_startsUrl {ch : Char} {r : List Char} (h : startsUrl (ch :: r) = true) :
    ch = 'u' ∧ ∃ r', r = 'r' :: 'l' :: '(' :: r' := by
  obtain ⟨r', hr⟩ := startsUrl_iff.1 h
  exact ⟨(List.cons.inj hr).1, r', (List.cons.inj hr).2⟩

/-- Where a string ends does not depend on what follows it. -/
theorem StringBody.unique {quote : Char} {b b' t t' r r' : List Char} (h : StringBody quote b t)
    (h' : StringBody quote b' t') (hquote : isQuote quote = true)
    (heq : b ++ quote :: r = b' ++ quote :: r') : b = b' ∧ r = r' := by
  have hne : quote ≠ '\\' := by
    rintro rfl
    exact absurd hquote (by decide)
  induction h generalizing b' t' with
  | nil =>
    cases h' with
    | nil => exact ⟨rfl, (List.cons.inj heq).2⟩
    | plain hquote => exact absurd (List.cons.inj heq).1.symm hquote
    | escaped => exact absurd (List.cons.inj heq).1 hne
  | plain hquote _ hslash _ ih =>
    cases h' with
    | nil => exact absurd (List.cons.inj heq).1 hquote
    | plain _ _ _ h' =>
      obtain ⟨rfl, htail⟩ := List.cons.inj heq
      obtain ⟨rfl, rfl⟩ := ih h' htail
      exact ⟨rfl, rfl⟩
    | escaped => exact absurd (List.cons.inj heq).1 hslash
  | escaped _ ih =>
    cases h' with
    | nil => exact absurd (List.cons.inj heq).1.symm hne
    | plain _ _ hslash => exact absurd (List.cons.inj heq).1.symm hslash
    | escaped h' =>
      obtain ⟨rfl, htail⟩ := List.cons.inj (List.cons.inj heq).2
      obtain ⟨rfl, rfl⟩ := ih h' htail
      exact ⟨rfl, rfl⟩

/-- What a `url(…)` may go on with at a character: a string, or a character that is none of a quote,
a line feed and a closing parenthesis. -/
theorem urlBody_cons_iff {ch : Char} {s : List Char} :
    UrlBody (ch :: s) ↔
      (isQuote ch = true ∧ ∃ b t s', StringBody ch b t ∧ s = b ++ ch :: s' ∧ UrlBody s') ∨
      (isQuote ch = false ∧ ch ≠ '\n' ∧ ch ≠ ')' ∧ UrlBody s) := by
  constructor
  · intro h
    generalize hcs : ch :: s = cs at h
    cases h with
    | nil => simp at hcs
    | string hquote hb h =>
      obtain ⟨rfl, rfl⟩ := List.cons.inj hcs
      exact .inl ⟨hquote, _, _, _, hb, rfl, h⟩
    | plain hquote hline hclose h =>
      obtain ⟨rfl, rfl⟩ := List.cons.inj hcs
      exact .inr ⟨hquote, hline, hclose, h⟩
  · rintro (⟨hquote, b, t, s', hb, rfl, h⟩ | ⟨hquote, hline, hclose, h⟩)
    · exact .string hquote hb h
    · exact .plain hquote hline hclose h

/-- Behind its opening, a `url(…)` goes on with what could stand inside it anyway. -/
theorem urlBody_opening_iff {b : List Char} : UrlBody ('r' :: 'l' :: '(' :: b) ↔ UrlBody b := by
  have hr : isQuote 'r' = false := by decide
  have hl : isQuote 'l' = false := by decide
  have hp : isQuote '(' = false := by decide
  simp [urlBody_cons_iff, hr, hl, hp]

/-- Where a `url(` is closed, its parenthesis is next, or a string is, or another character of the
line. -/
theorem closesUrl_cons {ch : Char} {r : List Char} (h : ClosesUrl (ch :: r)) :
    ch = ')' ∨
    (isQuote ch = true ∧ ∃ b t r', StringBody ch b t ∧ r = b ++ ch :: r' ∧ ClosesUrl r') ∨
    (isQuote ch = false ∧ ch ≠ '\n' ∧ ClosesUrl r) := by
  obtain ⟨b, after, hb, heq⟩ := h
  cases b with
  | nil => exact .inl (List.cons.inj heq).1
  | cons ch' b =>
    obtain ⟨rfl, rfl⟩ := List.cons.inj heq
    rcases urlBody_cons_iff.1 hb with ⟨hquote, b', t, s, hb', rfl, hs⟩ | ⟨hquote, hline, -, hs⟩
    · exact .inr (.inl ⟨hquote, b', t, s ++ ')' :: after, hb', by simp, s, after, hs, rfl⟩)
    · exact .inr (.inr ⟨hquote, hline, b, after, hs, rfl⟩)

/-! ## Reading tokens -/

theorem readStringBody_ok {opening : Cursor} {quote : Char} {acc past r t : List Char} {f : Cursor}
    (h : readStringBody opening quote acc past r = .ok (t, f)) :
    ∃ b s, StringBody quote b s ∧ t = acc.reverse ++ s ∧ Over (b ++ [quote]) ⟨past, r⟩ f := by
  fun_induction readStringBody opening quote acc past r with
  | case1 | case3 | case4 => simp at h
  | case2 acc past r =>
    obtain ⟨rfl, rfl⟩ := Prod.mk.inj (Except.ok.inj h)
    exact ⟨[], [], .nil, by simp, ⟨rfl, rfl⟩⟩
  | case5 acc past ch r _ _ ih =>
    obtain ⟨b, s, hb, rfl, hover⟩ := ih h
    exact ⟨'\\' :: ch :: b, ch :: s, hb.escaped, by simp, hover.cons.cons⟩
  | case6 acc past ch r hquote hline hslash ih =>
    obtain ⟨b, s, hb, rfl, hover⟩ := ih h
    exact ⟨ch :: b, ch :: s, hb.plain hquote hline hslash, by simp, hover.cons⟩

/-- A string is not read only where none of the bodies it could have is followed by its quote. -/
theorem readStringBody_error {opening : Cursor} {quote : Char} {acc past r : List Char}
    {e : ScanError} (h : readStringBody opening quote acc past r = .error e) :
    e = opening.unclosed .string ∧ ¬ ClosesString quote r := by
  fun_induction readStringBody opening quote acc past r with
  | case1 =>
    refine ⟨(Except.error.inj h).symm, ?_⟩
    rintro ⟨b, t, after, -, hr⟩
    simp at hr
  | case2 => simp at h
  | case3 acc past r hquote =>
    refine ⟨(Except.error.inj h).symm, ?_⟩
    rintro ⟨b, t, after, hb, hr⟩
    cases hb with
    | nil => exact hquote (List.cons.inj hr).1
    | plain _ hline => exact hline (List.cons.inj hr).1.symm
    | escaped => exact absurd (List.cons.inj hr).1 (by decide)
  | case4 acc past hquote =>
    refine ⟨(Except.error.inj h).symm, ?_⟩
    rintro ⟨b, t, after, hb, hr⟩
    cases hb with
    | nil => exact hquote (List.cons.inj hr).1
    | plain _ _ hslash => exact hslash (List.cons.inj hr).1.symm
    | escaped => simp at hr
  | case5 acc past ch r hquote _ ih =>
    refine ⟨(ih h).1, ?_⟩
    rintro ⟨b, t, after, hb, hr⟩
    cases hb with
    | nil => exact hquote (List.cons.inj hr).1
    | plain _ _ hslash => exact hslash (List.cons.inj hr).1.symm
    | escaped hb =>
      exact (ih h).2 ⟨_, _, after, hb, (List.cons.inj (List.cons.inj hr).2).2⟩
  | case6 acc past ch r hquote _ hslash ih =>
    refine ⟨(ih h).1, ?_⟩
    rintro ⟨b, t, after, hb, hr⟩
    cases hb with
    | nil => exact hquote (List.cons.inj hr).1
    | plain _ _ _ hb => exact (ih h).2 ⟨_, _, after, hb, (List.cons.inj hr).2⟩
    | escaped => exact hslash (List.cons.inj hr).1

theorem readUrlBody_ok {opening c f : Cursor} (h : readUrlBody opening c = .ok f) :
    ∃ b, UrlBody b ∧ Over (b ++ [')']) c f := by
  fun_induction readUrlBody opening c with
  | case1 | case2 | case4 => simp at h
  | case3 c ch r hr hq _ d hs ih =>
    obtain ⟨past, rest⟩ := c
    subst hr
    obtain ⟨b, hb, hover⟩ := ih h
    obtain ⟨b', s, hb', -, hover'⟩ := readStringBody_ok hs
    refine ⟨ch :: (b' ++ ch :: b), .string hq hb' hb, ?_⟩
    simpa using (hover'.trans hover).cons
  | case5 c r hr =>
    obtain ⟨past, rest⟩ := c
    subst hr
    obtain rfl := Except.ok.inj h
    exact ⟨[], .nil, ⟨rfl, rfl⟩⟩
  | case6 c ch r hr hq hline hclose ih =>
    obtain ⟨past, rest⟩ := c
    subst hr
    obtain ⟨b, hb, hover⟩ := ih h
    exact ⟨ch :: b, .plain (by simpa using hq) hline hclose hb, hover.cons⟩

/-- The error is that of a token which opens at or behind the cursor and is never closed. -/
def Cursor.Blames (c : Cursor) (indented : Bool) (e : ScanError) : Prop :=
  ∃ d, c.Reaches d ∧ e = d.unclosed e.token ∧ NeverClosed indented e.token d.rest

theorem Cursor.Reaches.blames {c d : Cursor} {indented : Bool} {e : ScanError} (h : c.Reaches d)
    (he : d.Blames indented e) : c.Blames indented e := by
  obtain ⟨f, hf, heq, hnever⟩ := he
  exact ⟨f, h.trans hf, heq, hnever⟩

theorem blames_string {indented : Bool} {quote : Char} {acc past past' r : List Char} {e : ScanError}
    (hquote : isQuote quote = true)
    (h : readStringBody ⟨past, quote :: r⟩ quote acc past' r = .error e) :
    Cursor.Blames ⟨past, quote :: r⟩ indented e := by
  obtain ⟨rfl, hnever⟩ := readStringBody_error h
  exact ⟨_, .refl _, rfl, .string hquote hnever⟩

/-- A `url(` is not read because a string inside it is never closed, or because it is not closed
itself. -/
theorem readUrlBody_error {indented : Bool} {opening c : Cursor} {e : ScanError}
    (h : readUrlBody opening c = .error e) :
    c.Blames indented e ∨ e = opening.unclosed .url ∧ ¬ ClosesUrl c.rest := by
  fun_induction readUrlBody opening c with
  | case1 c hr =>
    refine .inr ⟨(Except.error.inj h).symm, ?_⟩
    rintro ⟨b, after, -, hb⟩
    simp [hr] at hb
  | case2 c ch r hr hq e' hs =>
    obtain ⟨past, rest⟩ := c
    subst hr
    obtain rfl := Except.error.inj h
    exact .inl (blames_string hq hs)
  | case3 c ch r hr hq s d hs ih =>
    obtain ⟨past, rest⟩ := c
    subst hr
    obtain ⟨b, t, hb, -, hover⟩ := readStringBody_ok hs
    have hreaches : Cursor.Reaches ⟨past, ch :: r⟩ d := ⟨_, hover.cons.rest_eq, hover.cons.past_eq⟩
    rcases ih h with hblames | ⟨he, hnever⟩
    · exact .inl (hreaches.blames hblames)
    · refine .inr ⟨he, fun hcloses => ?_⟩
      rcases closesUrl_cons hcloses with rfl | ⟨-, b', t', r', hb', hr', hcloses'⟩ | ⟨hq', -⟩
      · exact absurd hq (by decide)
      · have heq : b ++ ch :: d.rest = b' ++ ch :: r' := by
          rw [← hr']
          simpa using hover.rest_eq.symm
        obtain ⟨-, rfl⟩ := hb.unique hb' hq heq
        exact hnever hcloses'
      · simp [hq] at hq'
  | case4 c r hr =>
    refine .inr ⟨(Except.error.inj h).symm, fun hcloses => ?_⟩
    rw [hr] at hcloses
    rcases closesUrl_cons hcloses with hp | ⟨hq, -⟩ | ⟨-, hline, -⟩
    · exact absurd hp (by decide)
    · exact absurd hq (by decide)
    · exact hline rfl
  | case5 => simp at h
  | case6 c ch r hr hq hline hclose ih =>
    obtain ⟨past, rest⟩ := c
    subst hr
    have hc : Cursor.Reaches ⟨past, ch :: r⟩ ⟨ch :: past, r⟩ := Cursor.reaches_cons ch
    rcases ih h with hblames | ⟨he, hnever⟩
    · exact .inl (hc.blames hblames)
    · refine .inr ⟨he, fun hcloses => ?_⟩
      rcases closesUrl_cons hcloses with hp | ⟨hq', -⟩ | ⟨-, -, hcloses'⟩
      · exact hclose hp
      · exact hq hq'
      · exact hnever hcloses'

/-! ## Gaps -/

theorem skipBlockBody_error {indented : Bool} {opening : Cursor} {past r : List Char} {e : ScanError}
    (h : skipBlockBody indented opening past r = .error e) :
    e = opening.unclosed .comment ∧ indented = false ∧ ¬ ['*', '/'] <:+: r := by
  fun_induction skipBlockBody indented opening past r with
  | case1 | case3 | case4 => simp at h
  | case2 _ hindented =>
    refine ⟨(Except.error.inj h).symm, by simpa using hindented, ?_⟩
    simp
  | case5 past ch r hclose _ ih =>
    obtain ⟨he, hindented, hnever⟩ := ih h
    refine ⟨he, hindented, fun hinfix => ?_⟩
    rcases List.infix_cons_iff.1 hinfix with hprefix | hinfix
    · obtain ⟨r', hr⟩ := hprefix
      obtain ⟨rfl, rfl⟩ := List.cons.inj hr
      exact hclose r' rfl rfl
    · exact hnever hinfix

theorem skipGap_error {indented newlines : Bool} {c : Cursor} {e : ScanError}
    (h : skipGap indented newlines c = .error e) : c.Blames indented e := by
  fun_induction skipGap indented newlines c with
  | case1 c r hr ih => exact (reaches_skipLineComment indented c).blames (ih h)
  | case2 c r hr e' hb =>
    obtain rfl := Except.error.inj h
    obtain ⟨he, hindented, hnever⟩ := skipBlockBody_error hb
    refine ⟨c, .refl c, ?_, ?_⟩
    · rw [he]
      rfl
    · rw [he, hr]
      exact .comment hindented hnever
  | case3 c r hr d hb ih =>
    have hopening : c.Reaches ⟨'*' :: '/' :: c.past, r⟩ := ⟨['/', '*'], by simp [hr], by simp⟩
    exact (hopening.trans (reaches_skipBlockBody hb)).blames (ih h)
  | case4 c ch r _ _ hr _ ih =>
    exact (Cursor.reaches_of_rest_eq hr).blames (ih h)
  | case5 | case6 => simp at h

/-! ## References -/

/-- The reference begins at the first cursor and ends at the second. -/
structure Cursor.Refers (indented : Bool) (reference : Reference) (c d : Cursor) : Prop where
  line_eq : reference.line = c.line
  column_eq : reference.column = c.column
  spells : ∃ text, Over text c d ∧ Spells indented text d.rest reference.target.toList

/-- What a `url(…)` is read over is its opening, what stands inside it, and its parenthesis. -/
theorem readUrlBody_spells {indented : Bool} {past r : List Char} {ch : Char} {opening d : Cursor}
    (hurl : startsUrl (ch :: r) = true) (h : readUrlBody opening ⟨ch :: past, r⟩ = .ok d) :
    ∃ text, Over text ⟨past, ch :: r⟩ d ∧ Spells indented text d.rest text := by
  obtain ⟨rfl, r', rfl⟩ := eq_of_startsUrl hurl
  obtain ⟨b, hb, hover⟩ := readUrlBody_ok h
  -- no parenthesis closes it within the opening
  have hbody : ∃ b', b = 'r' :: 'l' :: '(' :: b' := by
    have heq := hover.rest_eq
    match b with
    | [] | [_] | [_, _] => simp at heq
    | _ :: _ :: _ :: b' =>
      simp only [List.cons_append, List.cons.injEq] at heq
      obtain ⟨rfl, rfl, rfl, -⟩ := heq
      exact ⟨b', rfl⟩
  obtain ⟨b', rfl⟩ := hbody
  exact ⟨urlOpening ++ b' ++ [')'], hover.cons, .url (urlBody_opening_iff.1 hb)⟩

/-- An unquoted reference goes as far as it can. -/
theorem spells_skipWhile {newlines : Bool} {past r : List Char} {ch : Char}
    (hstops : Stops newlines (ch :: r)) (hquote : isQuote ch = false)
    (hurl : startsUrl (ch :: r) = false) (hstart : startsBare ch = true) :
    Spells true ((ch :: r).takeWhile (!endsBare ·))
      (Cursor.skipWhile (!endsBare ·) ⟨past, ch :: r⟩).rest
      ((ch :: r).takeWhile (!endsBare ·)) := by
  have hends : endsBare ch = false := endsBare_of_startsBare hstops hstart
  have hover := over_skipWhile (!endsBare ·) ⟨past, ch :: r⟩
  refine .bare rfl ?_ ?_ ?_ ?_ ?_
  · simp [hends]
  · simp [hends, hquote]
  · rw [← hover.rest_eq]
    exact hurl
  · intro ch' hmem
    simpa using List.all_eq_true.1 List.all_takeWhile ch' hmem
  · intro ch' hmem
    have hend := List.head?_dropWhile_not (!endsBare ·) (ch :: r)
    simp only [Cursor.skipWhile, Cursor.moveOver, Option.mem_def] at hmem
    simpa [hmem] using hend

theorem readTarget_ok {indented newlines : Bool} {c d : Cursor} {t : List Char}
    (hstops : Stops newlines c.rest) (h : readTarget indented c = .ok (some (t, d))) :
    ∃ text, Over text c d ∧ Spells indented text d.rest t := by
  obtain ⟨past, rest⟩ := c
  cases rest with
  | nil => simp [readTarget] at h
  | cons ch r =>
    cases hquote : isQuote ch with
    | true =>
      rw [readTarget_of_quote hquote] at h
      cases hb : readStringBody ⟨past, ch :: r⟩ ch [] (ch :: past) r with
      | error e => simp [hb, Except.map] at h
      | ok p =>
        simp only [hb, Except.map, Except.ok.injEq, Option.some.injEq] at h
        subst h
        obtain ⟨b, s, hbody, rfl, hover⟩ := readStringBody_ok hb
        exact ⟨_, hover.cons, by simpa using .string hquote hbody⟩
    | false =>
      cases hurl : startsUrl (ch :: r) with
      | true =>
        rw [readTarget_of_url hquote hurl] at h
        cases hb : readUrlBody ⟨past, ch :: r⟩ ⟨ch :: past, r⟩ with
        | error e => simp [hb, Except.map] at h
        | ok f =>
          simp only [hb, Except.map, Except.ok.injEq, Option.some.injEq, Prod.mk.injEq] at h
          obtain ⟨rfl, rfl⟩ := h
          obtain ⟨text, hover, hspells⟩ := readUrlBody_spells hurl hb
          exact ⟨text, hover, by rwa [hover.between_eq]⟩
      | false =>
        cases hbare : indented && startsBare ch with
        | false => simp [readTarget_of_none hquote hurl hbare] at h
        | true =>
          obtain ⟨rfl, hstart⟩ := Bool.and_eq_true_iff.1 hbare
          rw [readTarget_of_bare hquote hurl hstart] at h
          simp only [Except.ok.injEq, Option.some.injEq, Prod.mk.injEq] at h
          obtain ⟨rfl, rfl⟩ := h
          exact ⟨_, over_skipWhile _ _, spells_skipWhile hstops hquote hurl hstart⟩

theorem blames_url {indented : Bool} {past r : List Char} {ch : Char} {e : ScanError}
    (hurl : startsUrl (ch :: r) = true)
    (h : readUrlBody ⟨past, ch :: r⟩ ⟨ch :: past, r⟩ = .error e) :
    Cursor.Blames ⟨past, ch :: r⟩ indented e := by
  obtain ⟨rfl, r', rfl⟩ := eq_of_startsUrl hurl
  rcases readUrlBody_error h with hblames | ⟨rfl, hnever⟩
  · exact (Cursor.reaches_cons _).blames hblames
  · refine ⟨_, .refl _, rfl, .url fun ⟨b, after, hb, heq⟩ => hnever ?_⟩
    exact ⟨'r' :: 'l' :: '(' :: b, after, urlBody_opening_iff.2 hb, by simp [heq]⟩

theorem readTarget_error {indented : Bool} {c : Cursor} {e : ScanError}
    (h : readTarget indented c = .error e) : c.Blames indented e := by
  obtain ⟨past, rest⟩ := c
  cases rest with
  | nil => simp [readTarget] at h
  | cons ch r =>
    cases hquote : isQuote ch with
    | true =>
      rw [readTarget_of_quote hquote] at h
      cases hb : readStringBody ⟨past, ch :: r⟩ ch [] (ch :: past) r with
      | error e' =>
        simp only [hb, Except.map, Except.error.injEq] at h
        exact h ▸ blames_string hquote hb
      | ok p => simp [hb, Except.map] at h
    | false =>
      cases hurl : startsUrl (ch :: r) with
      | true =>
        rw [readTarget_of_url hquote hurl] at h
        cases hb : readUrlBody ⟨past, ch :: r⟩ ⟨ch :: past, r⟩ with
        | error e' =>
          simp only [hb, Except.map, Except.error.injEq] at h
          exact h ▸ blames_url hurl hb
        | ok f => simp [hb, Except.map] at h
      | false =>
        cases hbare : indented && startsBare ch with
        | false => simp [readTarget_of_none hquote hurl hbare] at h
        | true =>
          obtain ⟨rfl, hstart⟩ := Bool.and_eq_true_iff.1 hbare
          simp [readTarget_of_bare hquote hurl hstart] at h

/-! ## Rules and texts -/

/-- From the first cursor to the second the references stand one behind the other. -/
inductive Cursor.Finds (indented : Bool) : List Reference → Cursor → Cursor → Prop
  | nil {c d : Cursor} (h : c.Reaches d) : Finds indented [] c d
  | cons {reference : Reference} {references : List Reference} {c d f g : Cursor}
      (hgap : c.Reaches d) (hrefers : d.Refers indented reference f)
      (h : Finds indented references f g) : Finds indented (reference :: references) c g

open Cursor (Finds)

theorem Cursor.Reaches.finds {indented : Bool} {references : List Reference} {c d f : Cursor}
    (h : c.Reaches d) (hfinds : Finds indented references d f) : Finds indented references c f := by
  cases hfinds with
  | nil hgap => exact .nil (h.trans hgap)
  | cons hgap hrefers hfinds => exact .cons (h.trans hgap) hrefers hfinds

theorem Cursor.Finds.trans {indented : Bool} {references references' : List Reference}
    {c d f : Cursor} (h : Finds indented references c d) (h' : Finds indented references' d f) :
    Finds indented (references ++ references') c f := by
  induction h with
  | nil hgap => exact hgap.finds h'
  | cons hgap hrefers _ ih => exact .cons hgap hrefers (ih h')

theorem Cursor.Over.reaches {text : List Char} {c d : Cursor} (h : Over text c d) : c.Reaches d :=
  ⟨text, h.rest_eq, h.past_eq⟩

/-- The reference that is read behind a gap. -/
theorem refers_of_readTarget {indented newlines : Bool} {c d f : Cursor} {directive : Directive}
    {target : List Char} (hd : skipGap indented newlines c = .ok d)
    (ht : readTarget indented d = .ok (some (target, f))) :
    d.Refers indented (d.reference directive target) f := by
  obtain ⟨text, hover, hspells⟩ := readTarget_ok (stops_of_skipGap hd) ht
  exact ⟨rfl, rfl, text, hover, by simpa [Cursor.reference] using hspells⟩

theorem readReferences_ok {indented : Bool} {directive : Directive} {c : Cursor}
    {p : List Reference × Cursor} (h : readReferences indented directive c = .ok p) :
    Finds indented p.1 c p.2 := by
  fun_induction readReferences indented directive c generalizing p with
  | case1 | case2 | case4 => simp at h
  | case3 c d hd =>
    obtain rfl := Except.ok.inj h
    exact .nil (reaches_skipGap hd)
  | case5 c d hd target f ht _ _ g hg r hr =>
    rename_i ih
    cases hn : readReferences indented directive ⟨',' :: g.past, r⟩ with
    | error e => simp [hn, Except.map] at h
    | ok q =>
      simp only [hn, Except.map, Except.ok.injEq] at h
      subst h
      have hcomma : g.Reaches ⟨',' :: g.past, r⟩ := Cursor.reaches_of_rest_eq hr
      exact .cons (reaches_skipGap hd) (refers_of_readTarget hd ht)
        (((reaches_skipGap hg).trans hcomma).finds (ih hn))
  | case6 c d hd target f ht _ _ g hg =>
    obtain rfl := Except.ok.inj h
    exact .cons (reaches_skipGap hd) (refers_of_readTarget hd ht) (.nil (reaches_skipGap hg))
  | case7 c d hd target f ht =>
    obtain rfl := Except.ok.inj h
    exact .cons (reaches_skipGap hd) (refers_of_readTarget hd ht) (.nil (.refl f))

theorem readReferences_error {indented : Bool} {directive : Directive} {c : Cursor} {e : ScanError}
    (h : readReferences indented directive c = .error e) : c.Blames indented e := by
  fun_induction readReferences indented directive c with
  | case1 c e' hd =>
    obtain rfl := Except.error.inj h
    exact skipGap_error hd
  | case2 c d hd e' ht =>
    obtain rfl := Except.error.inj h
    exact (reaches_skipGap hd).blames (readTarget_error ht)
  | case3 | case6 | case7 => simp at h
  | case4 c d hd target f ht _ e' hg =>
    obtain rfl := Except.error.inj h
    exact ((reaches_skipGap hd).trans (reaches_readTarget ht)).blames (skipGap_error hg)
  | case5 c d hd target f ht _ _ g hg r hr =>
    rename_i ih
    cases hn : readReferences indented directive ⟨',' :: g.past, r⟩ with
    | error e' =>
      simp only [hn, Except.map, Except.error.injEq] at h
      have hcomma : g.Reaches ⟨',' :: g.past, r⟩ := Cursor.reaches_of_rest_eq hr
      exact (((reaches_skipGap hd).trans (reaches_readTarget ht)).trans
        ((reaches_skipGap hg).trans hcomma)).blames (ih (h ▸ hn))
    | ok q => simp [hn, Except.map] at h

theorem reaches_name {c : Cursor} : c.Reaches (c.step.skipWhile isNameChar) :=
  (Cursor.reaches_step c).trans (Cursor.reaches_skipWhile _ _)

theorem readRule_ok {indented : Bool} {c : Cursor} {p : List Reference × Cursor}
    (h : readRule indented c = .ok p) : Finds indented p.1 c p.2 := by
  simp only [readRule] at h
  split at h
  · obtain rfl := Except.ok.inj h
    exact .nil reaches_name
  · exact reaches_name.finds (readReferences_ok h)

theorem readRule_error {indented : Bool} {c : Cursor} {e : ScanError}
    (h : readRule indented c = .error e) : c.Blames indented e := by
  simp only [readRule] at h
  split at h
  · simp at h
  · exact reaches_name.blames (readReferences_error h)

theorem scanFrom_ok {indented : Bool} {c : Cursor} {references : List Reference}
    (h : scanFrom indented c = .ok references) : ∃ d, Finds indented references c d := by
  fun_induction scanFrom indented c generalizing references with
  | case1 | case3 | case5 | case7 => simp at h
  | case2 c d hd =>
    obtain rfl := Except.ok.inj h
    exact ⟨d, .nil (reaches_skipGap hd)⟩
  | case4 c d hd r found f hp _ ih =>
    cases hn : scanFrom indented f with
    | error e => simp [hn, Except.map] at h
    | ok rest =>
      simp only [hn, Except.map, Except.ok.injEq] at h
      subst h
      obtain ⟨g, hfinds⟩ := ih hn
      exact ⟨g, (reaches_skipGap hd).finds ((readRule_ok hp).trans hfinds)⟩
  | case6 c d hd ch r hr _ _ s f hs ih =>
    obtain ⟨g, hfinds⟩ := ih h
    have hopening := (reaches_skipGap hd).trans (Cursor.reaches_of_rest_eq hr)
    exact ⟨g, (hopening.trans (reaches_readStringBody hs)).finds hfinds⟩
  | case8 c d hd ch r hr _ _ _ f hu ih =>
    obtain ⟨g, hfinds⟩ := ih h
    have hopening := (reaches_skipGap hd).trans (Cursor.reaches_of_rest_eq hr)
    exact ⟨g, (hopening.trans (reaches_readUrlBody hu)).finds hfinds⟩
  | case9 c d hd ch r hr _ _ _ ih =>
    obtain ⟨g, hfinds⟩ := ih h
    exact ⟨g, ((reaches_skipGap hd).trans (Cursor.reaches_of_rest_eq hr)).finds hfinds⟩

theorem scanFrom_error {indented : Bool} {c : Cursor} {e : ScanError}
    (h : scanFrom indented c = .error e) : c.Blames indented e := by
  fun_induction scanFrom indented c with
  | case1 c e' hd =>
    obtain rfl := Except.error.inj h
    exact skipGap_error hd
  | case2 => simp at h
  | case3 c d hd r e' hp =>
    obtain rfl := Except.error.inj h
    exact (reaches_skipGap hd).blames (readRule_error hp)
  | case4 c d hd r found f hp _ ih =>
    cases hn : scanFrom indented f with
    | error e' =>
      simp only [hn, Except.map, Except.error.injEq] at h
      have hrule : d.Reaches f := (Cursor.reaches_step d).trans (reaches_readRule hp)
      exact ((reaches_skipGap hd).trans hrule).blames (ih (h ▸ hn))
    | ok rest => simp [hn, Except.map] at h
  | case5 c d hd ch r hr _ hq e' hs =>
    obtain ⟨past, rest⟩ := d
    subst hr
    obtain rfl := Except.error.inj h
    exact (reaches_skipGap hd).blames (blames_string hq hs)
  | case6 c d hd ch r hr _ _ s f hs ih =>
    have hopening := (reaches_skipGap hd).trans (Cursor.reaches_of_rest_eq hr)
    exact (hopening.trans (reaches_readStringBody hs)).blames (ih h)
  | case7 c d hd ch r hr _ _ hurl e' hu =>
    obtain ⟨past, rest⟩ := d
    subst hr
    obtain rfl := Except.error.inj h
    exact (reaches_skipGap hd).blames (blames_url hurl hu)
  | case8 c d hd ch r hr _ _ _ f hu ih =>
    have hopening := (reaches_skipGap hd).trans (Cursor.reaches_of_rest_eq hr)
    exact (hopening.trans (reaches_readUrlBody hu)).blames (ih h)
  | case9 c d hd ch r hr _ _ _ ih =>
    exact ((reaches_skipGap hd).trans (Cursor.reaches_of_rest_eq hr)).blames (ih h)

/-! ## Offsets -/

/-- The number of the line that an offset of the text stands in, from 1. -/
def lineAt (source : List Char) (p : Nat) : Nat := 1 + (source.take p).count '\n'

/-- The number of the column that an offset of the text stands in, from 1: of the characters before
the offset, those behind the last line feed count. -/
def columnAt (source : List Char) (p : Nat) : Nat :=
  1 + ((source.take p).reverse.takeWhile (· ≠ '\n')).length

/-- An offset inside the text has this line and this column, and no other offset has both. -/
structure Located (source : List Char) (line column p : Nat) : Prop where
  inside : p < source.length
  line_eq : line = lineAt source p
  column_eq : column = columnAt source p
  unique : ∀ q ≤ source.length, line = lineAt source q → column = columnAt source q → q = p

/-- Of two offsets, the later one stands in a later line or in a later column of the same line. -/
theorem lineAt_lt_or {source : List Char} {p q : Nat} (hlt : p < q) (hq : q ≤ source.length) :
    lineAt source p < lineAt source q ∨
      lineAt source p = lineAt source q ∧ columnAt source p < columnAt source q := by
  obtain ⟨ms, hms⟩ : ∃ ms, source.take q = source.take p ++ ms :=
    ⟨(source.drop p).take (q - p), by rw [← List.take_add, Nat.add_sub_cancel' (Nat.le_of_lt hlt)]⟩
  have hne : 0 < ms.length := by
    have hlen := congrArg List.length hms
    simp only [List.length_append, List.length_take] at hlen
    omega
  by_cases hline : '\n' ∈ ms
  · refine .inl ?_
    have hcount : 0 < ms.count '\n' := List.count_pos_iff.2 hline
    simp only [lineAt, hms, List.count_append]
    omega
  · refine .inr ⟨by simp [lineAt, hms, List.count_eq_zero.2 hline], ?_⟩
    have hall : ∀ ch ∈ ms.reverse, decide (ch ≠ '\n') = true := by
      intro ch hmem
      simpa using ne_of_mem_of_not_mem (List.mem_reverse.1 hmem) hline
    simp only [columnAt, hms, List.reverse_append, List.takeWhile_append_of_pos hall,
      List.length_append, List.length_reverse]
    omega

theorem eq_of_lineAt_of_columnAt {source : List Char} {p q : Nat} (hp : p ≤ source.length)
    (hq : q ≤ source.length) (hline : lineAt source p = lineAt source q)
    (hcolumn : columnAt source p = columnAt source q) : p = q := by
  rcases Nat.lt_trichotomy p q with hlt | heq | hlt
  · have := lineAt_lt_or hlt hq
    omega
  · exact heq
  · have := lineAt_lt_or hlt hp
    omega

theorem Cursor.Reaches.take_eq {source : List Char} {c : Cursor} (h : Reaches (.start source) c) :
    source.take c.past.length = c.past.reverse ∧ source.drop c.past.length = c.rest := by
  have heq : c.past.reverse ++ c.rest = source := by simpa [Cursor.source, start] using h.source_eq
  rw [← heq, ← List.length_reverse]
  simp

/-- The line and the column of a cursor that stands before something locate it. -/
theorem Cursor.Reaches.located {source : List Char} {c : Cursor} (h : Reaches (.start source) c)
    (hrest : c.rest ≠ []) : Located source c.line c.column c.past.length := by
  obtain ⟨htake, hdrop⟩ := h.take_eq
  have hinside : c.past.length < source.length := by
    refine Nat.lt_of_not_le fun hle => hrest ?_
    rw [← hdrop, List.drop_of_length_le hle]
  have hline : c.line = lineAt source c.past.length := by
    rw [lineAt, htake, List.count_reverse, Cursor.line]
  have hcolumn : c.column = columnAt source c.past.length := by
    rw [columnAt, htake, List.reverse_reverse, Cursor.column, lineFront]
  refine ⟨hinside, hline, hcolumn, fun q hq hline' hcolumn' => ?_⟩
  exact eq_of_lineAt_of_columnAt hq (Nat.le_of_lt hinside) (hline' ▸ hline) (hcolumn' ▸ hcolumn)

/-! ## The scan -/

/-- A piece of a text. -/
structure Piece where
  /-- the number of characters before the piece -/
  offset : Nat
  text : List Char

/-- The reference is this piece of the text. -/
structure Reference.Is (indented : Bool) (source : List Char) (r : Reference) (piece : Piece) :
    Prop where
  located : Located source r.line r.column piece.offset
  spells : ∃ after, source.drop piece.offset = piece.text ++ after ∧
    Spells indented piece.text after r.target.toList

/-- The first piece ends before the second begins, and begins before it. -/
structure Piece.Before (a b : Piece) : Prop where
  offset_lt : a.offset < b.offset
  ends_le : a.offset + a.text.length ≤ b.offset

theorem NeverClosed.ne_nil {indented : Bool} {token : Unclosed} {cs : List Char}
    (h : NeverClosed indented token cs) : cs ≠ [] := by
  cases h <;> exact List.cons_ne_nil _ _

/-- Of references one behind the other, each is a piece of the text before the next. -/
theorem Cursor.Finds.exists_pieces {indented : Bool} {source : List Char}
    {references : List Reference} {c d : Cursor} (hc : Reaches (.start source) c)
    (h : Finds indented references c d) :
    ∃ pieces, List.Forall₂ (Reference.Is indented source) references pieces ∧
      pieces.Pairwise Piece.Before ∧ ∀ piece ∈ pieces, c.past.length ≤ piece.offset := by
  induction h with
  | nil => exact ⟨[], .nil, .nil, by simp⟩
  | @cons r rs c d f g hgap hrefers hfinds ih =>
    obtain ⟨text, hover, hspells⟩ := hrefers.spells
    have hd : Reaches (.start source) d := hc.trans hgap
    obtain ⟨pieces, hpieces, hpairwise, hbehind⟩ := ih (hd.trans hover.reaches)
    obtain ⟨-, hdrop⟩ := hd.take_eq
    have hne : text ≠ [] := hspells.ne_nil
    have hlocated : Located source r.line r.column d.past.length := by
      rw [hrefers.line_eq, hrefers.column_eq]
      exact hd.located (by simp [hover.rest_eq, hne])
    have hends : d.past.length + text.length = f.past.length := by
      simp [hover.past_eq, Nat.add_comm]
    have hpos : 0 < text.length := List.length_pos_iff.2 hne
    have hle : c.past.length ≤ d.past.length := by
      obtain ⟨ms, -, hpast⟩ := hgap
      simp [hpast]
    refine ⟨⟨d.past.length, text⟩ :: pieces, .cons ⟨hlocated, f.rest, ?_, hspells⟩ hpieces,
      List.pairwise_cons.2 ⟨fun piece hmem => ?_, hpairwise⟩, fun piece hmem => ?_⟩
    · rw [hdrop, hover.rest_eq]
    · have := hbehind piece hmem
      exact ⟨by simp only; omega, by simp only; omega⟩
    · rcases List.mem_cons.1 hmem with rfl | hmem
      · exact hle
      · have := hbehind piece hmem
        omega

/-- In both spellings of a stylesheet a scan ends, with references or with an error.  The references
are pieces of the text, each before the next; the line and the column of each are those of the one
offset where it begins, and its target is the content of the string there, the whole of the `url(…)`
there, or the longest unquoted run there.  The line and the column of an error are those of the one
offset where its token opens, and that token is never closed. -/
theorem scan_places (indented : Bool) (source : List Char) :
    match scan indented source with
    | .ok references =>
      ∃ pieces, List.Forall₂ (Reference.Is indented source) references pieces ∧
        pieces.Pairwise Piece.Before
    | .error e =>
      ∃ p, Located source e.line e.column p ∧ NeverClosed indented e.token (source.drop p) := by
  cases h : scan indented source with
  | ok references =>
    obtain ⟨d, hfinds⟩ := scanFrom_ok h
    obtain ⟨pieces, hpieces, hpairwise, -⟩ := hfinds.exists_pieces (.refl _)
    exact ⟨pieces, hpieces, hpairwise⟩
  | error e =>
    obtain ⟨d, hd, he, hnever⟩ := scanFrom_error h
    obtain ⟨-, hdrop⟩ := hd.take_eq
    refine ⟨d.past.length, ?_, hdrop ▸ hnever⟩
    rw [he]
    exact hd.located hnever.ne_nil

end SheetBuild.Import
