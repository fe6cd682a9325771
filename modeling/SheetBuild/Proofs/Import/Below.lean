import SheetBuild.Proofs.Import.Readers
set_option autoImplicit false

/-!
# Scanning below other lines

A text that stands below other lines is scanned as it is by itself: the scanner looks back no further
than to the beginning of the line.  Only the line numbers are larger, by the number of the lines above
(`scanFrom_below`).
-/

namespace SheetBuild.Import

/-- The reference, a number of lines further down. -/
def Reference.lower (n : Nat) (r : Reference) : Reference := { r with line := r.line + n }

/-- The error, a number of lines further down. -/
def ScanError.lower (n : Nat) (e : ScanError) : ScanError := { e with line := e.line + n }

/-- What is found, or what is wrong, a number of lines further down. -/
def lowered {α β : Type} (n : Nat) (f : α → β) : Except ScanError α → Except ScanError β
  | .error e => .error (e.lower n)
  | .ok a => .ok (f a)

namespace Cursor

/-- The cursor, in the same text below other lines. -/
def below (above : List Char) (c : Cursor) : Cursor := ⟨c.past ++ '\n' :: above, c.rest⟩

/-- The number of the lines above. -/
def linesOf (above : List Char) : Nat := 1 + above.count '\n'

variable (above : List Char) (c : Cursor)

@[simp] theorem rest_below : (c.below above).rest = c.rest := rfl

@[simp] theorem lineFront_below : (c.below above).lineFront = c.lineFront := by
  simp only [lineFront, below, List.takeWhile_append]
  split
  · rename_i h
    have hall : c.past.takeWhile (· ≠ '\n') = c.past :=
      (List.takeWhile_sublist _).eq_of_length h
    rw [hall, List.takeWhile_cons_of_neg (by simp), List.append_nil]
  · rfl

@[simp] theorem column_below : (c.below above).column = c.column := by
  rw [column, lineFront_below, column]

@[simp] theorem indent?_below : (c.below above).indent? = c.indent? := by
  rw [indent?, lineFront_below, indent?]

@[simp] theorem line_below : (c.below above).line = c.line + linesOf above := by
  simp only [line, below, linesOf, List.count_append, List.count_cons_self]
  omega

@[simp] theorem unclosed_below (token : Unclosed) :
    (c.below above).unclosed token = (c.unclosed token).lower (linesOf above) := by
  simp [unclosed, ScanError.lower]

@[simp] theorem reference_below (directive : Directive) (target : List Char) :
    (c.below above).reference directive target
      = (c.reference directive target).lower (linesOf above) := by
  simp [reference, Reference.lower]

@[simp] theorem skipWhile_below (p : Char → Bool) :
    (c.below above).skipWhile p = (c.skipWhile p).below above := by
  simp [skipWhile, moveOver, below]

theorem below_mk (past r : List Char) : below above ⟨past, r⟩ = ⟨past ++ '\n' :: above, r⟩ := rfl

theorem below_cons (ch : Char) (past r : List Char) :
    (⟨ch :: (past ++ '\n' :: above), r⟩ : Cursor) = below above ⟨ch :: past, r⟩ := rfl

end Cursor

open Cursor (linesOf below_mk below_cons)

variable (above : List Char)

/-! ## White space and comments -/

theorem skipNested_below (indent : Nat) (c : Cursor) :
    skipNested indent (c.below above) = (skipNested indent c).below above := by
  fun_induction skipNested indent c with
  | case1 c r hr line hn ih =>
    obtain ⟨past, rest⟩ := c
    subst hr
    rw [below_mk, skipNested_line hn, ← ih]
    simp [Cursor.moveOver, Cursor.below, line]
  | case2 c r hr line hn =>
    obtain ⟨past, rest⟩ := c
    subst hr
    rw [Bool.not_eq_true] at hn
    rw [below_mk, skipNested_of_not hn]
  | case3 c hr =>
    exact skipNested_stop fun r heq => hr r heq

theorem skipBelow_below (indented : Bool) (indent : Option Nat) (c : Cursor) :
    skipBelow indented indent (c.below above) = (skipBelow indented indent c).below above := by
  unfold skipBelow
  split
  · exact skipNested_below above _ c
  · rfl

theorem skipLineComment_below (indented : Bool) (c : Cursor) :
    skipLineComment indented (c.below above) = (skipLineComment indented c).below above := by
  simp only [skipLineComment, Cursor.skipWhile_below, Cursor.indent?_below, skipBelow_below]

theorem skipBlockBody_below (indented : Bool) (opening : Cursor) (past r : List Char) :
    skipBlockBody indented (opening.below above) (past ++ '\n' :: above) r
      = lowered (linesOf above) (·.below above) (skipBlockBody indented opening past r) := by
  fun_induction skipBlockBody indented opening past r with
  | case1 past h => simp [skipBlockBody, h, lowered, Cursor.below]
  | case2 past h => simp [skipBlockBody, h, lowered]
  | case3 past r => simp [skipBlockBody, lowered, Cursor.below]
  | case4 past ch r hne hline =>
    rw [skipBlockBody, if_pos hline, lowered, Cursor.indent?_below, ← skipBelow_below, below_mk]
    exact hne
  | case5 past ch r hne hline ih =>
    rw [skipBlockBody, if_neg hline, ← ih, List.cons_append]
    exact hne

theorem skipGap_below (indented newlines : Bool) (c : Cursor) :
    skipGap indented newlines (c.below above)
      = lowered (linesOf above) (·.below above) (skipGap indented newlines c) := by
  fun_induction skipGap indented newlines c with
  | case1 c r hr ih =>
    obtain ⟨past, rest⟩ := c
    subst hr
    rw [← ih, ← skipLineComment_below, below_mk, skipGap_line]
  | case2 c r hr e hb =>
    obtain ⟨past, rest⟩ := c
    subst hr
    have hbody := skipBlockBody_below above indented ⟨past, '/' :: '*' :: r⟩
      ('*' :: '/' :: past) r
    simp only at hb
    rw [hb] at hbody
    simp only [below_mk, skipGap_block]
    exact congrArg (Except.bind · (skipGap indented newlines)) hbody
  | case3 c r hr d hb ih =>
    obtain ⟨past, rest⟩ := c
    subst hr
    have hbody := skipBlockBody_below above indented ⟨past, '/' :: '*' :: r⟩
      ('*' :: '/' :: past) r
    simp only at hb
    rw [hb] at hbody
    rw [← ih]
    simp only [below_mk, skipGap_block]
    exact congrArg (Except.bind · (skipGap indented newlines)) hbody
  | case4 c ch r _ _ hr hgap ih =>
    obtain ⟨past, rest⟩ := c
    subst hr
    rw [← ih, below_mk, skipGap_gap hgap, below_cons]
  | case5 c ch r hline hblock hr hgap =>
    exact skipGap_stop (by simpa [hr] using stops_of_cons hline hblock hgap)
  | case6 c hr => exact skipGap_stop (by simpa [hr] using stops_nil)

/-! ## Tokens and rules -/

theorem readStringBody_below (opening : Cursor) (quote : Char) (acc past r : List Char) :
    readStringBody (opening.below above) quote acc (past ++ '\n' :: above) r
      = lowered (linesOf above) (Prod.map id (·.below above))
          (readStringBody opening quote acc past r) := by
  fun_induction readStringBody opening quote acc past r with
  | case1 => simp [readStringBody, lowered]
  | case2 acc past r =>
    rw [readStringBody.eq_def]
    simp [lowered, Cursor.below]
  | case3 acc past r hq =>
    rw [readStringBody.eq_def]
    simp [lowered, hq]
  | case4 acc past hq hn =>
    rw [readStringBody.eq_def]
    simp [lowered, hq]
  | case5 acc past ch r hq hn ih =>
    rw [readStringBody, if_neg hq, if_neg hn, if_pos rfl, ← ih]
    rfl
  | case6 acc past ch r hq hn hb ih =>
    rw [readStringBody.eq_def]
    simp only [if_neg hq, if_neg hn, if_neg hb, ← ih]
    rfl

theorem readUrlBody_below (opening c : Cursor) :
    readUrlBody (opening.below above) (c.below above)
      = lowered (linesOf above) (·.below above) (readUrlBody opening c) := by
  fun_induction readUrlBody opening c with
  | case1 c hr =>
    obtain ⟨past, rest⟩ := c
    subst hr
    rw [below_mk above past, readUrlBody_nil, lowered, Cursor.unclosed_below]
  | case2 c ch r hr hq e hs =>
    obtain ⟨past, rest⟩ := c
    subst hr
    have hstring := readStringBody_below above ⟨past, ch :: r⟩ ch [] (ch :: past) r
    simp only at hs
    rw [hs] at hstring
    rw [below_mk above past, readUrlBody_cons, if_pos hq]
    exact congrArg (Except.bind · _) hstring
  | case3 c ch r hr hq s d hs ih =>
    obtain ⟨past, rest⟩ := c
    subst hr
    have hstring := readStringBody_below above ⟨past, ch :: r⟩ ch [] (ch :: past) r
    simp only at hs
    rw [hs] at hstring
    rw [← ih, below_mk above past, readUrlBody_cons, if_pos hq]
    exact congrArg (Except.bind · _) hstring
  | case4 c r hr hq =>
    obtain ⟨past, rest⟩ := c
    subst hr
    rw [below_mk above past, readUrlBody_cons, if_neg hq, if_pos rfl, lowered, Cursor.unclosed_below]
  | case5 c r hr hq hn =>
    obtain ⟨past, rest⟩ := c
    subst hr
    rw [below_mk above past, readUrlBody_cons, if_neg hq, if_neg hn, if_pos rfl]
    rfl
  | case6 c ch r hr hq hn hp ih =>
    obtain ⟨past, rest⟩ := c
    subst hr
    rw [← ih, below_mk above past, readUrlBody_cons, if_neg hq, if_neg hn, if_neg hp]
    rfl

theorem readTarget_below (indented : Bool) (c : Cursor) :
    readTarget indented (c.below above)
      = lowered (linesOf above) (Option.map (Prod.map id (·.below above)))
          (readTarget indented c) := by
  obtain ⟨past, rest⟩ := c
  cases rest with
  | nil => rfl
  | cons ch r =>
  rw [below_mk]
  cases hq : isQuote ch with
  | true =>
    have hstring := readStringBody_below above ⟨past, ch :: r⟩ ch [] (ch :: past) r
    rw [readTarget_of_quote hq, readTarget_of_quote hq, ← below_mk, ← List.cons_append, hstring]
    cases readStringBody ⟨past, ch :: r⟩ ch [] (ch :: past) r <;> rfl
  | false =>
    cases hu : startsUrl (ch :: r) with
    | true =>
      have hurl := readUrlBody_below above ⟨past, ch :: r⟩ ⟨ch :: past, r⟩
      rw [readTarget_of_url hq hu, readTarget_of_url hq hu, below_cons, ← below_mk, hurl]
      cases readUrlBody ⟨past, ch :: r⟩ ⟨ch :: past, r⟩ <;> rfl
    | false =>
      cases hb : indented && startsBare ch with
      | false =>
        rw [readTarget_of_none hq hu hb, readTarget_of_none hq hu hb]
        rfl
      | true =>
        rw [Bool.and_eq_true] at hb
        obtain ⟨rfl, hb⟩ := hb
        rw [readTarget_of_bare hq hu hb, readTarget_of_bare hq hu hb, ← below_mk,
          Cursor.skipWhile_below]
        rfl

/-- The references that are found, and where the scanner stands, a number of lines further down. -/
def lowerFound (above : List Char) (p : List Reference × Cursor) : List Reference × Cursor :=
  (p.1.map (·.lower (linesOf above)), p.2.below above)

theorem readReferences_below (indented : Bool) (directive : Directive) (c : Cursor) :
    readReferences indented directive (c.below above)
      = lowered (linesOf above) (lowerFound above) (readReferences indented directive c) := by
  fun_induction readReferences indented directive c with
  | case1 c e hd =>
    rw [readReferences_eq, skipGap_below, hd]
    rfl
  | case2 c d hd e ht =>
    rw [readReferences_eq, skipGap_below, hd]
    simp only [lowered, Except.bind, readTarget_below, ht]
  | case3 c d hd ht =>
    rw [readReferences_eq, skipGap_below, hd]
    simp only [lowered, Except.bind, readTarget_below, ht]
    rfl
  | case4 c d hd target f ht himport e hg =>
    rw [readReferences_eq, skipGap_below, hd]
    simp only [lowered, Except.bind, readTarget_below, ht, Option.map_some, Prod.map, id,
      if_pos himport, skipGap_below, hg]
  | case5 c d hd target f ht reference himport g hg r hr ih =>
    obtain ⟨past, rest⟩ := g
    subst hr
    have hnext : readReferences indented directive ⟨',' :: (past ++ '\n' :: above), r⟩
        = lowered (linesOf above) (lowerFound above)
            (readReferences indented directive ⟨',' :: past, r⟩) := ih
    rw [readReferences_eq, skipGap_below, hd]
    simp only [lowered, Except.bind, readTarget_below, ht, Option.map_some, Prod.map, id,
      if_pos himport, skipGap_below, hg, below_mk, hnext, Cursor.reference_below]
    cases readReferences indented directive ⟨',' :: past, r⟩ <;> rfl
  | case6 c d hd target f ht reference himport g hg hne =>
    rw [readReferences_eq, skipGap_below, hd]
    simp only [lowered, Except.bind, readTarget_below, ht, Option.map_some, Prod.map, id,
      if_pos himport, skipGap_below, hg, Cursor.rest_below, Cursor.reference_below]
    rfl
  | case7 c d hd target f ht reference himport =>
    rw [readReferences_eq, skipGap_below, hd]
    simp only [lowered, Except.bind, readTarget_below, ht, Option.map_some, Prod.map, id,
      if_neg himport, Cursor.reference_below]
    rfl

theorem readRule_below (indented : Bool) (past r : List Char) :
    readRule indented (Cursor.below above ⟨past, '@' :: r⟩)
      = lowered (linesOf above) (lowerFound above) (readRule indented ⟨past, '@' :: r⟩) := by
  rw [readRule_eq, below_mk, readRule_eq, below_cons, Cursor.skipWhile_below]
  cases Directive.ofWord? (r.takeWhile isNameChar) with
  | none => rfl
  | some directive => exact readReferences_below above indented directive _

/-! ## Texts -/

/-- A text below other lines has the references of the text, a number of lines further down. -/
theorem scanFrom_below (indented : Bool) (c : Cursor) :
    scanFrom indented (c.below above)
      = lowered (linesOf above) (·.map (·.lower (linesOf above))) (scanFrom indented c) := by
  fun_induction scanFrom indented c with
  | case1 c e hd =>
    rw [scanFrom_eq, skipGap_below, hd]
    rfl
  | case2 c d hd hr =>
    rw [scanFrom_eq, skipGap_below, hd]
    simp only [lowered, Except.bind, Cursor.rest_below, hr]
    rfl
  | case3 c d hd r e hp hr =>
    obtain ⟨past, rest⟩ := d
    subst hr
    rw [scanFrom_eq, skipGap_below, hd]
    simp only [lowered, Except.bind, Cursor.rest_below, if_true, readRule_below, hp]
  | case4 c d hd r found f hp hr ih =>
    obtain ⟨past, rest⟩ := d
    subst hr
    rw [scanFrom_eq, skipGap_below, hd]
    simp only [lowered, Except.bind, Cursor.rest_below, if_true, readRule_below, hp, lowerFound, ih]
    cases scanFrom indented f with
    | error e => rfl
    | ok references => simp [Except.map]
  | case5 c d hd ch r hr hat hq e hs =>
    obtain ⟨past, rest⟩ := d
    subst hr
    have hstring := readStringBody_below above ⟨past, ch :: r⟩ ch [] (ch :: past) r
    simp only at hs
    rw [hs] at hstring
    rw [scanFrom_eq, skipGap_below, hd]
    simp only [lowered, Except.bind, Cursor.rest_below, if_neg hat, if_pos hq]
    exact congrArg (Except.bind · fun p => scanFrom indented p.2) hstring
  | case6 c d hd ch r hr hat hq content f hs ih =>
    obtain ⟨past, rest⟩ := d
    subst hr
    have hstring := readStringBody_below above ⟨past, ch :: r⟩ ch [] (ch :: past) r
    simp only at hs
    rw [hs] at hstring
    rw [← ih, scanFrom_eq, skipGap_below, hd]
    simp only [lowered, Except.bind, Cursor.rest_below, if_neg hat, if_pos hq]
    exact congrArg (Except.bind · fun p => scanFrom indented p.2) hstring
  | case7 c d hd ch r hr hat hq hu e hb =>
    obtain ⟨past, rest⟩ := d
    subst hr
    have hurl := readUrlBody_below above ⟨past, ch :: r⟩ ⟨ch :: past, r⟩
    simp only at hb
    rw [hb] at hurl
    rw [scanFrom_eq, skipGap_below, hd]
    simp only [lowered, Except.bind, Cursor.rest_below, if_neg hat, if_neg hq, if_pos hu]
    exact congrArg (Except.bind · (scanFrom indented)) hurl
  | case8 c d hd ch r hr hat hq hu f hb ih =>
    obtain ⟨past, rest⟩ := d
    subst hr
    have hurl := readUrlBody_below above ⟨past, ch :: r⟩ ⟨ch :: past, r⟩
    simp only at hb
    rw [hb] at hurl
    rw [← ih, scanFrom_eq, skipGap_below, hd]
    simp only [lowered, Except.bind, Cursor.rest_below, if_neg hat, if_neg hq, if_pos hu]
    exact congrArg (Except.bind · (scanFrom indented)) hurl
  | case9 c d hd ch r hr hat hq hu ih =>
    rw [← ih, scanFrom_eq, skipGap_below, hd]
    simp only [lowered, Except.bind, Cursor.rest_below, hr, if_neg hat, if_neg hq, if_neg hu]
    rfl

end SheetBuild.Import
