import Mathlib.Data.List.Basic
import SheetBuild.Proofs.Import.Below
set_option autoImplicit false

/-!
# Scanning joined texts

Two texts that are joined at the boundary of a statement are scanned one after the other
(`scan_join`): the references of the first come first, then those of the second, further down by the
lines of the first.  Whatever the first text ends in the middle of, a seam closes it as the end of the
text would (`Seam`).
-/

namespace SheetBuild.Import

namespace Cursor

/-- The cursor, in the text with more behind it. -/
def extend (tail : List Char) (c : Cursor) : Cursor := ⟨c.past, c.rest ++ tail⟩

theorem extend_mk (tail past r : List Char) : extend tail ⟨past, r⟩ = ⟨past, r ++ tail⟩ := rfl

theorem skipWhile_extend {p : Char → Bool} {tail : List Char}
    (h : ∀ ch ∈ tail.head?, p ch = false) (c : Cursor) :
    (c.extend tail).skipWhile p = (c.skipWhile p).extend tail := by
  obtain ⟨htake, hdrop⟩ := takeWhile_append_tail h c.rest
  simp only [skipWhile, moveOver, extend, htake, hdrop]

end Cursor

open Cursor (Over Inside extend_mk linesOf)

/-- The cursor stands where such a gap is skipped: either the gap may leave the line, or the cursor is
inside a rule of the indented spelling, where no comment leaves it. -/
def Cursor.Fits (indented newlines : Bool) (c : Cursor) : Prop :=
  newlines = false → indented = true ∧ c.Inside

namespace Cursor

variable {indented newlines : Bool} {c d : Cursor}

theorem fits_newlines : Fits indented true c := fun h => absurd h (by simp)

theorem Fits.of_inside (h : Fits indented newlines c) (hd : indented = true → c.Inside → d.Inside) :
    Fits indented newlines d := fun hn => ⟨(h hn).1, hd (h hn).1 (h hn).2⟩

/-- Below its first line a comment covers nothing where it is not to leave the line. -/
theorem Fits.indent? (h : Fits indented newlines c) : newlines = true ∨ c.indent? = none := by
  cases newlines with
  | true => exact .inl rfl
  | false => exact .inr (h rfl).2.indent?_eq

theorem Fits.skipGap (h : Fits indented newlines c) (hd : skipGap indented newlines c = .ok d) :
    Fits indented newlines d := by
  intro hn
  subst hn
  obtain ⟨rfl, hc⟩ := h rfl
  exact ⟨rfl, inside_skipGap hc hd⟩

theorem Fits.readTarget {newlines' : Bool} {f : Cursor} {t : List Char}
    (h : Fits indented newlines d) (hs : Stops newlines' d.rest)
    (ht : readTarget indented d = .ok (some (t, f))) : Fits indented newlines f := by
  obtain ⟨ms, -, -, -, hf⟩ := readTarget_local hs ht
  exact h.of_inside fun _ => hf

end Cursor

/-- What comes behind a text and closes what the text is in the middle of: the lines of a comment and
the references of a rule. -/
structure Seam (indented : Bool) (tail : List Char) : Prop where
  /-- the line ends -/
  line : ∃ r, tail = '\n' :: r
  /-- what a comment covers of the tail is white space -/
  comment : indented = true → ∀ indent past,
    skipGap indented true (skipNested indent ⟨past, tail⟩) = skipGap indented true ⟨past, tail⟩
  /-- a rule finds neither a reference nor a comma in the tail -/
  rule : ∀ past, ∃ d, skipGap indented (!indented) ⟨past, tail⟩ = .ok d ∧
    skipGap indented true d = skipGap indented true ⟨past, tail⟩ ∧
    readTarget indented d = .ok none ∧ ∀ r, d.rest ≠ ',' :: r

namespace Seam

variable {indented newlines : Bool} {tail : List Char}

theorem head_eq (h : Seam indented tail) : ∀ ch ∈ tail.head?, ch = '\n' := by
  obtain ⟨r, rfl⟩ := h.line
  simp

theorem stopsBare (h : Seam indented tail) : StopsBare tail := fun ch hch => by
  rw [h.head_eq ch hch]
  rfl

theorem stopsBare_append (h : Seam indented tail) {rest : List Char} (hrest : StopsBare rest) :
    StopsBare (rest ++ tail) := by
  cases rest with
  | nil => exact h.stopsBare
  | cons ch r => exact hrest

/-- Where the text does not end, a stop remains one before the tail. -/
theorem stops (h : Seam indented tail) {rest : List Char} (hs : Stops newlines rest)
    (hne : rest ≠ []) : Stops newlines (rest ++ tail) := by
  obtain ⟨t, rfl⟩ := h.line
  match rest with
  | [] => exact absurd rfl hne
  | [ch] => exact ⟨by simp [startsComment], hs.noGap⟩
  | _ :: _ :: _ => exact ⟨hs.noComment, hs.noGap⟩

/-! ## White space and comments before a seam -/

/-- What a comment covers before the tail and in it. -/
theorem skipNested_extend (h : Seam true tail) (indent : Nat) (c : Cursor) :
    skipGap true true (skipNested indent (c.extend tail))
      = skipGap true true ((skipNested indent c).extend tail) := by
  obtain ⟨t, ht⟩ := h.line
  fun_induction skipNested indent c with
  | case1 c r hr line hn ih =>
    obtain ⟨past, rest⟩ := c
    subst hr
    obtain ⟨htake, hdrop⟩ := takeWhile_append_tail (p := (· ≠ '\n'))
      (fun ch hch => by simp [h.head_eq ch hch]) r
    rw [extend_mk, List.cons_append, skipNested_line (by rw [htake]; exact hn), htake, hdrop, ← ih]
    simp [Cursor.moveOver, Cursor.extend, line]
  | case2 c r hr line hn =>
    obtain ⟨past, rest⟩ := c
    subst hr
    obtain ⟨htake, -⟩ := takeWhile_append_tail (p := (· ≠ '\n'))
      (fun ch hch => by simp [h.head_eq ch hch]) r
    rw [Bool.not_eq_true] at hn
    rw [extend_mk, List.cons_append, skipNested_of_not (by rw [htake]; exact hn)]
  | case3 c hr =>
    obtain ⟨past, rest⟩ := c
    cases rest with
    | nil => exact h.comment rfl indent past
    | cons ch r =>
      rw [skipNested_stop]
      intro r' heq
      obtain ⟨rfl, -⟩ := List.cons.inj heq
      exact hr r rfl

/-- Below the first line of a comment, where nothing but white space is to be found in the tail. -/
theorem skipBelow_extend (h : Seam indented tail) {indent : Option Nat} {c : Cursor}
    (hin : newlines = true ∨ indent = none) :
    skipGap indented newlines (skipBelow indented indent (c.extend tail))
      = skipGap indented newlines ((skipBelow indented indent c).extend tail) := by
  cases indented with
  | false => rfl
  | true =>
    cases indent with
    | none => rfl
    | some i =>
      obtain rfl : newlines = true := by simpa using hin
      exact h.skipNested_extend i c

theorem skipLineComment_extend (h : Seam indented tail) {c : Cursor}
    (hin : c.Fits indented newlines) :
    skipGap indented newlines (skipLineComment indented (c.extend tail))
      = skipGap indented newlines ((skipLineComment indented c).extend tail) := by
  have hline : ∀ ch ∈ tail.head?, decide (ch ≠ '\n') = false := fun ch hch => by
    simp [h.head_eq ch hch]
  simp only [skipLineComment, Cursor.skipWhile_extend hline]
  exact h.skipBelow_extend hin.indent?

theorem skipBlockBody_extend (h : Seam indented tail) {opening d : Cursor} {past r : List Char}
    (hin : opening.Fits indented newlines)
    (hd : skipBlockBody indented opening past r = .ok d) :
    (skipBlockBody indented (opening.extend tail) past (r ++ tail)).bind
        (skipGap indented newlines)
      = skipGap indented newlines (d.extend tail) := by
  obtain ⟨t, ht⟩ := h.line
  fun_induction skipBlockBody indented opening past r with
  | case1 past hind =>
    obtain rfl := Except.ok.inj hd
    have hbelow := h.skipBelow_extend (c := ⟨past, []⟩) hin.indent?
    have hnone : skipBelow indented opening.indent? ⟨past, []⟩ = ⟨past, []⟩ := by
      unfold skipBelow
      split
      · exact skipNested_stop (by simp)
      · rfl
    rw [hnone] at hbelow
    rw [← hbelow, List.nil_append, ht, skipBlockBody, if_pos (by simp [hind])]
    · rfl
    · simp
  | case2 => simp at hd
  | case3 past r =>
    obtain rfl := Except.ok.inj hd
    rfl
  | case4 past ch r hne hline =>
    obtain rfl := Except.ok.inj hd
    rw [← h.skipBelow_extend hin.indent?, List.cons_append, skipBlockBody,
      if_pos hline]
    · rfl
    · intro r' hch heq
      exact absurd hch (by rintro rfl; simp at hline)
  | case5 past ch r hne hline ih =>
    rw [← ih hd, List.cons_append, skipBlockBody, if_neg hline]
    intro r' hch heq
    cases r with
    | nil =>
      rw [ht] at heq
      simp at heq
    | cons ch' r =>
      obtain ⟨rfl, -⟩ := List.cons.inj heq
      exact hne r hch rfl

/-- White space and comments before the tail are skipped as without it. -/
theorem skipGap_extend (h : Seam indented tail) {c d : Cursor} (hin : c.Fits indented newlines)
    (hd : skipGap indented newlines c = .ok d) :
    skipGap indented newlines (c.extend tail) = skipGap indented newlines (d.extend tail) := by
  fun_induction skipGap indented newlines c with
  | case1 c r hr ih =>
    have hin' : (skipLineComment indented c).Fits indented newlines :=
      hin.of_inside fun _ => inside_skipLineComment
    rw [← ih hin' hd, ← h.skipLineComment_extend hin]
    obtain ⟨past, rest⟩ := c
    subst hr
    exact skipGap_line
  | case2 => simp at hd
  | case3 c r hr e hb ih =>
    obtain ⟨past, rest⟩ := c
    subst hr
    have hin' : e.Fits indented newlines := by
      refine hin.of_inside fun hind hc => ?_
      subst hind
      obtain ⟨ms, hover, hms⟩ := skipBlockBody_of_inside hc hb
      have hopen : Over ('/' :: '*' :: ms) ⟨past, '/' :: '*' :: r⟩ e := hover.cons.cons
      exact hc.over hopen (by simp [hms])
    rw [← ih hin' hd, ← h.skipBlockBody_extend hin hb]
    exact skipGap_block
  | case4 c ch r _ _ hr hgap ih =>
    obtain ⟨past, rest⟩ := c
    subst hr
    have hin' : Cursor.Fits indented newlines ⟨ch :: past, r⟩ := by
      intro hn
      obtain ⟨hind, hc⟩ := hin hn
      have hover : Over [ch] ⟨past, ch :: r⟩ ⟨ch :: past, r⟩ := ⟨rfl, rfl⟩
      refine ⟨hind, hc.over hover fun hmem => ?_⟩
      obtain rfl := List.mem_singleton.1 hmem
      simp [isGap, hn] at hgap
    rw [← ih hin' hd, extend_mk, List.cons_append, skipGap_gap hgap]
    rfl
  | case5 =>
    obtain rfl := Except.ok.inj hd
    rfl
  | case6 =>
    obtain rfl := Except.ok.inj hd
    rfl

/-- Where the text goes on behind a gap, the gap is the same before the tail. -/
theorem skipGap_extend_of_ne_nil (h : Seam indented tail) {c d : Cursor}
    (hin : c.Fits indented newlines) (hd : skipGap indented newlines c = .ok d)
    (hne : d.rest ≠ []) :
    skipGap indented newlines (c.extend tail) = .ok (d.extend tail) := by
  rw [h.skipGap_extend hin hd]
  exact skipGap_stop (h.stops (stops_of_skipGap hd) hne)

/-! ## Rules before a seam -/

/-- Without a reference before the tail, there is none with it. -/
theorem readTarget_none_extend (h : Seam indented tail) {d : Cursor}
    (ht : readTarget indented d = .ok none) (hne : d.rest ≠ []) :
    readTarget indented (d.extend tail) = .ok none := by
  obtain ⟨past, rest⟩ := d
  cases rest with
  | nil => exact absurd rfl hne
  | cons ch r =>
    obtain ⟨hq, hu, hb⟩ := begins_of_readTarget_none ht
    have hu' : startsUrl (ch :: (r ++ tail)) = false := by
      rw [← List.cons_append, startsUrl_append h.stopsBare, hu]
    exact readTarget_of_none hq hu' hb

theorem readTarget_extend (h : Seam indented tail) {d f : Cursor} {target : List Char}
    (hs : Stops newlines d.rest) (ht : readTarget indented d = .ok (some (target, f))) :
    readTarget indented (d.extend tail) = .ok (some (target, f.extend tail)) := by
  obtain ⟨ms, hover, -, hreads, -⟩ := readTarget_local hs ht
  have hread := hreads d.past (f.rest ++ tail) h.stopsBare_append
  rw [Cursor.extend, hover.rest_eq, List.append_assoc, hread, Cursor.extend, hover.past_eq]

/-- Where the text ends behind a gap of a rule, the rule ends in the tail. -/
theorem exists_skipGap_of_nil (h : Seam indented tail) {c d : Cursor}
    (hin : c.Fits indented (!indented)) (hd : skipGap indented (!indented) c = .ok d)
    (hnil : d.rest = []) :
    ∃ d', skipGap indented (!indented) (c.extend tail) = .ok d' ∧
      skipGap indented true d' = skipGap indented true (d.extend tail) ∧
      readTarget indented d' = .ok none ∧ ∀ r, d'.rest ≠ ',' :: r := by
  have htail : d.extend tail = ⟨d.past, tail⟩ := by rw [Cursor.extend, hnil, List.nil_append]
  obtain ⟨d', hd', hsame, hnone, hcomma⟩ := h.rule d.past
  rw [← htail] at hd' hsame
  exact ⟨d', (h.skipGap_extend hin hd).trans hd', hsame, hnone, hcomma⟩

/-- A rule finds the same references before the tail, and goes on to the same place. -/
theorem readReferences_extend (h : Seam indented tail) {directive : Directive} {c k : Cursor}
    {references : List Reference} (hin : c.Fits indented (!indented))
    (hc : readReferences indented directive c = .ok (references, k)) :
    ∃ k', readReferences indented directive (c.extend tail) = .ok (references, k') ∧
      skipGap indented true k' = skipGap indented true (k.extend tail) := by
  have rest_ne_nil : ∀ {d f : Cursor} {t : List Char},
      readTarget indented d = .ok (some (t, f)) → d.rest ≠ [] := by
    intro d f t ht hnil
    simp [readTarget, hnil] at ht
  fun_induction readReferences indented directive c generalizing references k with
  | case1 | case2 | case4 => simp at hc
  | case3 c d hd ht =>
    obtain ⟨rfl, rfl⟩ := Prod.mk.inj (Except.ok.inj hc)
    by_cases hnil : d.rest = []
    · obtain ⟨d', hd', hsame, hnone, -⟩ := h.exists_skipGap_of_nil hin hd hnil
      refine ⟨d', ?_, hsame⟩
      rw [readReferences_eq, hd']
      simp only [Except.bind, hnone]
    · refine ⟨d.extend tail, ?_, rfl⟩
      rw [readReferences_eq, h.skipGap_extend_of_ne_nil hin hd hnil]
      simp only [Except.bind, h.readTarget_none_extend ht hnil]
  | case5 c d hd target f ht reference himport g hg r hr =>
    rename_i ih
    have hd' := h.skipGap_extend_of_ne_nil hin hd (rest_ne_nil ht)
    have hstops := stops_of_skipGap hd
    have hf : f.Fits indented (!indented) := (hin.skipGap hd).readTarget hstops ht
    have hg' := h.skipGap_extend_of_ne_nil hf hg (by simp [hr])
    cases hn : readReferences indented directive ⟨',' :: g.past, r⟩ with
    | error e => simp [hn, Except.map] at hc
    | ok p =>
      obtain ⟨more, k'⟩ := p
      simp only [hn, Except.map, Except.ok.injEq, Prod.mk.injEq] at hc
      obtain ⟨rfl, rfl⟩ := hc
      have hcomma : Cursor.Fits indented (!indented) ⟨',' :: g.past, r⟩ :=
        (hf.skipGap hg).of_inside fun _ _ => Cursor.inside_cons (by decide) (by decide)
      obtain ⟨k', hmore, hsame⟩ := ih hcomma hn
      refine ⟨k', ?_, hsame⟩
      rw [readReferences_eq, hd']
      simp only [Except.bind, h.readTarget_extend hstops ht, if_pos himport, hg']
      simp only [Cursor.extend] at hmore ⊢
      simp only [hr, List.cons_append, hmore]
      rfl
  | case6 c d hd target f ht reference himport g hg =>
    rename_i hne
    obtain ⟨rfl, rfl⟩ := Prod.mk.inj (Except.ok.inj hc)
    have hd' := h.skipGap_extend_of_ne_nil hin hd (rest_ne_nil ht)
    have hstops := stops_of_skipGap hd
    have hf : f.Fits indented (!indented) := (hin.skipGap hd).readTarget hstops ht
    by_cases hnil : g.rest = []
    · obtain ⟨g', hg', hsame, -, hcomma⟩ := h.exists_skipGap_of_nil hf hg hnil
      refine ⟨g', ?_, hsame⟩
      rw [readReferences_eq, hd']
      simp only [Except.bind, h.readTarget_extend hstops ht, if_pos himport, hg']
      rfl
    · have hg' := h.skipGap_extend_of_ne_nil hf hg hnil
      refine ⟨g.extend tail, ?_, rfl⟩
      have hcomma : ∀ r, (g.extend tail).rest ≠ ',' :: r := by
        intro r hr
        obtain ⟨ch, r', hg''⟩ := List.exists_cons_of_ne_nil hnil
        obtain ⟨rfl, -⟩ := List.cons.inj ((congrArg (· ++ tail) hg'').symm.trans hr)
        exact hne r' hg''
      rw [readReferences_eq, hd']
      simp only [Except.bind, h.readTarget_extend hstops ht, if_pos himport, hg']
      rfl
  | case7 c d hd target f ht reference =>
    rename_i himport
    obtain ⟨rfl, rfl⟩ := Prod.mk.inj (Except.ok.inj hc)
    have hd' := h.skipGap_extend_of_ne_nil hin hd (rest_ne_nil ht)
    refine ⟨f.extend tail, ?_, rfl⟩
    rw [readReferences_eq, hd']
    simp only [Except.bind, h.readTarget_extend (stops_of_skipGap hd) ht, if_neg himport]
    rfl

/-- A rule finds the same references before the tail. -/
theorem readRule_extend (h : Seam indented tail) {past r : List Char} {f : Cursor}
    {references : List Reference}
    (hc : readRule indented ⟨past, '@' :: r⟩ = .ok (references, f)) :
    ∃ f', readRule indented (Cursor.extend tail ⟨past, '@' :: r⟩) = .ok (references, f') ∧
      skipGap indented true f' = skipGap indented true (f.extend tail) := by
  have hname : ∀ ch ∈ tail.head?, isNameChar ch = false := fun ch hch => by
    rw [h.head_eq ch hch]
    decide
  have hin : Cursor.Fits indented (!indented) (Cursor.skipWhile isNameChar ⟨'@' :: past, r⟩) :=
    fun hind => ⟨by simpa using hind, inside_name past r⟩
  rw [readRule_eq] at hc
  rw [extend_mk, List.cons_append, readRule_eq, (takeWhile_append_tail hname r).1, ← extend_mk,
    Cursor.skipWhile_extend hname]
  cases hword : Directive.ofWord? (r.takeWhile isNameChar) with
  | none =>
    simp only [hword, Except.ok.injEq, Prod.mk.injEq] at hc
    obtain ⟨rfl, rfl⟩ := hc
    exact ⟨_, rfl, rfl⟩
  | some directive =>
    simp only [hword] at hc
    exact h.readReferences_extend hin hc

/-! ## Texts before a seam -/

theorem readStringBody_extend (tail : List Char) {opening : Cursor} {quote : Char}
    {acc past r s : List Char} {f : Cursor}
    (hs : readStringBody opening quote acc past r = .ok (s, f)) (opening' : Cursor) :
    readStringBody opening' quote acc past (r ++ tail) = .ok (s, f.extend tail) := by
  obtain ⟨ms, ⟨hr, hp⟩, hread⟩ := readStringBody_local hs
  simp only [List.append_assoc, List.singleton_append] at hr
  rw [hr, List.append_assoc, List.cons_append, hread]
  simp [Cursor.extend, hp]

theorem readUrlBody_extend (tail : List Char) {opening c f : Cursor}
    (hu : readUrlBody opening c = .ok f) (opening' : Cursor) :
    readUrlBody opening' (c.extend tail) = .ok (f.extend tail) := by
  obtain ⟨ms, ⟨hr, hp⟩, hread⟩ := readUrlBody_local hu
  simp only [List.append_assoc, List.singleton_append] at hr
  rw [Cursor.extend, hr, List.append_assoc, List.cons_append, hread]
  simp [Cursor.extend, hp]

/-- Before the tail the references of a text are found as without it, and then those of the tail. -/
theorem scanFrom_extend (h : Seam indented tail) {c : Cursor} {references : List Reference}
    (hc : scanFrom indented c = .ok references) :
    scanFrom indented (c.extend tail)
      = (scanFrom indented ⟨c.source.reverse, tail⟩).map (references ++ ·) := by
  have hstop : StopsBare tail := h.stopsBare
  fun_induction scanFrom indented c generalizing references with
  | case1 | case3 | case5 | case7 => simp at hc
  | case2 c d hd hr =>
    obtain rfl := Except.ok.inj hc
    have hend : d.extend tail = ⟨c.source.reverse, tail⟩ := by
      rw [← (reaches_skipGap hd).source_eq, Cursor.source, hr]
      simp [Cursor.extend, hr]
    rw [scanFrom_congr (h.skipGap_extend Cursor.fits_newlines hd), hend]
    cases scanFrom indented ⟨c.source.reverse, tail⟩ <;> rfl
  | case4 c d hd r found f hp hr ih =>
    have hd' := h.skipGap_extend_of_ne_nil Cursor.fits_newlines hd (by simp [hr])
    have hsource : f.source = c.source :=
      (((reaches_skipGap hd).trans (Cursor.reaches_step d)).trans (reaches_readRule hp)).source_eq
    obtain ⟨past, rest⟩ := d
    subst hr
    obtain ⟨f', hp', hsame⟩ := h.readRule_extend hp
    cases hn : scanFrom indented f with
    | error e => simp [hn, Except.map] at hc
    | ok more =>
      simp only [hn, Except.map, Except.ok.injEq] at hc
      subst hc
      rw [scanFrom_eq, hd']
      simp only [Except.bind, Cursor.extend, List.cons_append, if_true]
      simp only [Cursor.extend, List.cons_append] at hp'
      simp only [hp', scanFrom_congr hsame, ih hn, hsource]
      cases scanFrom indented ⟨c.source.reverse, tail⟩ <;> simp [Except.map]
  | case6 c d hd ch r hr hat hq content f hs ih =>
    have hd' := h.skipGap_extend_of_ne_nil Cursor.fits_newlines hd (by simp [hr])
    obtain ⟨past, rest⟩ := d
    subst hr
    have hsource : f.source = c.source :=
      (((reaches_skipGap hd).trans (Cursor.reaches_cons ch)).trans
        (reaches_readStringBody hs)).source_eq
    have hs' := readStringBody_extend tail hs (Cursor.extend tail ⟨past, ch :: r⟩)
    rw [scanFrom_eq, hd', ← hsource, ← ih hc]
    simp only [Except.bind, Cursor.extend, List.cons_append, if_neg hat, if_pos hq]
    simp only [Cursor.extend, List.cons_append] at hs'
    rw [hs']
  | case8 c d hd ch r hr hat hq hu f hb ih =>
    have hd' := h.skipGap_extend_of_ne_nil Cursor.fits_newlines hd (by simp [hr])
    obtain ⟨past, rest⟩ := d
    subst hr
    have hsource : f.source = c.source :=
      (((reaches_skipGap hd).trans (Cursor.reaches_cons ch)).trans
        (reaches_readUrlBody hb)).source_eq
    have hb' := readUrlBody_extend tail hb (Cursor.extend tail ⟨past, ch :: r⟩)
    have hu' : startsUrl (ch :: (r ++ tail)) = true := (startsUrl_append hstop).trans hu
    rw [scanFrom_eq, hd', ← hsource, ← ih hc]
    simp only [Except.bind, Cursor.extend, List.cons_append, if_neg hat, if_neg hq, if_pos hu']
    simp only [Cursor.extend, List.cons_append] at hb'
    rw [hb']
  | case9 c d hd ch r hr hat hq hu ih =>
    have hd' := h.skipGap_extend_of_ne_nil Cursor.fits_newlines hd (by simp [hr])
    obtain ⟨past, rest⟩ := d
    subst hr
    have hsource : Cursor.source ⟨ch :: past, r⟩ = c.source :=
      ((reaches_skipGap hd).trans (Cursor.reaches_cons ch)).source_eq
    have hu' : ¬startsUrl (ch :: (r ++ tail)) = true := by
      rw [← List.cons_append, startsUrl_append hstop]
      exact hu
    rw [scanFrom_eq, hd', ← hsource, ← ih hc]
    simp only [Except.bind, Cursor.extend, List.cons_append, if_neg hat, if_neg hq, if_neg hu']

end Seam

/-! ## Joined texts -/

/-- What is put between two texts: a line end, and in the spelling with braces also a line with the
end of a statement. -/
def joint (indented : Bool) : List Char := if indented then ['\n'] else ['\n', ';', '\n']

/-- The joint of the spelling with braces ends a rule by its semicolon. -/
theorem seam_braces (second : List Char) : Seam false (joint false ++ second) where
  line := ⟨_, rfl⟩
  comment h := absurd h (by simp)
  rule past := by
    have hstop : Stops true (';' :: '\n' :: second) := ⟨by simp [startsComment], by simp [isGap]⟩
    have hskip : skipGap false true ⟨past, '\n' :: ';' :: '\n' :: second⟩
        = .ok ⟨'\n' :: past, ';' :: '\n' :: second⟩ := by
      rw [skipGap_gap rfl, skipGap_stop hstop]
    refine ⟨_, hskip, ?_, readTarget_of_none rfl rfl rfl, by simp⟩
    rw [skipGap_stop hstop]
    exact hskip.symm

/-- The joint of the indented spelling ends a rule by its line end, and a comment by the line behind
it, which is not indented. -/
theorem seam_indented {second : List Char}
    (h : ∀ ch ∈ second.head?, Text.isBlank ch = false) : Seam true (joint true ++ second) where
  line := ⟨_, rfl⟩
  comment _ indent past := by
    cases second with
    | nil =>
      have hline : isNested indent ([].takeWhile (· ≠ '\n')) = true := rfl
      have hnested : skipNested indent ⟨past, ['\n']⟩ = ⟨'\n' :: past, []⟩ := by
        rw [skipNested_line hline, skipNested_stop (by simp)]
        rfl
      rw [joint, if_pos rfl, List.append_nil, hnested, skipGap_gap rfl]
    | cons ch r =>
      have hch : Text.isBlank ch = false := h ch rfl
      have hend : ch ≠ '\n' := by
        rintro rfl
        exact absurd hch (by decide)
      have hindent : Cursor.isIndent ch = false := by
        rw [Cursor.isIndent, Bool.or_eq_false_iff, decide_eq_false_iff_not,
          decide_eq_false_iff_not]
        constructor <;> (rintro rfl; exact absurd hch (by decide))
      have hline : isNested indent ((ch :: r).takeWhile (· ≠ '\n')) = false := by
        simp [isNested, hend, hch, hindent]
      exact congrArg (skipGap true true) (skipNested_of_not hline)
  rule past := by
    have hstop : Stops false ('\n' :: second) := ⟨by cases second <;> simp [startsComment],
      by simp [isGap]⟩
    exact ⟨⟨past, '\n' :: second⟩, skipGap_stop hstop, rfl, readTarget_of_none rfl rfl rfl, by simp⟩

/-- In the joint itself there is nothing to find. -/
theorem scanFrom_joint (indented : Bool) (past second : List Char) :
    scanFrom indented ⟨past, joint indented ++ second⟩
      = scanFrom indented ⟨(joint indented).reverse ++ past, second⟩ := by
  have hline : ∀ past r, scanFrom indented ⟨past, '\n' :: r⟩ = scanFrom indented ⟨'\n' :: past, r⟩ :=
    fun past r => scanFrom_congr (skipGap_gap rfl)
  cases indented with
  | true => exact hline past second
  | false =>
    have hstop : Stops true (';' :: '\n' :: second) := ⟨by simp [startsComment], by simp [isGap]⟩
    have hsemicolon : scanFrom false ⟨'\n' :: past, ';' :: '\n' :: second⟩
        = scanFrom false ⟨';' :: '\n' :: past, '\n' :: second⟩ := by
      rw [scanFrom_eq, skipGap_stop hstop]
      rfl
    exact (hline past _).trans (hsemicolon.trans (hline _ second))

/-- A text that is joined behind another which can be scanned: the references of the first, then those
of the second, further down by the lines of the first and of the joint, or what is wrong with the
second, further down as much.  In the indented spelling the second text begins, if with anything, with
a character that is not blank. -/
theorem scan_join {indented : Bool} {first second : List Char} {references : List Reference}
    (hfirst : scan indented first = .ok references)
    (hsecond : indented = true → ∀ ch ∈ second.head?, Text.isBlank ch = false) :
    let n := (if indented then 1 else 2) + first.count '\n'
    scan indented (first ++ joint indented ++ second)
      = lowered n (fun more => references ++ more.map (·.lower n)) (scan indented second) := by
  have hseam : Seam indented (joint indented ++ second) := by
    cases indented with
    | true => exact seam_indented (hsecond rfl)
    | false => exact seam_braces second
  have htail : scanFrom indented ⟨first.reverse, joint indented ++ second⟩
      = lowered ((if indented then 1 else 2) + first.count '\n')
          (·.map (·.lower ((if indented then 1 else 2) + first.count '\n')))
          (scan indented second) := by
    rw [scanFrom_joint]
    cases indented with
    | true =>
      have hlines : linesOf first.reverse = 1 + first.count '\n' := by
        rw [linesOf, List.count_reverse]
      simp only [if_true, ← hlines]
      exact scanFrom_below _ true (.start second)
    | false =>
      have hlines : linesOf (';' :: '\n' :: first.reverse) = 2 + first.count '\n' := by
        simp only [linesOf, List.count_cons, List.count_reverse]
        simp
        omega
      simp only [Bool.false_eq_true, if_false, ← hlines]
      exact scanFrom_below _ false (.start second)
  have hextend := hseam.scanFrom_extend hfirst
  intro n
  rw [List.append_assoc]
  refine hextend.trans ?_
  simp only [Cursor.source, Cursor.start, List.reverse_nil, List.nil_append, htail]
  cases scan indented second <;> rfl

/-- First texts that end in the middle of a list and of a comment, with a second text behind them that
has a reference and one that is not closed. -/
theorem scan_join_unfinished :
    scan true "@import a\n/* open\n  @import b".toList = .ok [⟨.import_, "a", 1, 9⟩] ∧
      scan true ("@import a\n/* open\n  @import b".toList ++ joint true ++ "@use c".toList)
        = .ok [⟨.import_, "a", 1, 9⟩, ⟨.use, "c", 4, 6⟩] ∧
      scan false "@import 'a', // b".toList = .ok [⟨.import_, "a", 1, 9⟩] ∧
      scan false ("@import 'a', // b".toList ++ joint false ++ "'c'; @use 'd".toList)
        = .error ⟨.string, 3, 11⟩ := by
  have hcomment : scan true "@import a\n/* open\n  @import b".toList
      = .ok [⟨.import_, "a", 1, 9⟩] := by decide +kernel
  have hlist : scan false "@import 'a', // b".toList = .ok [⟨.import_, "a", 1, 9⟩] := by
    decide +kernel
  have hfront : ∀ ch ∈ "@use c".toList.head?, Text.isBlank ch = false := by
    rintro ch hch
    obtain rfl : '@' = ch := Option.some.inj hch
    decide
  have huse : scan true "@use c".toList = .ok [⟨.use, "c", 1, 6⟩] := by decide +kernel
  have hopen : scan false "'c'; @use 'd".toList = .error ⟨.string, 1, 11⟩ := by decide +kernel
  refine ⟨hcomment, ?_, hlist, ?_⟩
  · rw [scan_join hcomment (fun _ => hfront), huse]
    rfl
  · rw [scan_join hlist (fun h => absurd h (by decide)), hopen]
    rfl

end SheetBuild.Import
