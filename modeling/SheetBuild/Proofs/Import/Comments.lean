import Mathlib.Data.List.Basic
import SheetBuild.Proofs.Import.Division
set_option autoImplicit false

/-!
# Comments are white space

In the indented spelling a comment can be replaced by spaces, line by line, and the scanner finds the
same references at the same places (`scan_blankComments`).  The spans of the text that are no comments
are read alike when what is behind them is veiled (`firstSpan_veiled`), and a comment inside a rule has
no line end in it that could end the rule (`inside_firstSpan`).
-/

namespace SheetBuild.Import

open Cursor (Over)

/-! ## Blank comments -/

/-- The character that stands for one of a comment: a line end stays, any other becomes a space. -/
def blankChar (ch : Char) : Char := if ch = '\n' then ch else ' '

/-- The text of a span, with spaces for a comment. -/
def Span.blank (s : Span) : List Char :=
  if s.kind = .comment then s.text.map blankChar else s.text

/-- The text with spaces for its comments. -/
def blankComments (source : List Char) : List Char :=
  match divide .rule (.start source) with
  | .ok spans => spans.flatMap Span.blank
  | .error _ => source

/-! ## The same lines -/

/-- The two texts have their line ends at the same places. -/
def SameLines (cs cs' : List Char) : Prop := cs.map (· == '\n') = cs'.map (· == '\n')

namespace SameLines

variable {cs cs' ds ds' : List Char}

theorem append (h : SameLines cs cs') (h' : SameLines ds ds') :
    SameLines (cs ++ ds) (cs' ++ ds') := by
  simp only [SameLines, List.map_append] at *
  rw [h, h']

theorem reverse (h : SameLines cs cs') : SameLines cs.reverse cs'.reverse := by
  simp only [SameLines, List.map_reverse] at *
  rw [h]

/-- A place behind the one is on the same line and in the same column as behind the other. -/
theorem reference_eq (h : SameLines cs cs') (rest rest' : List Char) (directive : Directive)
    (target : List Char) :
    Cursor.reference ⟨cs, rest⟩ directive target
      = Cursor.reference ⟨cs', rest'⟩ directive target := by
  have hcount : ∀ cs : List Char, cs.count '\n' = (cs.map (· == '\n')).count true := by
    intro cs
    simp only [List.count, List.countP_map]
    congr 1
    funext ch
    by_cases hch : ch = '\n' <;> simp [hch]
  have hfront : ∀ cs : List Char, (cs.takeWhile (· ≠ '\n')).length
      = ((cs.map (· == '\n')).takeWhile (!·)).length := by
    intro cs
    rw [List.takeWhile_map, List.length_map]
    congr 2
    funext ch
    by_cases hch : ch = '\n' <;> simp [hch]
  simp only [Cursor.reference, Cursor.line, Cursor.column, Cursor.lineFront, hcount, hfront]
  rw [SameLines] at h
  rw [h]

end SameLines

theorem sameLines_map_blankChar (cs : List Char) : SameLines cs (cs.map blankChar) := by
  rw [SameLines, List.map_map]
  refine List.map_congr_left fun ch _ => ?_
  by_cases hch : ch = '\n' <;> simp [blankChar, hch]

theorem Span.sameLines_blank (s : Span) : SameLines s.text s.blank := by
  unfold Span.blank
  split
  · exact sameLines_map_blankChar s.text
  · rfl

/-- A blank comment is white space, without a line end if the comment has none. -/
theorem isGap_of_mem_blank {newlines : Bool} {cs : List Char}
    (h : newlines = false → '\n' ∉ cs) : ∀ ch ∈ cs.map blankChar, isGap newlines ch = true := by
  intro ch hch
  obtain ⟨x, hx, rfl⟩ := List.mem_map.1 hch
  by_cases hline : x = '\n'
  · subst hline
    cases newlines with
    | true => rfl
    | false => exact absurd hx (h rfl)
  · simp [blankChar, hline, isGap]

/-! ## Veiled texts -/

/-- The second text is the first with spaces in the place of some characters. -/
inductive Veils : List Char → List Char → Prop where
  | nil : Veils [] []
  | keep (ch : Char) {cs cs' : List Char} (h : Veils cs cs') : Veils (ch :: cs) (ch :: cs')
  | space (ch : Char) {cs cs' : List Char} (h : Veils cs cs') : Veils (ch :: cs) (' ' :: cs')

namespace Veils

variable {cs cs' ds ds' : List Char}

theorem append (h : Veils cs cs') (h' : Veils ds ds') : Veils (cs ++ ds) (cs' ++ ds') := by
  induction h with
  | nil => exact h'
  | keep ch _ ih => exact .keep ch ih
  | space ch _ ih => exact .space ch ih

theorem refl (cs : List Char) : Veils cs cs := by
  induction cs with
  | nil => exact .nil
  | cons ch cs ih => exact .keep ch ih

/-- What is no space in the veiled text is the same in the text. -/
theorem of_cons {ch : Char} (h : Veils cs (ch :: cs')) (hch : ch ≠ ' ') :
    ∃ r, cs = ch :: r ∧ Veils r cs' := by
  cases h with
  | keep _ h => exact ⟨_, rfl, h⟩
  | space _ _ => exact absurd rfl hch

theorem head {P : Char → Prop} (h : Veils cs cs') (hspace : P ' ') (hcs : ∀ ch ∈ cs.head?, P ch) :
    ∀ ch ∈ cs'.head?, P ch := by
  cases h with
  | nil => exact hcs
  | keep ch _ => exact hcs
  | space ch _ => simpa using hspace

theorem startsComment_eq (h : Veils cs cs') (hcs : startsComment cs = false) :
    startsComment cs' = false := by
  rw [← Bool.not_eq_true] at hcs ⊢
  intro hcs'
  obtain ⟨r', rfl | rfl⟩ := startsComment_iff.1 hcs'
  all_goals
    obtain ⟨_, rfl, h₁⟩ := h.of_cons (by decide)
    obtain ⟨r, rfl, -⟩ := h₁.of_cons (by decide)
    exact hcs (startsComment_iff.2 ⟨r, by simp⟩)

theorem startsUrl_eq (h : Veils cs cs') (hcs : startsUrl cs = false) : startsUrl cs' = false := by
  rw [← Bool.not_eq_true] at hcs ⊢
  intro hcs'
  obtain ⟨r', rfl⟩ := startsUrl_iff.1 hcs'
  obtain ⟨_, rfl, h₁⟩ := h.of_cons (by decide)
  obtain ⟨_, rfl, h₂⟩ := h₁.of_cons (by decide)
  obtain ⟨_, rfl, h₃⟩ := h₂.of_cons (by decide)
  obtain ⟨r, rfl, -⟩ := h₃.of_cons (by decide)
  exact hcs (startsUrl_iff.2 ⟨r, rfl⟩)

theorem stopsBare (h : Veils cs cs') (hcs : StopsBare cs) : StopsBare cs' :=
  h.head (P := fun ch => endsBare ch = true) (by decide) hcs

/-- A run of characters that are no spaces ends where it did. -/
theorem takeWhile_eq {p : Char → Bool} (h : Veils cs cs') (hp : p ' ' = false)
    (hds : (ds ++ cs).takeWhile p = ds) : (ds ++ cs').takeWhile p = ds := by
  induction ds with
  | nil =>
    cases h with
    | nil => rfl
    | keep ch _ =>
      cases hch : p ch with
      | true => simp [hch] at hds
      | false => simp [hch]
    | space ch _ => simp [hp]
  | cons ch ds ih =>
    cases hch : p ch with
    | true =>
      rw [List.cons_append, List.takeWhile_cons_of_pos hch] at hds ⊢
      rw [ih (List.cons.inj hds).2]
    | false => simp [hch] at hds

end Veils

theorem Span.veils_blank (s : Span) : Veils s.text s.blank := by
  unfold Span.blank
  split
  · induction s.text with
    | nil => exact .nil
    | cons ch cs ih =>
      by_cases hch : ch = '\n'
      · simpa [blankChar, hch] using Veils.keep '\n' ih
      · simpa [blankChar, hch] using Veils.space ch ih
  · exact .refl _

theorem veils_flatMap_blank (spans : List Span) :
    Veils (spans.flatMap (·.text)) (spans.flatMap Span.blank) := by
  induction spans with
  | nil => exact .nil
  | cons s spans ih =>
    rw [List.flatMap_cons, List.flatMap_cons]
    exact s.veils_blank.append ih

/-! ## Spans before a veiled text -/

section Span

variable {sought next : Sought} {past t rest rest' : List Char} {ch : Char} {kind : SpanKind}

theorem between_cons_append (past past' ms rest : List Char) (ch : Char) :
    between ⟨past, ch :: (ms ++ rest)⟩ ⟨past', rest⟩ = ch :: ms := by
  have hover : Over (ch :: ms) ⟨past, ch :: (ms ++ rest)⟩ ⟨(ch :: ms).reverse ++ past, rest⟩ :=
    ⟨rfl, rfl⟩
  exact hover.between_eq

theorem between_closed (past past' ms rest : List Char) (ch ch' : Char) :
    between ⟨past, ch :: (ms ++ ch' :: rest)⟩ ⟨past', rest⟩ = ch :: (ms ++ [ch']) := by
  simpa using between_cons_append past past' (ms ++ [ch']) rest ch

theorem outerSpan_veiled (hveil : Veils rest rest')
    (h : outerSpan past ch (t ++ rest) = .ok (⟨kind, ch :: t⟩, next)) (past' : List Char) :
    outerSpan past' ch (t ++ rest') = .ok (⟨kind, ch :: t⟩, next) := by
  by_cases hat : ch = '@'
  · have hname : (t ++ rest).takeWhile isNameChar = t := by
      simp only [outerSpan, if_pos hat] at h
      split at h <;> simp_all
    have hname' := hveil.takeWhile_eq (by decide) hname
    simp only [outerSpan, if_pos hat, hname] at h
    simp only [outerSpan, if_pos hat, hname']
    exact h
  by_cases hq : isQuote ch = true
  · simp only [outerSpan, if_neg hat, if_pos hq] at h ⊢
    cases hs : readStringBody ⟨past, ch :: (t ++ rest)⟩ ch [] (ch :: past) (t ++ rest) with
    | error e => simp [hs, Except.map] at h
    | ok p =>
      obtain ⟨ms, hover, hread⟩ := readStringBody_local hs
      simp only [hs, Except.map, hover.cons.between_eq, Except.ok.injEq, Prod.mk.injEq,
        Span.mk.injEq, List.cons.injEq, true_and] at h
      obtain ⟨⟨rfl, rfl⟩, rfl⟩ := h
      simp only [List.append_assoc, List.singleton_append, hread, Except.map, between_closed]
  by_cases hu : startsUrl (ch :: (t ++ rest)) = true
  · simp only [outerSpan, if_neg hat, if_neg hq, if_pos hu] at h
    cases hs : readUrlBody ⟨past, ch :: (t ++ rest)⟩ ⟨ch :: past, t ++ rest⟩ with
    | error e => simp [hs, Except.map] at h
    | ok f =>
      obtain ⟨ms, hover, hread⟩ := readUrlBody_local hs
      simp only [hs, Except.map, hover.cons.between_eq, Except.ok.injEq, Prod.mk.injEq,
        Span.mk.injEq, List.cons.injEq, true_and] at h
      obtain ⟨⟨rfl, rfl⟩, rfl⟩ := h
      have hu' : startsUrl (ch :: (ms ++ ')' :: rest')) = true := by
        rw [List.append_assoc, ← List.cons_append] at hu
        exact startsUrl_congr hu
      simp only [outerSpan, if_neg hat, if_neg hq, List.append_assoc, List.singleton_append,
        if_pos hu', hread, Except.map, between_closed]
  · simp only [outerSpan, if_neg hat, if_neg hq, if_neg hu, Except.ok.injEq, Prod.mk.injEq,
      Span.mk.injEq, List.cons.injEq, true_and] at h
    obtain ⟨⟨rfl, rfl⟩, rfl⟩ := h
    have hu' : startsUrl (ch :: ([] ++ rest')) = false :=
      (Veils.keep ch hveil).startsUrl_eq (by simpa using hu)
    simp only [outerSpan, if_neg hat, if_neg hq, hu', Bool.false_eq_true, if_false]

/-- A span that is no comment is read by what it is made of, wherever it stands and with whatever
spaces behind it. -/
theorem firstSpan_veiled (hveil : Veils rest rest') (hkind : kind ≠ .comment)
    (h : firstSpan sought past ch (t ++ rest) = .ok (⟨kind, ch :: t⟩, next)) (past' : List Char) :
    firstSpan sought past' ch (t ++ rest') = .ok (⟨kind, ch :: t⟩, next) := by
  have hveils : Veils (ch :: (t ++ rest)) (ch :: (t ++ rest')) :=
    .keep ch ((Veils.refl t).append hveil)
  have hcomment : startsComment (ch :: (t ++ rest)) = false := by
    rw [← Bool.not_eq_true]
    intro hcomment
    rw [firstSpan_of_comment hcomment] at h
    exact hkind (congrArg Span.kind (Prod.mk.inj (Except.ok.inj h)).1).symm
  have hcomment' := hveils.startsComment_eq hcomment
  by_cases hgap : isGap sought.newlines ch = true
  · rw [firstSpan_of_gap hgap] at h ⊢
    exact h
  have hstops : Stops sought.newlines (ch :: (t ++ rest)) := ⟨hcomment, by simpa using hgap⟩
  have hstops' : Stops sought.newlines (ch :: (t ++ rest')) := ⟨hcomment', by simpa using hgap⟩
  cases sought with
  | rule =>
    rw [firstSpan_rule hcomment] at h
    rw [firstSpan_rule hcomment']
    exact outerSpan_veiled hveil h past'
  | comma =>
    rw [firstSpan_comma hstops] at h
    rw [firstSpan_comma hstops']
    by_cases hch : ch = ','
    · rw [if_pos hch] at h ⊢
      exact h
    · rw [if_neg hch] at h ⊢
      exact outerSpan_veiled hveil h past'
  | target directive =>
    rw [firstSpan_target hstops] at h
    rw [firstSpan_target hstops']
    cases ht : readTarget true ⟨past, ch :: (t ++ rest)⟩ with
    | error e => simp [ht, Except.bind] at h
    | ok target? =>
      cases target? with
      | none =>
        have ht' : readTarget true ⟨past', ch :: (t ++ rest')⟩ = .ok none := by
          obtain ⟨hq, hu, hb⟩ := begins_of_readTarget_none ht
          exact readTarget_of_none hq (hveils.startsUrl_eq hu) hb
        simp only [ht, ht', Except.bind] at h ⊢
        exact outerSpan_veiled hveil h past'
      | some p =>
        obtain ⟨target, f⟩ := p
        obtain ⟨ms, hover, -, hreads, -⟩ := readTarget_local hstops ht
        simp only [ht, Except.bind, hover.between_eq, Except.ok.injEq, Prod.mk.injEq,
          Span.mk.injEq] at h
        obtain ⟨⟨rfl, rfl⟩, rfl⟩ := h
        have happend : ch :: t ++ rest = ch :: t ++ f.rest := hover.rest_eq
        rw [← List.append_cancel_left happend] at hreads
        have ht' := hreads past' rest' hveil.stopsBare
        rw [List.cons_append] at ht'
        simp only [ht', Except.bind, between_cons_append]

end Span

/-! ## Inside a rule -/

theorem Cursor.Over.unique {ms : List Char} {c d d' : Cursor} (h : Over ms c d)
    (h' : Over ms c d') : d = d' := h.behind_eq.symm.trans h'.behind_eq

/-- A comment in a rule goes no further than the line. -/
theorem line_end_not_mem_commentText {c : Cursor} (h : c.Inside) : '\n' ∉ c.commentText := by
  have hline : '\n' ∉ c.rest.takeWhile (· ≠ '\n') := fun hmem => by
    simpa using List.all_eq_true.1 List.all_takeWhile _ hmem
  simp only [Cursor.commentText, h.indent?_eq, belowText, List.append_nil]
  split
  · exact fun hmem => hline (List.mem_of_mem_take hmem)
  · exact hline

section Inside

variable {sought next : Sought} {past r : List Char} {ch : Char} {span : Span} {d : Cursor}

/-- Whatever is looked for in a rule is looked for inside it. -/
theorem inside_firstSpan (h : firstSpan sought past ch r = .ok (span, next))
    (hover : Over span.text ⟨past, ch :: r⟩ d)
    (hin : sought.newlines = false → Cursor.Inside ⟨past, ch :: r⟩)
    (hnext : next.newlines = false) : d.Inside := by
  cases firstSpan_cases h with
  | comment hcomment => exact (hin hnext).over hover (line_end_not_mem_commentText (hin hnext))
  | gap hgap =>
    refine (hin hnext).over hover fun hmem => ?_
    obtain rfl := List.mem_singleton.1 hmem
    simp [hnext, isGap] at hgap
  | reference ht hstops hover' =>
    obtain ⟨ms, -, -, -, hinside⟩ := readTarget_local hstops ht
    rw [hover.unique hover']
    exact hinside (hin rfl)
  | comma hch =>
    rw [hover.eq, hch]
    exact Cursor.inside_cons (by decide) (by decide)
  | outer houter =>
    obtain ⟨t, d', rfl, hover', rfl | ⟨rfl, rfl⟩⟩ := outerSpan_cases houter
    · exact absurd hnext (by decide)
    · rw [hover.unique hover']
      exact inside_name past r

end Inside

/-! ## Scanning with blank comments -/

section Blank

variable {sought next : Sought} {past r : List Char} {ch : Char} {span : Span}

theorem kind_ne_of_firstSpan (h : firstSpan sought past ch r = .ok (span, next))
    (hcomment : startsComment (ch :: r) = false) : span.kind ≠ .comment := by
  cases firstSpan_cases h with
  | comment hstarts => exact absurd (hstarts.symm.trans hcomment) (by decide)
  | gap | comma | reference => simp
  | outer houter =>
    obtain ⟨t, d, rfl, -⟩ := outerSpan_cases houter
    simp

/-- White space is passed as a whole. -/
theorem found_gaps {ms rest : List Char} (h : ∀ x ∈ ms, isGap sought.newlines x = true) :
    found sought ⟨past, ms ++ rest⟩ = found sought ⟨ms.reverse ++ past, rest⟩ := by
  obtain ⟨d, hd⟩ := exists_skipGap sought.newlines ⟨past, ms ++ rest⟩
  have hd' := hd
  rw [skipGap_gaps h] at hd'
  rw [found_skipGap sought rfl hd, found_skipGap sought rfl hd']

/-- With spaces for the comments, the same references are found at the same places. -/
theorem found_blank {c : Cursor} {spans : List Span} (h : divide sought c = .ok spans)
    (hin : sought.newlines = false → c.Inside) {past' : List Char} (hpast : SameLines c.past past') :
    found sought ⟨past', spans.flatMap Span.blank⟩ = .ok (Span.references c.past spans) := by
  fun_induction divide sought c generalizing spans past' with
  | case1 sought c hr =>
    obtain rfl := Except.ok.inj h
    exact found_nil sought past'
  | case2 => simp at h
  | case3 sought c ch r hr span next hs ih =>
    obtain ⟨past, rest⟩ := c
    subst hr
    obtain ⟨d, hover, hne⟩ := over_firstSpan hs
    rw [hover.behind_eq] at h ih
    cases hd : divide next d with
    | error e => simp [hd, Except.map] at h
    | ok more =>
      simp only [hd, Except.map, Except.ok.injEq] at h
      subst h
      have hlines : SameLines d.past (span.blank.reverse ++ past') := by
        rw [hover.past_eq]
        exact span.sameLines_blank.reverse.append hpast
      have hmore := ih hd (inside_firstSpan hs hover hin) hlines
      rw [List.flatMap_cons]
      cases hcomment : startsComment (ch :: r) with
      | true =>
        rw [firstSpan_of_comment hcomment] at hs
        obtain ⟨rfl, rfl⟩ := Prod.mk.inj (Except.ok.inj hs)
        have hgaps := isGap_of_mem_blank fun hn => line_end_not_mem_commentText (hin hn)
        rw [Span.references, ← hover.past_eq, ← hmore]
        exact found_gaps hgaps
      | false =>
        have hkind := kind_ne_of_firstSpan hs hcomment
        obtain ⟨kind, text⟩ := span
        obtain ⟨t, rfl, hr⟩ : ∃ t, text = ch :: t ∧ r = t ++ d.rest := by
          obtain ⟨ch', t, rfl⟩ := List.exists_cons_of_ne_nil hne
          obtain ⟨rfl, hr⟩ := List.cons.inj hover.rest_eq
          exact ⟨t, rfl, hr⟩
        have hblank : Span.blank ⟨kind, ch :: t⟩ = ch :: t := if_neg hkind
        rw [hblank] at hmore ⊢
        have hveil := veils_flatMap_blank more
        rw [flatMap_text_of_divide hd] at hveil
        rw [hr] at hs
        have hs' := firstSpan_veiled hveil hkind hs past'
        have hover' : Over (ch :: t) ⟨past', ch :: (t ++ more.flatMap Span.blank)⟩
            ⟨(ch :: t).reverse ++ past', more.flatMap Span.blank⟩ := ⟨rfl, rfl⟩
        rw [List.cons_append]
        cases kind with
        | comment => exact absurd rfl hkind
        | other => rw [found_of_span hs' hover' (.inr rfl), hmore, Span.references, ← hover.past_eq]
        | reference directive target =>
          rw [found_of_reference hs' hover', hmore, Span.references, ← hover.past_eq,
            hpast.reference_eq]
          rfl

end Blank

/-- In the indented spelling comments are white space.  A text that can be scanned is made up of its
comments, the references that are reported, and other spans; and with spaces for its comments it has
the same references at the same places. -/
theorem scan_blankComments {source : List Char} {reported : List Reference}
    (h : scan true source = .ok reported) :
    scan true (blankComments source) = .ok reported ∧
      ∃ spans, divide .rule (.start source) = .ok spans ∧ spans.flatMap (·.text) = source ∧
        Span.references [] spans = reported := by
  rw [scan_eq_divide] at h
  cases hd : divide .rule (.start source) with
  | error e => simp [hd, Except.map] at h
  | ok spans =>
    simp only [hd, Except.map, Except.ok.injEq] at h
    refine ⟨?_, spans, rfl, flatMap_text_of_divide hd, h⟩
    have hblank : blankComments source = spans.flatMap Span.blank := by rw [blankComments, hd]
    have hfound : found .rule ⟨[], spans.flatMap Span.blank⟩ = .ok (Span.references [] spans) :=
      found_blank hd (fun hn => absurd hn (by decide)) rfl
    rw [hblank, scan_eq_divide, ← h]
    exact hfound

/-- A comment behind a reference, one with a blank line and a deeper line below it, one that is closed
on its line, and an empty one with a line below it. -/
theorem scan_blankComments_nested :
    let source := "@import a // b\n  /* c\n\n     @import d\n  @use e /* f */\n//\n\t@import g\n@forward h"
    let blank := "@import a     \n      \n\n              \n  @use e        \n  \n          \n@forward h"
    let reported : List Reference :=
      [⟨.import_, "a", 1, 9⟩, ⟨.use, "e", 5, 8⟩, ⟨.forward, "h", 8, 10⟩]
    scan true source.toList = .ok reported ∧ blankComments source.toList = blank.toList ∧
      scan true blank.toList = .ok reported := by
  intro source blank reported
  have hscan : scan true source.toList = .ok reported := by decide +kernel
  have hblank : blankComments source.toList = blank.toList := by decide +kernel
  obtain ⟨hblanked, -⟩ := scan_blankComments hscan
  rw [hblank] at hblanked
  exact ⟨hscan, hblank, hblanked⟩

end SheetBuild.Import
