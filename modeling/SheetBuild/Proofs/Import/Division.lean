import SheetBuild.Proofs.Import.Lexeme
import SheetBuild.Proofs.Import.Readers
set_option autoImplicit false

/-!
# A stylesheet in the indented spelling, divided

`divide` cuts a text in the indented spelling into the comments that the scanner skips, the references
that it reports and everything between them.  How far a comment goes is said without the scanner's
moves (`Cursor.commentText`).  What the scanner finds are the references of the division, each at the
place where its span begins (`scan_eq_divide`).
-/

namespace SheetBuild.Import

/-! ## How far a comment goes -/

/-- The lines of a text, one more than it has line ends. -/
def lines : List Char → List (List Char)
  | [] => [[]]
  | ch :: r =>
    if ch = '\n' then [] :: lines r
    else match lines r with
      | [] => [[ch]]
      | line :: ls => (ch :: line) :: ls

/-- The lines below the end of a comment's first line that belong to it: the longest run of lines that
are blank or indented deeper than the comment. -/
def nestedBelow (indent : Nat) : List Char → List Char
  | '\n' :: r => ((lines r).takeWhile (isNested indent)).flatMap ('\n' :: ·)
  | _ => []

/-- The length of a block comment that is closed on the line which it begins. -/
def closedLength? : List Char → Option Nat
  | '/' :: '*' :: r => (Lexeme.commentLength? r).map (· + 2)
  | _ => none

/-- The lines below that belong to a comment, where nothing but indentation stands before it. -/
def belowText (indent? : Option Nat) (rest : List Char) : List Char :=
  match indent? with
  | none => []
  | some indent => nestedBelow indent rest

/-- The comment that begins at the cursor.  It ends with its `*/` on the same line, or else with the
line or with the last line below that belongs to it. -/
def Cursor.commentText (c : Cursor) : List Char :=
  let line := c.rest.takeWhile (· ≠ '\n')
  match closedLength? line with
  | some n => line.take n
  | none => line ++ belowText c.indent? (c.rest.dropWhile (· ≠ '\n'))

open Cursor (Over)

theorem lines_eq (cs : List Char) :
    lines cs = cs.takeWhile (· ≠ '\n') ::
      match cs.dropWhile (· ≠ '\n') with
      | [] => []
      | _ :: r => lines r := by
  induction cs with
  | nil => rfl
  | cons ch r ih =>
    by_cases hch : ch = '\n'
    · simp [lines, hch]
    · rw [lines, if_neg hch, ih]
      simp [hch]

/-- What is left of a text behind its first line begins with the line end. -/
theorem dropWhile_line (cs : List Char) :
    cs.dropWhile (· ≠ '\n') = [] ∨ ∃ r, cs.dropWhile (· ≠ '\n') = '\n' :: r := by
  cases h : cs.dropWhile (· ≠ '\n') with
  | nil => exact .inl rfl
  | cons ch r =>
    have hhead := List.head?_dropWhile_not (· ≠ '\n') cs
    rw [h] at hhead
    obtain rfl : ch = '\n' := by simpa using hhead
    exact .inr ⟨r, rfl⟩

theorem nestedBelow_line {indent : Nat} {r : List Char}
    (h : isNested indent (r.takeWhile (· ≠ '\n')) = true) :
    nestedBelow indent ('\n' :: r)
      = '\n' :: r.takeWhile (· ≠ '\n') ++ nestedBelow indent (r.dropWhile (· ≠ '\n')) := by
  rw [nestedBelow, lines_eq, List.takeWhile_cons_of_pos h, List.flatMap_cons]
  rcases dropWhile_line r with hdrop | ⟨t, hdrop⟩ <;> rw [hdrop] <;> rfl

/-- The scanner moves over the lines that belong to a comment. -/
theorem over_skipNested (indent : Nat) (c : Cursor) :
    Over (nestedBelow indent c.rest) c (skipNested indent c) := by
  fun_induction skipNested indent c with
  | case1 c r hr line hn ih =>
    obtain ⟨past, rest⟩ := c
    subst hr
    rw [nestedBelow_line hn]
    refine Over.trans ⟨?_, rfl⟩ ih
    exact congrArg ('\n' :: ·) List.takeWhile_append_dropWhile.symm
  | case2 c r hr line hn =>
    obtain ⟨past, rest⟩ := c
    subst hr
    rw [nestedBelow, lines_eq, List.takeWhile_cons_of_neg hn]
    exact ⟨rfl, rfl⟩
  | case3 c hr =>
    have hnone : nestedBelow indent c.rest = [] := by
      unfold nestedBelow
      split
      · rename_i r hr'
        exact absurd hr' (hr r)
      · rfl
    rw [hnone]
    exact ⟨rfl, rfl⟩

theorem over_skipBelow (indent? : Option Nat) (c : Cursor) :
    Over (belowText indent? c.rest) c (skipBelow true indent? c) := by
  cases indent? with
  | none => exact ⟨rfl, rfl⟩
  | some indent => exact over_skipNested indent c

theorem commentText_line {past r : List Char} :
    Cursor.commentText ⟨past, '/' :: '/' :: r⟩
      = ('/' :: '/' :: r).takeWhile (· ≠ '\n')
        ++ belowText (Cursor.indent? ⟨past, '/' :: '/' :: r⟩)
          (('/' :: '/' :: r).dropWhile (· ≠ '\n')) := by
  simp [Cursor.commentText, closedLength?]

theorem over_skipLineComment (past r : List Char) :
    Over (Cursor.commentText ⟨past, '/' :: '/' :: r⟩) ⟨past, '/' :: '/' :: r⟩
      (skipLineComment true ⟨past, '/' :: '/' :: r⟩) := by
  rw [commentText_line]
  exact (Cursor.over_skipWhile (· ≠ '\n') ⟨past, '/' :: '/' :: r⟩).trans
    (over_skipBelow _ (Cursor.skipWhile (· ≠ '\n') ⟨past, '/' :: '/' :: r⟩))

/-- The body of a block comment, as far as the comment goes. -/
def bodyText (indent? : Option Nat) (r : List Char) : List Char :=
  match Lexeme.commentLength? (r.takeWhile (· ≠ '\n')) with
  | some n => (r.takeWhile (· ≠ '\n')).take n
  | none => r.takeWhile (· ≠ '\n') ++ belowText indent? (r.dropWhile (· ≠ '\n'))

theorem commentText_block {past r : List Char} :
    Cursor.commentText ⟨past, '/' :: '*' :: r⟩
      = '/' :: '*' :: bodyText (Cursor.indent? ⟨past, '/' :: '*' :: r⟩) r := by
  have htake : ('/' :: '*' :: r).takeWhile (· ≠ '\n') = '/' :: '*' :: r.takeWhile (· ≠ '\n') := rfl
  have hdrop : ('/' :: '*' :: r).dropWhile (· ≠ '\n') = r.dropWhile (· ≠ '\n') := rfl
  simp only [Cursor.commentText, bodyText, htake, hdrop, closedLength?]
  cases Lexeme.commentLength? (r.takeWhile (· ≠ '\n')) <;> rfl

theorem over_skipBlockBody {opening d : Cursor} {past r : List Char}
    (hd : skipBlockBody true opening past r = .ok d) :
    Over (bodyText opening.indent? r) ⟨past, r⟩ d := by
  fun_induction skipBlockBody true opening past r with
  | case1 past =>
    obtain rfl := Except.ok.inj hd
    cases h : opening.indent? <;> exact ⟨rfl, rfl⟩
  | case2 => simp at hd
  | case3 past r =>
    obtain rfl := Except.ok.inj hd
    have hlength : Lexeme.commentLength? (('*' :: '/' :: r).takeWhile (· ≠ '\n')) = some 2 := by
      simp [Lexeme.commentLength?]
    simp only [bodyText, hlength]
    exact ⟨rfl, rfl⟩
  | case4 past ch r hne hline =>
    obtain rfl := Except.ok.inj hd
    obtain rfl : ch = '\n' := by simpa using hline
    exact over_skipBelow opening.indent? ⟨past, '\n' :: r⟩
  | case5 past ch r hne hline ih =>
    have hch : ch ≠ '\n' := by simpa using hline
    have htake : (ch :: r).takeWhile (· ≠ '\n') = ch :: r.takeWhile (· ≠ '\n') :=
      List.takeWhile_cons_of_pos (by simpa using hch)
    have hdrop : (ch :: r).dropWhile (· ≠ '\n') = r.dropWhile (· ≠ '\n') :=
      List.dropWhile_cons_of_pos (by simpa using hch)
    have hlength : Lexeme.commentLength? (ch :: r.takeWhile (· ≠ '\n'))
        = (Lexeme.commentLength? (r.takeWhile (· ≠ '\n'))).map (· + 1) := by
      rw [Lexeme.commentLength?]
      rintro r' rfl heq
      cases r with
      | nil => exact absurd heq (by simp)
      | cons ch' r =>
        by_cases hch' : ch' = '\n'
        · simp [hch'] at heq
        · rw [List.takeWhile_cons_of_pos (by simpa using hch')] at heq
          obtain ⟨rfl, -⟩ := List.cons.inj heq
          exact hne r rfl rfl
    have hbody : bodyText opening.indent? (ch :: r) = ch :: bodyText opening.indent? r := by
      simp only [bodyText, htake, hdrop, hlength]
      cases Lexeme.commentLength? (r.takeWhile (· ≠ '\n')) <;> rfl
    rw [hbody]
    exact (ih hd).cons

/-- The scanner skips a comment as far as it goes, and it goes on. -/
theorem exists_skipComment {c : Cursor} (h : startsComment c.rest = true) :
    ∃ d, Over c.commentText c d ∧ c.commentText ≠ [] ∧
      ∀ newlines, skipGap true newlines c = skipGap true newlines d := by
  obtain ⟨past, rest⟩ := c
  obtain ⟨r, rfl | rfl⟩ := startsComment_iff.1 h
  · refine ⟨_, over_skipLineComment past r, ?_, fun _ => skipGap_line⟩
    rw [commentText_line]
    simp
  · obtain ⟨d, hd⟩ := exists_skipBlockBody ⟨past, '/' :: '*' :: r⟩ ('*' :: '/' :: past) r
    refine ⟨d, ?_, ?_, fun newlines => ?_⟩
    · rw [commentText_block]
      exact (over_skipBlockBody hd).cons.cons
    · rw [commentText_block]
      simp
    · rw [skipGap_block, hd]
      rfl

/-! ## Spans -/

/-- What a span of a text is to the scanner. -/
inductive SpanKind where
  | comment
  | reference (directive : Directive) (target : List Char)
  | other
  deriving DecidableEq, Repr

/-- A span of a text. -/
structure Span where
  kind : SpanKind
  text : List Char
  deriving DecidableEq, Repr

/-- The references among the spans of a text, each at the place where its span begins.  `past` is the
text before the spans, reversed. -/
def Span.references (past : List Char) : List Span → List Reference
  | [] => []
  | ⟨.reference directive target, text⟩ :: spans =>
    Cursor.reference ⟨past, []⟩ directive target :: Span.references (text.reverse ++ past) spans
  | ⟨.comment, text⟩ :: spans | ⟨.other, text⟩ :: spans =>
    Span.references (text.reverse ++ past) spans

/-- What the scanner looks for: a rule, a reference of a rule, or a comma in the list of one. -/
inductive Sought where
  | rule
  | target (directive : Directive)
  | comma
  deriving DecidableEq, Repr

/-- Whether a line end counts as white space: a rule ends with its line. -/
def Sought.newlines : Sought → Bool
  | .rule => true
  | .target _ | .comma => false

/-- The span that a text outside of rules begins with, and what is looked for behind it. -/
def outerSpan (past : List Char) (ch : Char) (r : List Char) : Except ScanError (Span × Sought) :=
  if ch = '@' then
    let name := r.takeWhile isNameChar
    match Directive.ofWord? name with
    | some directive => .ok (⟨.other, ch :: name⟩, .target directive)
    | none => .ok (⟨.other, ch :: name⟩, .rule)
  else if isQuote ch then
    (readStringBody ⟨past, ch :: r⟩ ch [] (ch :: past) r).map fun p =>
      (⟨.other, between ⟨past, ch :: r⟩ p.2⟩, .rule)
  else if startsUrl (ch :: r) then
    (readUrlBody ⟨past, ch :: r⟩ ⟨ch :: past, r⟩).map fun d =>
      (⟨.other, between ⟨past, ch :: r⟩ d⟩, .rule)
  else .ok (⟨.other, [ch]⟩, .rule)

/-- The span that a text begins with, and what is looked for behind it. -/
def firstSpan (sought : Sought) (past : List Char) (ch : Char) (r : List Char) :
    Except ScanError (Span × Sought) :=
  if startsComment (ch :: r) then .ok (⟨.comment, Cursor.commentText ⟨past, ch :: r⟩⟩, sought)
  else if isGap sought.newlines ch then .ok (⟨.other, [ch]⟩, sought)
  else match sought with
    | .rule => outerSpan past ch r
    | .target directive =>
      (readTarget true ⟨past, ch :: r⟩).bind fun target? =>
        match target? with
        | some (target, d) =>
          .ok (⟨.reference directive target, between ⟨past, ch :: r⟩ d⟩,
            if directive = .import_ then .comma else .rule)
        | none => outerSpan past ch r
    | .comma => if ch = ',' then .ok (⟨.other, [ch]⟩, .target .import_) else outerSpan past ch r

section Text

variable {sought next : Sought} {past r : List Char} {ch : Char} {span : Span}

theorem over_between {c d : Cursor} (h : c.Reaches d) : Over (between c d) c d := by
  obtain ⟨ms, hr, hp⟩ := h
  have hover : Over ms c d := ⟨hr, hp⟩
  rwa [hover.between_eq]

theorem firstSpan_of_comment (h : startsComment (ch :: r) = true) :
    firstSpan sought past ch r = .ok (⟨.comment, Cursor.commentText ⟨past, ch :: r⟩⟩, sought) := by
  rw [firstSpan.eq_def, if_pos h]

theorem firstSpan_of_gap (h : isGap sought.newlines ch = true) :
    firstSpan sought past ch r = .ok (⟨.other, [ch]⟩, sought) := by
  have hcomment : ¬startsComment (ch :: r) = true := by
    rintro hcomment
    obtain ⟨r', heq | heq⟩ := startsComment_iff.1 hcomment <;>
      (obtain ⟨rfl, -⟩ := List.cons.inj heq; simp [isGap] at h)
  rw [firstSpan.eq_def, if_neg hcomment, if_pos h]

/-- White space outside of rules is a span like any other character. -/
theorem firstSpan_rule (h : startsComment (ch :: r) = false) :
    firstSpan .rule past ch r = outerSpan past ch r := by
  rw [firstSpan, if_neg (by simp [h])]
  by_cases hgap : isGap Sought.rule.newlines ch = true
  · rw [if_pos hgap]
    have hch : ch = ' ' ∨ ch = '\t' ∨ ch = '\r' ∨ ch = '\n' := by
      simpa [isGap, Sought.newlines, or_assoc] using hgap
    rcases hch with rfl | rfl | rfl | rfl <;> rfl
  · rw [if_neg hgap]

theorem firstSpan_target {directive : Directive} (h : Stops false (ch :: r)) :
    firstSpan (.target directive) past ch r =
      (readTarget true ⟨past, ch :: r⟩).bind fun target? =>
        match target? with
        | some (target, d) =>
          .ok (⟨.reference directive target, between ⟨past, ch :: r⟩ d⟩,
            if directive = .import_ then .comma else .rule)
        | none => outerSpan past ch r := by
  have hgap : isGap (Sought.target directive).newlines ch = false := h.noGap ch rfl
  rw [firstSpan.eq_def, if_neg (by simp [h.noComment]), if_neg (by simp [hgap])]

theorem firstSpan_comma (h : Stops false (ch :: r)) :
    firstSpan .comma past ch r =
      if ch = ',' then .ok (⟨.other, [ch]⟩, .target .import_) else outerSpan past ch r := by
  have hgap : isGap Sought.comma.newlines ch = false := h.noGap ch rfl
  rw [firstSpan.eq_def, if_neg (by simp [h.noComment]), if_neg (by simp [hgap])]

/-- Outside of rules a span has no other character before its first, and only behind the name of a rule
something else than a rule is looked for. -/
theorem outerSpan_cases (h : outerSpan past ch r = .ok (span, next)) :
    ∃ t d, span = ⟨.other, ch :: t⟩ ∧ Over (ch :: t) ⟨past, ch :: r⟩ d ∧
      (next = .rule ∨ ch = '@' ∧ d = Cursor.skipWhile isNameChar ⟨ch :: past, r⟩) := by
  unfold outerSpan at h
  split at h
  · rename_i hat
    have hspan : span = ⟨.other, ch :: r.takeWhile isNameChar⟩ := by
      dsimp only at h
      split at h <;> exact (Prod.mk.inj (Except.ok.inj h)).1.symm
    exact ⟨_, _, hspan, (Cursor.over_skipWhile isNameChar ⟨ch :: past, r⟩).cons, .inr ⟨hat, rfl⟩⟩
  · split at h
    · cases hs : readStringBody ⟨past, ch :: r⟩ ch [] (ch :: past) r with
      | error e => simp [hs, Except.map] at h
      | ok p =>
        simp only [hs, Except.map, Except.ok.injEq, Prod.mk.injEq] at h
        obtain ⟨ms, hover, -⟩ := readStringBody_local hs
        rw [hover.cons.between_eq] at h
        exact ⟨_, _, h.1.symm, hover.cons, .inl h.2.symm⟩
    · split at h
      · cases hu : readUrlBody ⟨past, ch :: r⟩ ⟨ch :: past, r⟩ with
        | error e => simp [hu, Except.map] at h
        | ok d =>
          simp only [hu, Except.map, Except.ok.injEq, Prod.mk.injEq] at h
          obtain ⟨ms, hover, -⟩ := readUrlBody_local hu
          rw [hover.cons.between_eq] at h
          exact ⟨_, _, h.1.symm, hover.cons, .inl h.2.symm⟩
      · obtain ⟨hspan, hnext⟩ := Prod.mk.inj (Except.ok.inj h)
        exact ⟨[], ⟨ch :: past, r⟩, hspan.symm, ⟨rfl, rfl⟩, .inl hnext.symm⟩

/-- What the first span of a text can be, from what is looked for to what is looked for behind it. -/
inductive FirstSpan (past : List Char) (ch : Char) (r : List Char) : Sought → Span → Sought → Prop
    where
  | comment {sought : Sought} (h : startsComment (ch :: r) = true) :
      FirstSpan past ch r sought ⟨.comment, Cursor.commentText ⟨past, ch :: r⟩⟩ sought
  | gap {sought : Sought} (h : isGap sought.newlines ch = true) :
      FirstSpan past ch r sought ⟨.other, [ch]⟩ sought
  | reference {directive : Directive} {target text : List Char} {d : Cursor}
      (h : readTarget true ⟨past, ch :: r⟩ = .ok (some (target, d)))
      (hstops : Stops false (ch :: r)) (hover : Over text ⟨past, ch :: r⟩ d) :
      FirstSpan past ch r (.target directive) ⟨.reference directive target, text⟩
        (if directive = .import_ then .comma else .rule)
  | comma (h : ch = ',') : FirstSpan past ch r .comma ⟨.other, [ch]⟩ (.target .import_)
  | outer {sought next : Sought} {span : Span} (h : outerSpan past ch r = .ok (span, next)) :
      FirstSpan past ch r sought span next

theorem firstSpan_cases (h : firstSpan sought past ch r = .ok (span, next)) :
    FirstSpan past ch r sought span next := by
  by_cases hcomment : startsComment (ch :: r) = true
  · rw [firstSpan_of_comment hcomment] at h
    obtain ⟨rfl, rfl⟩ := Prod.mk.inj (Except.ok.inj h)
    exact .comment hcomment
  by_cases hgap : isGap sought.newlines ch = true
  · rw [firstSpan_of_gap hgap] at h
    obtain ⟨rfl, rfl⟩ := Prod.mk.inj (Except.ok.inj h)
    exact .gap hgap
  have hstops : Stops sought.newlines (ch :: r) := ⟨by simpa using hcomment, by simpa using hgap⟩
  cases sought with
  | rule =>
    rw [firstSpan_rule hstops.noComment] at h
    exact .outer h
  | comma =>
    rw [firstSpan_comma hstops] at h
    by_cases hch : ch = ','
    · rw [if_pos hch] at h
      obtain ⟨rfl, rfl⟩ := Prod.mk.inj (Except.ok.inj h)
      exact .comma hch
    · rw [if_neg hch] at h
      exact .outer h
  | target directive =>
    rw [firstSpan_target hstops] at h
    cases ht : readTarget true ⟨past, ch :: r⟩ with
    | error e => simp [ht, Except.bind] at h
    | ok target? =>
      cases target? with
      | none =>
        simp only [ht, Except.bind] at h
        exact .outer h
      | some p =>
        obtain ⟨target, d⟩ := p
        obtain ⟨ms, hover, -⟩ := readTarget_local hstops ht
        simp only [ht, Except.bind, hover.between_eq, Except.ok.injEq, Prod.mk.injEq] at h
        obtain ⟨rfl, rfl⟩ := h
        exact .reference ht hstops hover

/-- A span is the front of the text, and some of it. -/
theorem over_firstSpan (h : firstSpan sought past ch r = .ok (span, next)) :
    ∃ d, Over span.text ⟨past, ch :: r⟩ d ∧ span.text ≠ [] := by
  cases firstSpan_cases h with
  | comment hcomment =>
    obtain ⟨d, hover, hne, -⟩ := exists_skipComment (c := ⟨past, ch :: r⟩) hcomment
    exact ⟨d, hover, hne⟩
  | gap | comma => exact ⟨⟨ch :: past, r⟩, ⟨rfl, rfl⟩, by simp⟩
  | reference ht hstops hover =>
    obtain ⟨ms, hover', hne, -⟩ := readTarget_local hstops ht
    rw [← hover'.between_eq, hover.between_eq] at hne
    exact ⟨_, hover, hne⟩
  | outer houter =>
    obtain ⟨t, d, rfl, hover, -⟩ := outerSpan_cases houter
    exact ⟨d, hover, by simp⟩

end Text

/-! ## The division -/

namespace Cursor

/-- The cursor behind a front of the text. -/
def behind (text : List Char) (c : Cursor) : Cursor :=
  ⟨text.reverse ++ c.past, c.rest.drop text.length⟩

theorem Over.behind_eq {ms : List Char} {c d : Cursor} (h : Over ms c d) : c.behind ms = d := by
  rw [h.eq, behind, h.rest_eq, List.drop_left]

end Cursor

/-- The spans of the text from the cursor on. -/
def divide (sought : Sought) (c : Cursor) : Except ScanError (List Span) :=
  match _hr : c.rest with
  | [] => .ok []
  | ch :: r =>
    match _hs : firstSpan sought c.past ch r with
    | .error e => .error e
    | .ok (span, next) => (divide next (c.behind span.text)).map (span :: ·)
termination_by c.rest.length
decreasing_by
  obtain ⟨d, -, hne⟩ := over_firstSpan _hs
  have := List.length_pos_iff.2 hne
  simp only [Cursor.behind, _hr, List.length_drop, List.length_cons]
  omega

theorem divide_nil (sought : Sought) (past : List Char) : divide sought ⟨past, []⟩ = .ok [] := by
  rw [divide]

theorem divide_cons (sought : Sought) (past : List Char) (ch : Char) (r : List Char) :
    divide sought ⟨past, ch :: r⟩ = (firstSpan sought past ch r).bind fun p =>
      (divide p.2 (Cursor.behind p.1.text ⟨past, ch :: r⟩)).map (p.1 :: ·) := by
  rw [divide]
  split
  · rename_i h
    exact absurd h (by simp)
  · rename_i ch' r' h
    obtain ⟨rfl, rfl⟩ := List.cons.inj h
    split
    · rename_i hs
      rw [hs, Except.bind]
    · rename_i hs
      rw [hs, Except.bind]

/-- The spans of a text make up the text. -/
theorem flatMap_text_of_divide {sought : Sought} {c : Cursor} {spans : List Span}
    (h : divide sought c = .ok spans) : spans.flatMap (·.text) = c.rest := by
  fun_induction divide sought c generalizing spans with
  | case1 sought c hr =>
    obtain rfl := Except.ok.inj h
    exact hr.symm
  | case2 => simp at h
  | case3 sought c ch r hr span next hs ih =>
    obtain ⟨past, rest⟩ := c
    subst hr
    obtain ⟨d, hover, -⟩ := over_firstSpan hs
    rw [hover.behind_eq] at h ih
    cases hd : divide next d with
    | error e => simp [hd, Except.map] at h
    | ok more =>
      simp only [hd, Except.map, Except.ok.injEq] at h
      subst h
      rw [List.flatMap_cons, ih hd, hover.rest_eq]

/-! ## What the scanner finds -/

/-- The references in the division of the text from the cursor on. -/
def found (sought : Sought) (c : Cursor) : Except ScanError (List Reference) :=
  (divide sought c).map (Span.references c.past)

section Found

variable {sought next : Sought} {past r : List Char} {ch : Char} {span : Span}

theorem found_nil (sought : Sought) (past : List Char) : found sought ⟨past, []⟩ = .ok [] := by
  rw [found, divide_nil]
  rfl

theorem found_of_error {e : ScanError} (h : firstSpan sought past ch r = .error e) :
    found sought ⟨past, ch :: r⟩ = .error e := by
  rw [found, divide_cons, h]
  rfl

/-- A span that is no reference is passed. -/
theorem found_of_span {d : Cursor} (h : firstSpan sought past ch r = .ok (span, next))
    (hover : Over span.text ⟨past, ch :: r⟩ d)
    (hkind : span.kind = .comment ∨ span.kind = .other) :
    found sought ⟨past, ch :: r⟩ = found next d := by
  rw [found, found, divide_cons, h]
  simp only [Except.bind, hover.behind_eq]
  have hspan : ∀ spans, Span.references past (span :: spans) = Span.references d.past spans := by
    intro spans
    obtain ⟨kind, text⟩ := span
    rw [hover.past_eq]
    rcases hkind with rfl | rfl <;> rfl
  cases divide next d with
  | error e => rfl
  | ok spans => simp [Except.map, hspan]

/-- A reference is found at the place where its span begins. -/
theorem found_of_reference {directive : Directive} {target text : List Char} {d : Cursor}
    (h : firstSpan sought past ch r = .ok (⟨.reference directive target, text⟩, next))
    (hover : Over text ⟨past, ch :: r⟩ d) :
    found sought ⟨past, ch :: r⟩
      = (found next d).map (Cursor.reference ⟨past, ch :: r⟩ directive target :: ·) := by
  rw [found, found, divide_cons, h]
  simp only [Except.bind, hover.behind_eq]
  cases divide next d with
  | error e => rfl
  | ok spans =>
    simp only [Except.map, Span.references, hover.past_eq]
    rfl

/-- White space and comments are passed. -/
theorem found_skipGap (sought : Sought) {newlines : Bool} (hn : sought.newlines = newlines)
    {c d : Cursor} (hd : skipGap true newlines c = .ok d) : found sought c = found sought d := by
  fun_induction skipGap true newlines c with
  | case1 c r hr ih =>
    obtain ⟨past, rest⟩ := c
    subst hr
    rw [found_of_span (firstSpan_of_comment rfl) (over_skipLineComment past r) (.inl rfl), ih hd]
  | case2 => simp at hd
  | case3 c r hr e hb ih =>
    obtain ⟨past, rest⟩ := c
    subst hr
    have hover : Over (Cursor.commentText ⟨past, '/' :: '*' :: r⟩) ⟨past, '/' :: '*' :: r⟩ e := by
      rw [commentText_block]
      exact (over_skipBlockBody hb).cons.cons
    rw [found_of_span (firstSpan_of_comment rfl) hover (.inl rfl), ih hd]
  | case4 c ch r _ _ hr hgap ih =>
    obtain ⟨past, rest⟩ := c
    subst hr hn
    have hover : Over [ch] ⟨past, ch :: r⟩ ⟨ch :: past, r⟩ := ⟨rfl, rfl⟩
    rw [found_of_span (firstSpan_of_gap hgap) hover (.inr rfl), ih hd]
  | case5 | case6 =>
    obtain rfl := Except.ok.inj hd
    rfl

/-- Where a text is looked at as outside of rules, a rule is looked for. -/
theorem found_eq_rule (hcomment : startsComment (ch :: r) = false)
    (h : firstSpan sought past ch r = outerSpan past ch r) :
    found sought ⟨past, ch :: r⟩ = found .rule ⟨past, ch :: r⟩ := by
  simp only [found, divide_cons, h, firstSpan_rule hcomment]

/-- Without a reference, the rule has ended. -/
theorem found_target_of_none {directive : Directive} {d : Cursor} (hstops : Stops false d.rest)
    (ht : readTarget true d = .ok none) : found (.target directive) d = found .rule d := by
  obtain ⟨past, rest⟩ := d
  cases rest with
  | nil => rw [found_nil, found_nil]
  | cons ch r =>
    refine found_eq_rule hstops.noComment ?_
    rw [firstSpan_target hstops, ht]
    rfl

/-- Without a comma, the rule has ended. -/
theorem found_comma_of_ne {d : Cursor} (hstops : Stops false d.rest)
    (hne : ∀ r, d.rest ≠ ',' :: r) : found .comma d = found .rule d := by
  obtain ⟨past, rest⟩ := d
  cases rest with
  | nil => rw [found_nil, found_nil]
  | cons ch r =>
    have hch : ch ≠ ',' := fun heq => hne r (by rw [heq])
    refine found_eq_rule hstops.noComment ?_
    rw [firstSpan_comma hstops, if_neg hch]

/-- A reference is found, and then what is looked for behind it. -/
theorem found_target_of_some {directive : Directive} {d f : Cursor} {target : List Char}
    (hstops : Stops false d.rest) (ht : readTarget true d = .ok (some (target, f))) :
    found (.target directive) d
      = (found (if directive = .import_ then .comma else .rule) f).map
          (d.reference directive target :: ·) := by
  obtain ⟨ms, hover, -⟩ := readTarget_local hstops ht
  obtain ⟨past, rest⟩ := d
  cases rest with
  | nil => simp [readTarget] at ht
  | cons ch r =>
    refine found_of_reference ?_ hover
    rw [firstSpan_target hstops, ht, ← hover.between_eq]
    rfl

end Found

/-- The references of a rule are found, and then those behind it. -/
theorem found_target (directive : Directive) (c : Cursor) :
    found (.target directive) c
      = (readReferences true directive c).bind fun p => (found .rule p.2).map (p.1 ++ ·) := by
  fun_induction readReferences true directive c with
  | case1 c e hd =>
    obtain ⟨d, hd'⟩ := exists_skipGap false c
    exact absurd (hd.symm.trans hd') (by simp)
  | case2 c d hd e ht =>
    rw [found_skipGap (.target directive) rfl hd]
    obtain ⟨past, rest⟩ := d
    cases rest with
    | nil => simp [readTarget] at ht
    | cons ch r =>
      refine found_of_error ?_
      rw [firstSpan_target (stops_of_skipGap hd), ht]
      rfl
  | case3 c d hd ht =>
    rw [found_skipGap (.target directive) rfl hd, found_target_of_none (stops_of_skipGap hd) ht]
    cases h : found .rule d <;> simp [Except.bind, Except.map, h]
  | case4 c d hd target f ht himport e hg =>
    obtain ⟨g, hg'⟩ := exists_skipGap false f
    exact absurd (hg.symm.trans hg') (by simp)
  | case5 c d hd target f ht reference himport g hg r hr =>
    rename_i ih
    have hcomma : found .comma g = found (.target .import_) ⟨',' :: g.past, r⟩ := by
      have hstops : Stops false (',' :: r) := hr ▸ stops_of_skipGap hg
      have hover : Over [','] ⟨g.past, ',' :: r⟩ ⟨',' :: g.past, r⟩ := ⟨rfl, rfl⟩
      have hspan : firstSpan .comma g.past ',' r = .ok (⟨.other, [',']⟩, .target .import_) := by
        rw [firstSpan_comma hstops, if_pos rfl]
      obtain ⟨past, rest⟩ := g
      subst hr
      exact found_of_span hspan hover (.inr rfl)
    rw [found_skipGap (.target directive) rfl hd, found_target_of_some (stops_of_skipGap hd) ht,
      if_pos himport, found_skipGap .comma rfl hg, hcomma, ← himport, ih]
    cases readReferences true directive ⟨',' :: g.past, r⟩ with
    | error e => rfl
    | ok p =>
      simp only [Except.bind, Except.map]
      cases found .rule p.2 <;> rfl
  | case6 c d hd target f ht reference himport g hg =>
    rename_i hne
    rw [found_skipGap (.target directive) rfl hd, found_target_of_some (stops_of_skipGap hd) ht,
      if_pos himport, found_skipGap .comma rfl hg, found_comma_of_ne (stops_of_skipGap hg) hne]
    rfl
  | case7 c d hd target f ht =>
    rename_i himport
    rw [found_skipGap (.target directive) rfl hd, found_target_of_some (stops_of_skipGap hd) ht,
      if_neg himport]
    rfl

/-- Outside of rules a span is passed. -/
theorem found_of_outerSpan {past r text : List Char} {ch : Char} {next : Sought} {d : Cursor}
    (hcomment : startsComment (ch :: r) = false)
    (h : outerSpan past ch r = .ok (⟨.other, text⟩, next)) (hover : Over text ⟨past, ch :: r⟩ d) :
    found .rule ⟨past, ch :: r⟩ = found next d :=
  found_of_span ((firstSpan_rule hcomment).trans h) hover (.inr rfl)

/-- A rule is found by its name, and then its references are looked for. -/
theorem found_readRule (past r : List Char) :
    found .rule ⟨past, '@' :: r⟩
      = (readRule true ⟨past, '@' :: r⟩).bind fun p => (found .rule p.2).map (p.1 ++ ·) := by
  have hcomment : startsComment ('@' :: r) = false := by cases r <;> simp [startsComment]
  have hover : Over ('@' :: r.takeWhile isNameChar) ⟨past, '@' :: r⟩
      (Cursor.skipWhile isNameChar ⟨'@' :: past, r⟩) :=
    (Cursor.over_skipWhile isNameChar ⟨'@' :: past, r⟩).cons
  rw [readRule_eq]
  cases hword : Directive.ofWord? (r.takeWhile isNameChar) with
  | none =>
    have hspan : outerSpan past '@' r = .ok (⟨.other, '@' :: r.takeWhile isNameChar⟩, .rule) := by
      rw [outerSpan, if_pos rfl]
      simp only [hword]
    rw [found_of_outerSpan hcomment hspan hover]
    cases h : found .rule (Cursor.skipWhile isNameChar ⟨'@' :: past, r⟩) <;>
      simp [Except.bind, Except.map, h]
  | some directive =>
    have hspan : outerSpan past '@' r
        = .ok (⟨.other, '@' :: r.takeWhile isNameChar⟩, .target directive) := by
      rw [outerSpan, if_pos rfl]
      simp only [hword]
    rw [found_of_outerSpan hcomment hspan hover, found_target]

theorem scanFrom_eq_found (c : Cursor) : scanFrom true c = found .rule c := by
  fun_induction scanFrom true c with
  | case1 c e hd =>
    obtain ⟨d, hd'⟩ := exists_skipGap true c
    exact absurd (hd.symm.trans hd') (by simp)
  | case2 c d hd hr =>
    obtain ⟨past, rest⟩ := d
    subst hr
    rw [found_skipGap .rule rfl hd, found_nil]
  | case3 c d hd r e hp hr =>
    obtain ⟨past, rest⟩ := d
    subst hr
    rw [found_skipGap .rule rfl hd, found_readRule, hp]
    rfl
  | case4 c d hd r references f hp hr ih =>
    obtain ⟨past, rest⟩ := d
    subst hr
    rw [found_skipGap .rule rfl hd, found_readRule, hp, ih]
    rfl
  | case5 c d hd ch r hr hat hq e hs =>
    have hstops := stops_of_skipGap hd
    obtain ⟨past, rest⟩ := d
    subst hr
    rw [found_skipGap .rule rfl hd, found_of_error]
    rw [firstSpan_rule hstops.noComment, outerSpan, if_neg hat, if_pos hq, hs]
    rfl
  | case6 c d hd ch r hr hat hq content f hs ih =>
    have hstops := stops_of_skipGap hd
    obtain ⟨past, rest⟩ := d
    subst hr
    have hspan : outerSpan past ch r = .ok (⟨.other, between ⟨past, ch :: r⟩ f⟩, .rule) := by
      rw [outerSpan, if_neg hat, if_pos hq, hs]
      rfl
    have hover := over_between ((Cursor.reaches_cons ch).trans (reaches_readStringBody hs))
    rw [found_skipGap .rule rfl hd, ih, found_of_outerSpan hstops.noComment hspan hover]
  | case7 c d hd ch r hr hat hq hu e hb =>
    have hstops := stops_of_skipGap hd
    obtain ⟨past, rest⟩ := d
    subst hr
    rw [found_skipGap .rule rfl hd, found_of_error]
    rw [firstSpan_rule hstops.noComment, outerSpan, if_neg hat, if_neg hq, if_pos hu, hb]
    rfl
  | case8 c d hd ch r hr hat hq hu f hb ih =>
    have hstops := stops_of_skipGap hd
    obtain ⟨past, rest⟩ := d
    subst hr
    have hspan : outerSpan past ch r = .ok (⟨.other, between ⟨past, ch :: r⟩ f⟩, .rule) := by
      rw [outerSpan, if_neg hat, if_neg hq, if_pos hu, hb]
      rfl
    have hover := over_between ((Cursor.reaches_cons ch).trans (reaches_readUrlBody hb))
    rw [found_skipGap .rule rfl hd, ih, found_of_outerSpan hstops.noComment hspan hover]
  | case9 c d hd ch r hr hat hq hu ih =>
    have hstops := stops_of_skipGap hd
    obtain ⟨past, rest⟩ := d
    subst hr
    have hspan : outerSpan past ch r = .ok (⟨.other, [ch]⟩, .rule) := by
      rw [outerSpan, if_neg hat, if_neg hq, if_neg hu]
    have hover : Over [ch] ⟨past, ch :: r⟩ ⟨ch :: past, r⟩ := ⟨rfl, rfl⟩
    rw [found_skipGap .rule rfl hd, ih, found_of_outerSpan hstops.noComment hspan hover]

/-- The scanner of the indented spelling finds the references in the division of a text, and fails
where the division does. -/
theorem scan_eq_divide (source : List Char) :
    scan true source = (divide .rule (.start source)).map (Span.references []) :=
  scanFrom_eq_found (.start source)

end SheetBuild.Import
