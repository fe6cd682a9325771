import SheetBuild.Import.Cursor
import SheetBuild.Text.Alphanumeric
set_option autoImplicit false

/-!
# Import references in a stylesheet

`scan` finds the references of the `@import`, `@use` and `@forward` rules of a stylesheet, with the
place of each, without reading the rest of the language.  Comments, strings and `url(…)` tokens are
stepped over whole, so that nothing inside them is taken for a rule.

In the indented spelling a rule ends with its line, a reference may stand without quotes, and a
comment that begins a line also covers the lines below it that are blank or indented deeper.
-/

namespace SheetBuild.Import

/-- The rules that import. -/
inductive Directive where
  | import_
  | use
  | forward
  deriving DecidableEq, Repr

namespace Directive

/-- The name of a rule. -/
def word : Directive → String
  | .import_ => "import"
  | .use => "use"
  | .forward => "forward"

/-- The rule that a name stands for. -/
def ofWord? (cs : List Char) : Option Directive :=
  if cs = "import".toList then some .import_
  else if cs = "use".toList then some .use
  else if cs = "forward".toList then some .forward
  else none

end Directive

/-- A reference to another stylesheet, with the place where it begins. -/
structure Reference where
  directive : Directive
  /-- the text of the reference; a string without its quotes and backslashes -/
  target : String
  line : Nat
  column : Nat
  deriving DecidableEq, Repr

/-- A token that is never closed. -/
inductive Unclosed where
  | string
  | comment
  | url
  deriving DecidableEq, Repr

/-- An unclosed token, with the place where it begins. -/
structure ScanError where
  token : Unclosed
  line : Nat
  column : Nat
  deriving DecidableEq, Repr

/-- The wording of a scan error. -/
def ScanError.message (e : ScanError) : String :=
  match e.token with
  | .string => "Unterminated string literal"
  | .comment => "Unterminated block comment"
  | .url => "Unterminated url()"

/-- The error for a token that begins at a cursor. -/
def Cursor.unclosed (c : Cursor) (token : Unclosed) : ScanError := ⟨token, c.line, c.column⟩

/-- Whether the character opens a string. -/
def isQuote (ch : Char) : Bool := ch = '"' || ch = '\''

/-- Whether the text begins with an opening `url(`. -/
def startsUrl : List Char → Bool
  | 'u' :: 'r' :: 'l' :: '(' :: _ => true
  | _ => false

/-! ## Comments and white space -/

/-- Whether a line belongs to a comment of the given indentation: it is blank or indented deeper. -/
def isNested (indent : Nat) (line : List Char) : Bool :=
  line.all Text.isBlank || indent < (line.takeWhile Cursor.isIndent).length

/-- From the end of a line, moves over the lines below that belong to a comment of the given
indentation, up to the end of the last of them. -/
def skipNested (indent : Nat) (c : Cursor) : Cursor :=
  match _h : c.rest with
  | '\n' :: r =>
    let line := r.takeWhile (· ≠ '\n')
    if isNested indent line then
      skipNested indent (c.moveOver ('\n' :: line) (r.dropWhile (· ≠ '\n')))
    else c
  | _ => c
termination_by c.rest.length
decreasing_by
  have := (List.dropWhile_sublist (l := r) (· ≠ '\n')).length_le
  simp only [Cursor.moveOver, _h, List.length_cons]
  omega

/-- From the end of a comment's first line, moves over the lines that belong to the comment. -/
def skipBelow (indented : Bool) (indent : Option Nat) (c : Cursor) : Cursor :=
  match indented, indent with
  | true, some i => skipNested i c
  | _, _ => c

/-- Moves over a line comment. -/
def skipLineComment (indented : Bool) (c : Cursor) : Cursor :=
  skipBelow indented c.indent? (c.skipWhile (· ≠ '\n'))

/-- Moves over the body of a block comment that begins at `opening`. -/
def skipBlockBody (indented : Bool) (opening : Cursor) (past : List Char) :
    List Char → Except ScanError Cursor
  | [] => if indented then .ok ⟨past, []⟩ else .error (opening.unclosed .comment)
  | '*' :: '/' :: r => .ok ⟨'/' :: '*' :: past, r⟩
  | ch :: r =>
    if indented && ch = '\n' then .ok (skipBelow indented opening.indent? ⟨past, ch :: r⟩)
    else skipBlockBody indented opening (ch :: past) r

/-- Whether the character is white space between tokens; line ends count only where asked for. -/
def isGap (newlines : Bool) (ch : Char) : Bool :=
  ch = ' ' || ch = '\t' || ch = '\r' || (newlines && ch = '\n')

theorem reaches_skipNested (indent : Nat) (c : Cursor) : c.Reaches (skipNested indent c) := by
  fun_induction skipNested indent c with
  | case1 c r h line hn ih =>
    refine Cursor.Reaches.trans (Cursor.reaches_moveOver ?_) ih
    rw [h, List.cons_append, List.takeWhile_append_dropWhile]
  | case2 => exact .refl _
  | case3 => exact .refl _

theorem reaches_skipBelow (indented : Bool) (indent : Option Nat) (c : Cursor) :
    c.Reaches (skipBelow indented indent c) := by
  unfold skipBelow
  split
  · exact reaches_skipNested _ c
  · exact .refl c

theorem reaches_skipLineComment (indented : Bool) (c : Cursor) :
    c.Reaches (skipLineComment indented c) :=
  (Cursor.reaches_skipWhile _ c).trans (reaches_skipBelow ..)

theorem reaches_skipBlockBody {indented : Bool} {opening : Cursor} {past rest : List Char}
    {d : Cursor} (h : skipBlockBody indented opening past rest = .ok d) :
    Cursor.Reaches ⟨past, rest⟩ d := by
  fun_induction skipBlockBody indented opening past rest with
  | case1 =>
    simp only [Except.ok.injEq] at h
    exact h ▸ .refl _
  | case2 => simp at h
  | case3 past r =>
    simp only [Except.ok.injEq] at h
    subst h
    exact (Cursor.reaches_cons '*').trans (Cursor.reaches_cons '/')
  | case4 =>
    simp only [Except.ok.injEq] at h
    subst h
    exact reaches_skipBelow ..
  | case5 past ch r _ _ ih => exact (Cursor.reaches_cons ch).trans (ih h)

theorem length_skipLineComment_lt {indented : Bool} {c : Cursor} {r : List Char}
    (h : c.rest = '/' :: r) : (skipLineComment indented c).rest.length < c.rest.length := by
  have h1 := (reaches_skipBelow indented c.indent? (c.skipWhile (· ≠ '\n'))).length_le
  have h2 := (List.dropWhile_sublist (l := r) (· ≠ '\n')).length_le
  have h3 : (c.skipWhile (· ≠ '\n')).rest = r.dropWhile (· ≠ '\n') := by
    simp [Cursor.skipWhile, Cursor.moveOver, h]
  rw [h3] at h1
  simp only [skipLineComment, h, List.length_cons]
  omega

theorem length_skipBlockBody_le {indented : Bool} {opening : Cursor} {past rest : List Char}
    {d : Cursor} (h : skipBlockBody indented opening past rest = .ok d) :
    d.rest.length ≤ rest.length := (reaches_skipBlockBody h).length_le

/-- Moves over white space and comments. -/
def skipGap (indented newlines : Bool) (c : Cursor) : Except ScanError Cursor :=
  match _h : c.rest with
  | '/' :: '/' :: _ => skipGap indented newlines (skipLineComment indented c)
  | '/' :: '*' :: r =>
    match _hb : skipBlockBody indented c ('*' :: '/' :: c.past) r with
    | .error e => .error e
    | .ok d => skipGap indented newlines d
  | ch :: r => if isGap newlines ch then skipGap indented newlines ⟨ch :: c.past, r⟩ else .ok c
  | [] => .ok c
termination_by c.rest.length
decreasing_by
  · exact length_skipLineComment_lt _h
  · have := length_skipBlockBody_le _hb
    simp only [_h, List.length_cons]
    omega
  · simp [_h]

theorem reaches_skipGap {indented newlines : Bool} {c d : Cursor}
    (h : skipGap indented newlines c = .ok d) : c.Reaches d := by
  fun_induction skipGap indented newlines c with
  | case1 c r hr ih => exact (reaches_skipLineComment indented c).trans (ih h)
  | case2 => simp at h
  | case3 c r hr d' hb ih =>
    have h1 : c.Reaches ⟨'*' :: '/' :: c.past, r⟩ := ⟨['/', '*'], by simp [hr], by simp⟩
    exact (h1.trans (reaches_skipBlockBody hb)).trans (ih h)
  | case4 c ch r _ _ hr _ ih =>
    have h1 : c.Reaches ⟨ch :: c.past, r⟩ := Cursor.reaches_of_rest_eq hr
    exact h1.trans (ih h)
  | case5 =>
    simp only [Except.ok.injEq] at h
    exact h ▸ .refl _
  | case6 =>
    simp only [Except.ok.injEq] at h
    exact h ▸ .refl _

/-! ## Tokens -/

/-- Reads a string up to the quote that closes it; a backslash takes the next character as it is.
`acc` holds the content so far, reversed. -/
def readStringBody (opening : Cursor) (quote : Char) (acc past : List Char) :
    List Char → Except ScanError (List Char × Cursor)
  | [] => .error (opening.unclosed .string)
  | ch :: r =>
    if ch = quote then .ok (acc.reverse, ⟨ch :: past, r⟩)
    else if ch = '\n' then .error (opening.unclosed .string)
    else if ch = '\\' then
      match r with
      | [] => .error (opening.unclosed .string)
      | ch' :: r' => readStringBody opening quote (ch' :: acc) (ch' :: ch :: past) r'
    else readStringBody opening quote (ch :: acc) (ch :: past) r

theorem reaches_readStringBody {opening : Cursor} {quote : Char} {acc past rest : List Char}
    {p : List Char × Cursor} (h : readStringBody opening quote acc past rest = .ok p) :
    Cursor.Reaches ⟨past, rest⟩ p.2 := by
  fun_induction readStringBody opening quote acc past rest with
  | case1 => simp at h
  | case2 =>
    simp only [Except.ok.injEq] at h
    exact h ▸ Cursor.reaches_cons _
  | case3 => simp at h
  | case4 => simp at h
  | case5 _ _ _ _ _ _ ih =>
    exact ((Cursor.reaches_cons _).trans (Cursor.reaches_cons _)).trans (ih h)
  | case6 _ _ _ _ _ _ _ ih => exact (Cursor.reaches_cons _).trans (ih h)

/-- Reads a `url(…)` token from the cursor on, up to the parenthesis that closes it.  A string inside
counts as one. -/
def readUrlBody (opening c : Cursor) : Except ScanError Cursor :=
  match _h : c.rest with
  | [] => .error (opening.unclosed .url)
  | ch :: r =>
    if isQuote ch then
      match _hs : readStringBody c ch [] (ch :: c.past) r with
      | .error e => .error e
      | .ok (_, d) => readUrlBody opening d
    else if ch = '\n' then .error (opening.unclosed .url)
    else if ch = ')' then .ok ⟨ch :: c.past, r⟩
    else readUrlBody opening ⟨ch :: c.past, r⟩
termination_by c.rest.length
decreasing_by
  · have h : d.rest.length ≤ r.length := (reaches_readStringBody _hs).length_le
    simp only [_h, List.length_cons]
    omega
  · simp [_h]

theorem reaches_readUrlBody {opening c d : Cursor} (h : readUrlBody opening c = .ok d) :
    c.Reaches d := by
  fun_induction readUrlBody opening c with
  | case1 | case2 | case4 => simp at h
  | case3 c ch r hr _ s d' hs ih =>
    have h1 : c.Reaches ⟨ch :: c.past, r⟩ := Cursor.reaches_of_rest_eq hr
    exact (h1.trans (reaches_readStringBody hs)).trans (ih h)
  | case5 c r hr =>
    simp only [Except.ok.injEq] at h
    subst h
    exact Cursor.reaches_of_rest_eq hr
  | case6 c ch r hr _ _ _ ih =>
    have h1 : c.Reaches ⟨ch :: c.past, r⟩ := Cursor.reaches_of_rest_eq hr
    exact h1.trans (ih h)

/-- The text between two cursors. -/
def between (c d : Cursor) : List Char := c.rest.take (c.rest.length - d.rest.length)

/-- Whether a character ends an unquoted reference. -/
def endsBare (ch : Char) : Bool :=
  ch = ' ' || ch = '\t' || ch = '\r' || ch = '\n' || ch = ',' || ch = ';' || ch = '\x7b'

/-- Whether an unquoted reference may begin with the character. -/
def startsBare (ch : Char) : Bool :=
  !(ch = ',' || ch = ';' || ch = '\x7b' || ch = '\n')

/-- Reads the reference at the cursor, where there is one: its text and the place after it. -/
def readTarget (indented : Bool) (c : Cursor) : Except ScanError (Option (List Char × Cursor)) :=
  match c.rest with
  | [] => .ok none
  | ch :: r =>
    if isQuote ch then (readStringBody c ch [] (ch :: c.past) r).map some
    else if startsUrl (ch :: r) then
      (readUrlBody c ⟨ch :: c.past, r⟩).map fun d => some (between c d, d)
    else if indented && startsBare ch then
      let d := c.skipWhile (!endsBare ·)
      .ok (some (between c d, d))
    else .ok none

theorem reaches_readTarget {indented : Bool} {c d : Cursor} {t : List Char}
    (h : readTarget indented c = .ok (some (t, d))) : c.Reaches d := by
  unfold readTarget at h
  split at h
  · simp at h
  · rename_i ch r hr
    have hc : c.Reaches ⟨ch :: c.past, r⟩ := Cursor.reaches_of_rest_eq hr
    split at h
    · cases hb : readStringBody c ch [] (ch :: c.past) r with
      | error e => simp [hb, Except.map] at h
      | ok p =>
        simp only [hb, Except.map, Except.ok.injEq, Option.some.injEq] at h
        subst h
        exact hc.trans (reaches_readStringBody hb)
    · split at h
      · cases hb : readUrlBody c ⟨ch :: c.past, r⟩ with
        | error e => simp [hb, Except.map] at h
        | ok p =>
          simp only [hb, Except.map, Except.ok.injEq, Option.some.injEq, Prod.mk.injEq] at h
          obtain ⟨-, rfl⟩ := h
          exact hc.trans (reaches_readUrlBody hb)
      · split at h
        · simp only [Except.ok.injEq, Option.some.injEq, Prod.mk.injEq] at h
          obtain ⟨-, rfl⟩ := h
          exact Cursor.reaches_skipWhile _ c
        · simp at h

/-! ## Rules -/

/-- Reads the references of a rule after its name.  An `@import` takes a list with commas, the other
rules take one reference. -/
def readReferences (indented : Bool) (directive : Directive) (c : Cursor) :
    Except ScanError (List Reference × Cursor) :=
  match _hd : skipGap indented (!indented) c with
  | .error e => .error e
  | .ok d =>
    match _ht : readTarget indented d with
    | .error e => .error e
    | .ok none => .ok ([], d)
    | .ok (some (target, f)) =>
      let reference : Reference := ⟨directive, String.ofList target, d.line, d.column⟩
      if directive = .import_ then
        match _hg : skipGap indented (!indented) f with
        | .error e => .error e
        | .ok g =>
          match _hr : g.rest with
          | ',' :: r =>
            (readReferences indented directive ⟨',' :: g.past, r⟩).map fun p =>
              (reference :: p.1, p.2)
          | _ => .ok ([reference], g)
      else .ok ([reference], f)
termination_by c.rest.length
decreasing_by
  have h1 := (reaches_skipGap _hd).length_le
  have h2 := (reaches_readTarget _ht).length_le
  have h3 := (reaches_skipGap _hg).length_le
  simp only [_hr, List.length_cons] at h3
  omega

/-- Whether the character continues the name of a rule. -/
def isNameChar (ch : Char) : Bool := Text.isAlphanumeric ch || ch = '-' || ch = '_'

/-- Reads a rule at the cursor, which stands at its `@`: the references of a rule that imports, and
the place after them. -/
def readRule (indented : Bool) (c : Cursor) : Except ScanError (List Reference × Cursor) :=
  let d := c.step.skipWhile isNameChar
  match Directive.ofWord? (between c.step d) with
  | none => .ok ([], d)
  | some directive => readReferences indented directive d

theorem reaches_readReferences {indented : Bool} {directive : Directive} {c : Cursor}
    {p : List Reference × Cursor} (h : readReferences indented directive c = .ok p) :
    c.Reaches p.2 := by
  fun_induction readReferences indented directive c generalizing p with
  | case1 | case2 | case4 => simp at h
  | case3 c d hd =>
    simp only [Except.ok.injEq] at h
    exact h ▸ reaches_skipGap hd
  | case5 c d hd target f ht reference _ g hg r hr =>
    rename_i ih
    cases hn : readReferences indented directive ⟨',' :: g.past, r⟩ with
    | error e => simp [hn, Except.map] at h
    | ok q =>
      simp only [hn, Except.map, Except.ok.injEq] at h
      subst h
      have h1 : g.Reaches ⟨',' :: g.past, r⟩ := Cursor.reaches_of_rest_eq hr
      have h2 := ih hn
      exact (((reaches_skipGap hd).trans (reaches_readTarget ht)).trans
        (reaches_skipGap hg)).trans (h1.trans h2)
  | case6 c d hd target f ht _ _ g hg =>
    simp only [Except.ok.injEq] at h
    subst h
    exact ((reaches_skipGap hd).trans (reaches_readTarget ht)).trans (reaches_skipGap hg)
  | case7 c d hd target f ht =>
    simp only [Except.ok.injEq] at h
    subst h
    exact (reaches_skipGap hd).trans (reaches_readTarget ht)

theorem reaches_readRule {indented : Bool} {c : Cursor} {p : List Reference × Cursor}
    (h : readRule indented c = .ok p) : c.step.Reaches p.2 := by
  simp only [readRule] at h
  split at h
  · simp only [Except.ok.injEq] at h
    subst h
    exact Cursor.reaches_skipWhile _ _
  · exact (Cursor.reaches_skipWhile _ _).trans (reaches_readReferences h)

/-- The references of the text from the cursor on. -/
def scanFrom (indented : Bool) (c : Cursor) : Except ScanError (List Reference) :=
  match _hd : skipGap indented true c with
  | .error e => .error e
  | .ok d =>
    match _hr : d.rest with
    | [] => .ok []
    | ch :: r =>
      if ch = '@' then
        match _hp : readRule indented d with
        | .error e => .error e
        | .ok (references, f) => (scanFrom indented f).map (references ++ ·)
      else if isQuote ch then
        match _hs : readStringBody d ch [] (ch :: d.past) r with
        | .error e => .error e
        | .ok (_, f) => scanFrom indented f
      else if startsUrl (ch :: r) then
        match _hu : readUrlBody d ⟨ch :: d.past, r⟩ with
        | .error e => .error e
        | .ok f => scanFrom indented f
      else scanFrom indented ⟨ch :: d.past, r⟩
termination_by c.rest.length
decreasing_by
  all_goals have h1 := (reaches_skipGap _hd).length_le
  · have h2 : f.rest.length ≤ _ := (reaches_readRule _hp).length_le
    have h3 := Cursor.length_step_lt (c := d) (by simp [_hr])
    omega
  · have h2 : f.rest.length ≤ _ := (reaches_readStringBody _hs).length_le
    simp only [_hr, List.length_cons] at h1 h2
    omega
  · have h2 := (reaches_readUrlBody _hu).length_le
    simp only [_hr, List.length_cons] at h1 h2
    omega
  · simp only [_hr, List.length_cons] at h1
    omega

/-- The references of a stylesheet, in the order in which they stand. -/
def scan (indented : Bool) (source : List Char) : Except ScanError (List Reference) :=
  scanFrom indented (.start source)

end SheetBuild.Import
