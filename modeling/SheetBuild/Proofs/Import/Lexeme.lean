import SheetBuild.Import.Scan
set_option autoImplicit false

/-!
# Lexemes of a stylesheet

A second reading of stylesheets in the spelling with braces, in two stages and without a cursor.
`Lexeme.split` splits a text from the left into lexemes, each with its kind and the characters it is
written with.  `Placed.references` then goes over the lexemes that are neither white space nor
comments and reports what stands behind the rules that import, in one place for a rule that takes one
reference and as a list with commas for one that takes several.
-/

namespace SheetBuild.Import

/-- The kind of a lexeme. -/
inductive LexemeKind where
  | blank
  | lineComment
  | blockComment
  | atKeyword
  | string
  | url
  /-- any other character -/
  | single
  deriving DecidableEq, Repr

/-- A piece of a text that belongs together. -/
structure Lexeme where
  kind : LexemeKind
  text : List Char
  deriving DecidableEq, Repr

/-- A token that is never closed, and the number of characters before its opening. -/
structure Opening where
  token : Unclosed
  before : Nat
  deriving DecidableEq, Repr

namespace Lexeme

/-! ## How far a lexeme goes -/

/-- The length of what is left of a block comment, up to the first `*/`. -/
def commentLength? : List Char → Option Nat
  | [] => none
  | '*' :: '/' :: _ => some 2
  | _ :: r => (commentLength? r).map (· + 1)

/-- The length of what stands in a string, up to the first quote of its kind without a backslash in
front of it.  A line end without one is not part of a string. -/
def stringLength? (quote : Char) : List Char → Option Nat
  | [] => none
  | ch :: r =>
    if ch = quote then some 0
    else if ch = '\n' then none
    else if ch = '\\' then
      match r with
      | [] => none
      | _ :: r' => (stringLength? quote r').map (· + 2)
    else (stringLength? quote r).map (· + 1)

/-- The length of what is left of a `url(…)`, up to the first closing parenthesis outside the strings
in it, or the reason why there is none: the place of a string that is never closed, and nothing where
the text or the line ends. -/
def urlLength : List Char → Except (Option Nat) Nat
  | [] => .error none
  | ch :: r =>
    if isQuote ch then
      match stringLength? ch r with
      | none => .error (some 0)
      | some n =>
        match urlLength (r.drop (n + 1)) with
        | .error at? => .error (at?.map (· + (n + 2)))
        | .ok m => .ok (m + (n + 2))
    else if ch = '\n' then .error none
    else if ch = ')' then .ok 1
    else
      match urlLength r with
      | .error at? => .error (at?.map (· + 1))
      | .ok m => .ok (m + 1)
termination_by cs => cs.length
decreasing_by
  · simp only [List.length_drop, List.length_cons]
    omega
  · simp

/-- The token that is never closed in a `url(…)` with this reason. -/
def openingOfUrl : Option Nat → Opening
  | none => ⟨.url, 0⟩
  | some n => ⟨.string, n + 4⟩

/-- White space. -/
def isBlank (ch : Char) : Bool := ch = ' ' || ch = '\t' || ch = '\r' || ch = '\n'

/-- The lexeme that a text begins with: its kind, and the number of characters after its first. -/
def first (ch : Char) (r : List Char) : Except Opening (LexemeKind × Nat) :=
  if isBlank ch then .ok (.blank, 0)
  else match ch, r with
    | '/', '/' :: r' => .ok (.lineComment, 1 + (r'.takeWhile (· ≠ '\n')).length)
    | '/', '*' :: r' =>
      match commentLength? r' with
      | none => .error ⟨.comment, 0⟩
      | some n => .ok (.blockComment, 1 + n)
    | '@', r => .ok (.atKeyword, (r.takeWhile isNameChar).length)
    | ch, r =>
      if isQuote ch then
        match stringLength? ch r with
        | none => .error ⟨.string, 0⟩
        | some n => .ok (.string, n + 1)
      else if startsUrl (ch :: r) then
        match urlLength (r.drop 3) with
        | .error at? => .error (openingOfUrl at?)
        | .ok n => .ok (.url, 3 + n)
      else .ok (.single, 0)

/-- The lexemes of a text, or the first token in it that is never closed. -/
def split : List Char → Except Opening (List Lexeme)
  | [] => .ok []
  | ch :: r =>
    match first ch r with
    | .error o => .error o
    | .ok (kind, n) =>
      match split (r.drop n) with
      | .error o => .error { o with before := o.before + (n + 1) }
      | .ok ls => .ok (⟨kind, ch :: r.take n⟩ :: ls)
termination_by cs => cs.length
decreasing_by
  simp only [List.length_drop, List.length_cons]
  omega

/-- The lexemes of a text make up the text. -/
theorem flatten_split {cs : List Char} {ls : List Lexeme} (h : split cs = .ok ls) :
    (ls.map text).flatten = cs := by
  fun_induction split cs generalizing ls with
  | case1 =>
    obtain rfl := Except.ok.inj h
    rfl
  | case2 => simp at h
  | case3 => simp at h
  | case4 ch r kind n _ ls' hs ih =>
    obtain rfl := Except.ok.inj h
    rw [List.map_cons, List.flatten_cons, ih hs, List.cons_append, List.take_append_drop]

/-! ## What lexemes mean -/

/-- Whether the lexeme is left out of account. -/
def isGap (l : Lexeme) : Bool :=
  match l.kind with
  | .blank => true
  | .lineComment => true
  | .blockComment => true
  | _ => false

/-- A text without its escaping backslashes. -/
def unescape : List Char → List Char
  | [] => []
  | '\\' :: ch :: r => ch :: unescape r
  | ch :: r => ch :: unescape r

/-- The reference that a lexeme may be: the content of a string, or a `url(…)` as it stands. -/
def target? (l : Lexeme) : Option (List Char) :=
  match l.kind with
  | .string => some (unescape (l.text.drop 1).dropLast)
  | .url => some l.text
  | _ => none

/-- The importing rule that a lexeme begins. -/
def directive? (l : Lexeme) : Option Directive :=
  match l.kind with
  | .atKeyword => Directive.ofWord? (l.text.drop 1)
  | _ => none

/-- Whether the lexeme is a comma. -/
def isComma (l : Lexeme) : Bool := l = ⟨.single, [',']⟩

end Lexeme

/-- A lexeme at its place. -/
structure Placed where
  lexeme : Lexeme
  /-- the characters before the lexeme, the nearest first -/
  past : List Char
  deriving DecidableEq, Repr

namespace Placed

/-- The number of the line, from 1: one more than the line feeds before. -/
def line (past : List Char) : Nat := 1 + past.count '\n'

/-- The number of the column, from 1: one more than the characters since the last line feed. -/
def column (past : List Char) : Nat := 1 + (past.takeWhile (· ≠ '\n')).length

/-- Lexemes at their places, of which the first stands behind `past`. -/
def ofLexemes (past : List Char) : List Lexeme → List Placed
  | [] => []
  | l :: ls => ⟨l, past⟩ :: ofLexemes (l.text.reverse ++ past) ls

/-- The lexemes that count. -/
def significant (ps : List Placed) : List Placed := ps.filter fun p => !p.lexeme.isGap

/-- The references at the front, with commas between them. -/
def listed (directive : Directive) : List Placed → List Reference
  | [] => []
  | p :: ps =>
    match p.lexeme.target? with
    | none => []
    | some target =>
      ⟨directive, String.ofList target, line p.past, column p.past⟩ ::
        match ps with
        | [] => []
        | comma :: rest => if comma.lexeme.isComma then listed directive rest else []

/-- The references behind a rule: one, or for an `@import` a list. -/
def behind (directive : Directive) (ps : List Placed) : List Reference :=
  match directive with
  | .import_ => listed directive ps
  | _ => (listed directive ps).take 1

/-- The references of all importing rules. -/
def references : List Placed → List Reference
  | [] => []
  | p :: ps =>
    match p.lexeme.directive? with
    | none => references ps
    | some directive => behind directive ps ++ references ps

end Placed

/-- The places and meanings of the lexemes of a text that stands behind `past`, or its first token
that is never closed, at its place. -/
def placedFrom (past text : List Char) : Except ScanError (List Placed) :=
  match Lexeme.split text with
  | .error o =>
    let before := (text.take o.before).reverse ++ past
    .error ⟨o.token, Placed.line before, Placed.column before⟩
  | .ok ls => .ok (Placed.significant (Placed.ofLexemes past ls))

/-- The references of a text by its lexemes. -/
def referencesByLexemes (source : List Char) : Except ScanError (List Reference) :=
  (placedFrom [] source).map Placed.references

end SheetBuild.Import
