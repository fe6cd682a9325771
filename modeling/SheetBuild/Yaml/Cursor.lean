import SheetBuild.Yaml.Fault
set_option autoImplicit false

/-!
# Places in a YAML text

A cursor is the rest of a text with the line and the column that it begins in.  Five characters end
a line; a carriage return and a line feed together end one.  The byte order mark takes no column.
-/

namespace SheetBuild.Yaml

/-- A place in a text, counted from zero, and what follows it. -/
structure Cursor where
  rest : List Char
  index : Nat := 0
  line : Nat := 0
  column : Nat := 0
  deriving DecidableEq, Repr

/-- The mark at the beginning of some texts. -/
def byteOrderMark : Char := Char.ofNat 0xFEFF

/-- Stands for the end of the text, which holds no such character. -/
def endMark : Char := '\x00'

/-- Whether a character ends a line. -/
def isBreak (c : Char) : Bool :=
  c = '\n' || c = '\r' || c = '\x85' || c = '\u2028' || c = '\u2029'

/-- The end of a line or of the text. -/
def isLineEnd (c : Char) : Bool := c = endMark || isBreak c

/-- A space or an end. -/
def isSpaceOrEnd (c : Char) : Bool := c = ' ' || isLineEnd c

/-- A space, a tab or an end. -/
def isGapOrEnd (c : Char) : Bool := c = '\t' || isSpaceOrEnd c

/-- A space or a tab. -/
def isGap (c : Char) : Bool := c = ' ' || c = '\t'

/-- A letter, a digit, a hyphen or an underscore. -/
def isWordChar (c : Char) : Bool :=
  ('0' ≤ c && c ≤ '9') || ('A' ≤ c && c ≤ 'Z') || ('a' ≤ c && c ≤ 'z') || c = '-' || c = '_'

/-- Whether a text may hold a character. -/
def isAllowed (c : Char) : Bool :=
  let n := c.toNat
  n == 0x09 || n == 0x0A || n == 0x0D || (0x20 ≤ n && n ≤ 0x7E) || n == 0x85
    || (0xA0 ≤ n && n ≤ 0xD7FF) || (0xE000 ≤ n && n ≤ 0xFFFD) || 0x10000 ≤ n

namespace Cursor

/-- The next character. -/
def peek (c : Cursor) : Char := c.rest.headD endMark

/-- The character a number of places further on. -/
def peekAt (c : Cursor) (n : Nat) : Char := (c.rest.drop n).headD endMark

/-- Whether the text is at its end. -/
def atEnd (c : Cursor) : Bool := c.rest.isEmpty

/-- Goes over one character. -/
def step (c : Cursor) : Cursor :=
  match c.rest with
  | [] => c
  | ch :: r =>
    if ch = '\r' && r.head? = some '\n' then ⟨r, c.index + 1, c.line, c.column + 1⟩
    else if isBreak ch then ⟨r, c.index + 1, c.line + 1, 0⟩
    else if ch = byteOrderMark then ⟨r, c.index + 1, c.line, c.column⟩
    else ⟨r, c.index + 1, c.line, c.column + 1⟩

/-- Goes over a number of characters. -/
def steps : Nat → Cursor → Cursor
  | 0, c => c
  | n + 1, c => steps n c.step

/-- The characters that satisfy `p`, and the place behind them. -/
def takeWhile (p : Char → Bool) (c : Cursor) : List Char × Cursor :=
  let cs := c.rest.takeWhile p
  (cs, c.steps cs.length)

/-- Goes over the characters that satisfy `p`. -/
def skipWhile (p : Char → Bool) (c : Cursor) : Cursor := (c.takeWhile p).2

/-- Goes over spaces. -/
def skipSpaces (c : Cursor) : Cursor := c.skipWhile (· = ' ')

/-- Goes over a comment, if there is one. -/
def skipComment (c : Cursor) : Cursor :=
  if c.peek = '#' then c.skipWhile (!isLineEnd ·) else c

/-- The end of a line: how it counts in a scalar, and the place behind it. -/
def lineBreak? (c : Cursor) : Option (Char × Cursor) :=
  let ch := c.peek
  if ch = '\r' && c.peekAt 1 = '\n' then some ('\n', c.steps 2)
  else if ch = '\r' || ch = '\n' || ch = '\x85' then some ('\n', c.step)
  else if ch = '\u2028' || ch = '\u2029' then some (ch, c.step)
  else none

/-- Whether three characters of one kind stand here in front of a gap. -/
def atMarker (c : Cursor) (ch : Char) : Bool :=
  c.rest.take 3 = [ch, ch, ch] && isGapOrEnd (c.peekAt 3)

/-- Whether a mark of the beginning or the end of a document stands here. -/
def atSeparator (c : Cursor) : Bool := c.atMarker '-' || c.atMarker '.'

end Cursor

end SheetBuild.Yaml
