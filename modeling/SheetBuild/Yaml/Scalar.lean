import SheetBuild.Yaml.Cursor
set_option autoImplicit false

/-!
# Scalars

The text of a scalar in each of its styles.  A plain or quoted scalar may go over several lines; the
end of a line becomes a space, and of several ends in a row all but the first are kept.  A block
scalar keeps its lines, or folds them in the same way.

Each reader gives the text and the place behind it.  The text of a quoted scalar is given by its code
points, since an escape may stand for half of a surrogate pair; halves are not joined.  The first
argument of a loop bounds the number of its rounds; every round goes over a character of the text at
least.
-/

namespace SheetBuild.Yaml

open SheetBuild.Text (Point)

/-- A reader's result. -/
abbrev Reading (α : Type) : Type := Except Fault (α × Cursor)

/-- The text of a line break with the breaks that follow it: the break counts as a space where
nothing else follows. -/
def foldedBreaks (first : Char) (more : List Char) : List Char :=
  if first ≠ '\n' then first :: more else if more = [] then [' '] else more

/-! ## Quoted scalars -/

/-- The breaks in a quoted scalar up to the next text. -/
def quotedBreaks : Nat → List Char → Cursor → Reading (List Char)
  | 0, _, _ => .error .malformed
  | n + 1, acc, c =>
    if c.atSeparator then .error .malformed
    else
      let c := c.skipWhile isGap
      match c.lineBreak? with
      | some (b, c) => quotedBreaks n (b :: acc) c
      | none => .ok (acc.reverse, c)

/-- The value of a hexadecimal digit. -/
def hexValue? (c : Char) : Option Nat :=
  if '0' ≤ c && c ≤ '9' then some (c.toNat - 48)
  else if 'a' ≤ c && c ≤ 'f' then some (c.toNat - 87)
  else if 'A' ≤ c && c ≤ 'F' then some (c.toNat - 55)
  else none

/-- The number that hexadecimal digits write. -/
def hexNumber? (cs : List Char) : Option Nat :=
  cs.foldl (fun n c => match n, hexValue? c with
    | some n, some v => some (16 * n + v)
    | _, _ => none) (some 0)

/-- The escapes of one character. -/
def shortEscapes : List (Char × Char) :=
  [('0', '\x00'), ('a', '\x07'), ('b', '\x08'), ('t', '\t'), ('\t', '\t'), ('n', '\n'),
    ('v', '\x0b'), ('f', '\x0c'), ('r', '\r'), ('e', '\x1b'), (' ', ' '), ('"', '"'),
    ('\\', '\\'), ('/', '/'), ('N', '\x85'), ('_', '\xa0'), ('L', '\u2028'), ('P', '\u2029')]

/-- The escapes by number, each with the count of its digits. -/
def numericEscapes : List (Char × Nat) := [('x', 2), ('u', 4), ('U', 8)]

/-- The text of an escape, behind its backslash. -/
def readEscape (c : Cursor) : Reading (List Point) :=
  match shortEscapes.lookup c.peek with
  | some ch => .ok ([.char ch], c.step)
  | none =>
    match numericEscapes.lookup c.peek with
    | some k =>
      let digits := (c.rest.drop 1).take k
      if digits.length < k then .error .malformed
      else match hexNumber? digits with
        | none => .error .malformed
        | some n =>
          if n < 0x110000 then .ok ([.ofCode n], c.steps (k + 1))
          else .error (if n < 0x80000000 then .noCharacter else .hugeCharacter)
    | none =>
      match c.lineBreak? with
      | some (_, c) =>
        (quotedBreaks (c.rest.length + 1) [] c).map fun (text, c) => (text.map .char, c)
      | none => .error .malformed

/-- The gap inside a quoted scalar. -/
def quotedGap (c : Cursor) : Reading (List Char) :=
  let (gap, c) := c.takeWhile isGap
  if c.atEnd then .error .malformed
  else match c.lineBreak? with
    | some (b, c) =>
      (quotedBreaks (c.rest.length + 1) [] c).map fun (more, c) => (foldedBreaks b more, c)
    | none => .ok (gap, c)

/-- The body of a quoted scalar up to its closing quote. -/
def quotedBody (double : Bool) : Nat → List Point → Cursor → Reading (List Point)
  | 0, _, _ => .error .malformed
  | n + 1, acc, c =>
    let ch := c.peek
    let quote := if double then '"' else '\''
    if c.atEnd then .error .malformed
    else if ch = quote then
      if !double && c.peekAt 1 = '\'' then quotedBody double n (.char '\'' :: acc) (c.steps 2)
      else .ok (acc.reverse, c.step)
    else if isGap ch || isBreak ch then
      match quotedGap c with
      | .error e => .error e
      | .ok (text, c) => quotedBody double n (text.reverse.map .char ++ acc) c
    else if double && ch = '\\' then
      match readEscape c.step with
      | .error e => .error e
      | .ok (text, c) => quotedBody double n (text.reverse ++ acc) c
    else quotedBody double n (.char ch :: acc) c.step

/-- A quoted scalar. -/
def readQuoted (double : Bool) (c : Cursor) : Reading (List Point) :=
  quotedBody double (c.rest.length + 1) [] c.step

/-! ## Plain scalars -/

/-- Whether a character inside a flow collection ends a plain scalar. -/
def isFlowMark (c : Char) : Bool := c = ',' || c = '[' || c = ']' || c = '\x7b' || c = '\x7d'

/-- Whether a plain scalar ends in front of a character and the one behind it. -/
def endsPlain (flow : Bool) (ch next : Char) : Bool :=
  isGapOrEnd ch || (ch = ':' && (isGapOrEnd next || (flow && isFlowMark next)))
    || (flow && (isFlowMark ch || ch = '?'))

/-- The characters of a plain scalar up to a gap or its end. -/
def plainRun (flow : Bool) : List Char → List Char
  | [] => []
  | ch :: r => if endsPlain flow ch (r.headD endMark) then [] else ch :: plainRun flow r

/-- The breaks in a plain scalar up to the next text; `none` where the document ends. -/
def plainBreaks : Nat → List Char → Cursor → Option (List Char) × Cursor
  | 0, acc, c => (some acc.reverse, c)
  | n + 1, acc, c =>
    if c.peek = ' ' then plainBreaks n acc c.step
    else match c.lineBreak? with
      | none => (some acc.reverse, c)
      | some (b, c) => if c.atSeparator then (none, c) else plainBreaks n (b :: acc) c

/-- The gap behind a part of a plain scalar. -/
structure PlainGap where
  /-- what it counts as if the scalar goes on -/
  text : List Char
  cursor : Cursor
  /-- whether it goes over the end of a line -/
  overLine : Bool

/-- Reads a gap behind a part of a plain scalar. -/
def plainGap (c : Cursor) : PlainGap :=
  let (gap, c) := c.takeWhile (· = ' ')
  match c.lineBreak? with
  | none => ⟨gap, c, false⟩
  | some (b, c) =>
    if c.atSeparator then ⟨[], c, true⟩
    else match plainBreaks (c.rest.length + 1) [] c with
      | (none, c) => ⟨[], c, true⟩
      | (some more, c) => ⟨foldedBreaks b more, c, true⟩

/-- A plain scalar. -/
structure Plain where
  text : List Char
  cursor : Cursor
  /-- whether it is followed by the end of a line, so that a key may begin -/
  overLine : Bool

/-- Reads a plain scalar; `indent` is the least column that it may go on in. -/
def plainBody (flow : Bool) (indent : Int) : Nat → List Char → PlainGap → Plain
  | 0, acc, gap => ⟨acc.reverse, gap.cursor, gap.overLine⟩
  | n + 1, acc, gap =>
    let c := gap.cursor
    let run := if c.peek = '#' then [] else plainRun flow c.rest
    if run = [] then ⟨acc.reverse, c, gap.overLine⟩
    else
      let acc := run.reverse ++ gap.text.reverse ++ acc
      let gap := plainGap (c.steps run.length)
      if gap.text = [] || gap.cursor.peek = '#' || (!flow && gap.cursor.column < indent) then
        ⟨acc.reverse, gap.cursor, gap.overLine⟩
      else plainBody flow indent n acc gap

/-- A plain scalar below a collection that is indented by `indent`. -/
def readPlain (flow : Bool) (indent : Int) (c : Cursor) : Plain :=
  plainBody flow (indent + 1) (c.rest.length + 1) [] ⟨[], c, false⟩

/-! ## Block scalars -/

/-- What becomes of the end of a block scalar. -/
inductive Chomping where
  /-- its last line break stays -/
  | clip
  /-- no break stays -/
  | strip
  /-- all breaks stay -/
  | keep
  deriving DecidableEq, Repr

/-- The chomping that a sign stands for. -/
def chomping? (c : Char) : Option Chomping :=
  if c = '+' then some .keep else if c = '-' then some .strip else none

/-- The indentation that a digit stands for; zero is none. -/
def increment? (c : Char) : Option (Option Nat) :=
  if c = '0' then some none
  else if '1' ≤ c && c ≤ '9' then some (some (c.toNat - 48))
  else none

/-- An indicator for the indentation, where one stands here. -/
def readIncrement (c : Cursor) : Reading (Option Nat) :=
  match increment? c.peek with
  | none => .ok (none, c)
  | some none => .error .malformed
  | some (some n) => .ok (some n, c.step)

/-- The indicators of a block scalar, in either order. -/
def readSigns (c : Cursor) : Reading (Chomping × Option Nat) :=
  match chomping? c.peek with
  | some ch => (readIncrement c.step).map fun (i, c) => ((ch, i), c)
  | none =>
    (readIncrement c).map fun (i, c) =>
      match i, chomping? c.peek with
      | some i, some ch => ((ch, some i), c.step)
      | i, _ => ((.clip, i), c)

/-- The indicators of a block scalar, and the rest of their line, which holds nothing but a
comment. -/
def readIndicators (c : Cursor) : Reading (Chomping × Option Nat) :=
  match readSigns c with
  | .error e => .error e
  | .ok (signs, c) =>
    let d := c.skipSpaces.skipComment
    if !isSpaceOrEnd c.peek || !isLineEnd d.peek then .error .malformed
    else match d.lineBreak? with
      | some (_, d) => .ok (signs, d)
      | none => .ok (signs, d)

/-- The breaks in front of the first line, and the deepest column that spaces reach there. -/
def leadingBreaks : Nat → List Char → Nat → Cursor → (List Char × Nat) × Cursor
  | 0, acc, deepest, c => ((acc.reverse, deepest), c)
  | n + 1, acc, deepest, c =>
    if c.peek = ' ' then
      let c := c.step
      leadingBreaks n acc (max deepest c.column) c
    else match c.lineBreak? with
      | some (b, c) => leadingBreaks n (b :: acc) deepest c
      | none => ((acc.reverse, deepest), c)

/-- Goes over spaces up to a column. -/
def skipIndent (indent : Nat) (c : Cursor) : Cursor :=
  c.steps (min (indent - c.column) (c.rest.takeWhile (· = ' ')).length)

/-- The breaks up to the next line that has text at a column. -/
def blockBreaks (indent : Nat) : Nat → List Char → Cursor → List Char × Cursor
  | 0, acc, c => (acc.reverse, c)
  | n + 1, acc, c =>
    let c := skipIndent indent c
    match c.lineBreak? with
    | some (b, c) => blockBreaks indent n (b :: acc) c
    | none => (acc.reverse, c)

/-- The lines of a block scalar.  `breaks` are those in front of the line at hand; the result is the
text so far, the last line break, and the breaks behind it. -/
def blockLines (folded : Bool) (indent : Nat) :
    Nat → List Char → List Char → Cursor → (List Char × List Char × List Char) × Cursor
  | 0, acc, breaks, c => ((acc, [], breaks), c)
  | n + 1, acc, breaks, c =>
    let leading := isGap c.peek
    let (line, c) := c.takeWhile (!isLineEnd ·)
    let acc := line.reverse ++ breaks.reverse ++ acc
    let (last, c) := match c.lineBreak? with
      | some (b, c) => ([b], c)
      | none => ([], c)
    let (breaks, c) := blockBreaks indent (c.rest.length + 1) [] c
    if c.column = indent && !c.atEnd then
      let joined := if folded && last = ['\n'] && !leading && !isGap c.peek then
        (if breaks = [] then [' '] else []) else last
      blockLines folded indent n (joined.reverse ++ acc) breaks c
    else ((acc, last, breaks), c)

/-- The column of a block scalar, with the breaks in front of its first line. -/
def blockStart (least : Nat) (increment : Option Nat) (c : Cursor) : (Nat × List Char) × Cursor :=
  let fuel := c.rest.length + 1
  match increment with
  | some i =>
    let (breaks, c) := blockBreaks (least + i - 1) fuel [] c
    ((least + i - 1, breaks), c)
  | none =>
    let ((breaks, deepest), c) := leadingBreaks fuel [] 0 c
    ((max least deepest, breaks), c)

/-- A block scalar below a collection that is indented by `indent`. -/
def readBlock (folded : Bool) (indent : Int) (c : Cursor) : Reading (List Char) :=
  (readIndicators c.step).map fun ((chomping, increment), c) =>
    let ((column, breaks), c) := blockStart (max (indent + 1) 1).toNat increment c
    let ((acc, last, breaks), c) :=
      if c.column = column && !c.atEnd then
        blockLines folded column (c.rest.length + 1) [] breaks c
      else (([], [], breaks), c)
    let tail := match chomping with
      | .strip => []
      | .clip => last
      | .keep => last ++ breaks
    (acc.reverse ++ tail, c)

end SheetBuild.Yaml
