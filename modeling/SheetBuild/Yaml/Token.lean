import SheetBuild.Text.Utf8
import SheetBuild.Yaml.Scalar
set_option autoImplicit false

/-!
# Tokens

A YAML text as a list of tokens.  Indentation shows as tokens that open and close block collections.
A key in front of its colon is known for a key only when the colon comes, so the places where a key
may have begun are kept, and the token for the key is put in there afterwards.  Such a key stays
within one line and 1024 characters.
-/

namespace SheetBuild.Yaml

/-- A line that tells how a document is to be read. -/
inductive Directive where
  | version (major : Nat)
  /-- what a tag handle stands for -/
  | handle (name target : String)
  | other
  deriving DecidableEq, Repr

/-- A token. -/
inductive Token where
  | directive (d : Directive)
  | documentStart
  | documentEnd
  | streamEnd
  | blockSequenceStart
  | blockMappingStart
  | blockEnd
  | flowSequenceStart
  | flowSequenceEnd
  | flowMappingStart
  | flowMappingEnd
  | blockEntry
  | flowEntry
  | key
  | value
  | alias (name : String)
  | anchor (name : String)
  /-- a tag as written: its handle, if it has one, and what follows -/
  | tag (handle : Option String) (suffix : String)
  | scalar (text : List Text.Point) (plain : Bool)
  deriving DecidableEq, Repr

/-! ## Directives, anchors and tags -/

/-- Whether a character can stand in a tag. -/
def isTagChar (c : Char) : Bool :=
  isWordChar c || c = ';' || c = '/' || c = '?' || c = ':' || c = '@' || c = '&' || c = '='
    || c = '+' || c = '$' || c = ',' || c = '.' || c = '!' || c = '~' || c = '*' || c = '\''
    || c = '(' || c = ')' || c = '[' || c = ']'

/-- The bytes that percent escapes write. -/
def percentBytes : Nat → Bytes → Cursor → Reading Bytes
  | 0, acc, c => .ok (acc.reverse, c)
  | n + 1, acc, c =>
    if c.peek = '%' then
      match c.rest.drop 1 with
      | h :: l :: _ =>
        match hexNumber? [h, l] with
        | some v => percentBytes n (UInt8.ofNat v :: acc) (c.steps 3)
        | none => .error .malformed
      | _ => .error .malformed
    else .ok (acc.reverse, c)

/-- The characters of a tag; percent escapes write bytes in UTF-8. -/
def tagText : Nat → List Char → Cursor → Reading (List Char)
  | 0, acc, c => .ok (acc.reverse, c)
  | n + 1, acc, c =>
    if c.peek = '%' then
      match percentBytes c.rest.length [] c with
      | .error e => .error e
      | .ok (bytes, c) =>
        match Text.Utf8.decode? bytes with
        | some cs => tagText n (cs.reverse ++ acc) c
        | none => .error .malformed
    else if isTagChar c.peek then tagText n (c.peek :: acc) c.step
    else .ok (acc.reverse, c)

/-- The text of a tag, of which there has to be some. -/
def readTagText (c : Cursor) : Reading String :=
  if isTagChar c.peek || c.peek = '%' then
    (tagText c.rest.length [] c).map fun (cs, c) => (String.ofList cs, c)
  else .error .malformed

/-- A tag handle: a word between exclamation marks, or one such mark alone. -/
def readHandle (c : Cursor) : Reading String :=
  if c.peek ≠ '!' then .error .malformed
  else if c.peekAt 1 = ' ' then .ok ("!", c.step)
  else
    let (word, d) := c.step.takeWhile isWordChar
    if d.peek = '!' then .ok ("!" ++ String.ofList word ++ "!", d.step) else .error .malformed

/-- A tag. -/
def readTag (c : Cursor) : Reading Token :=
  let next := c.peekAt 1
  let tag : Reading Token :=
    if next = '<' then
      match readTagText (c.steps 2) with
      | .error e => .error e
      | .ok (text, c) =>
        if c.peek = '>' then .ok (.tag none text, c.step) else .error .malformed
    else if isGapOrEnd next then .ok (.tag none "!", c.step)
    else
      let word := (c.rest.drop 1).takeWhile (!isSpaceOrEnd ·)
      if word.contains '!' then
        match readHandle c with
        | .error e => .error e
        | .ok (handle, c) => (readTagText c).map fun (s, c) => (.tag (some handle) s, c)
      else (readTagText c.step).map fun (s, c) => (.tag (some "!") s, c)
  match tag with
  | .error e => .error e
  | .ok (t, c) => if isSpaceOrEnd c.peek then .ok (t, c) else .error .malformed

/-- Whether a character may follow the name of an anchor. -/
def endsName (c : Char) : Bool :=
  isGapOrEnd c || c = '?' || c = ':' || c = ',' || c = ']' || c = '\x7d' || c = '%' || c = '@'
    || c = Char.ofNat 0x60

/-- The name of an anchor or of an alias, behind its mark. -/
def readName (c : Cursor) : Reading String :=
  let (name, d) := c.step.takeWhile isWordChar
  if name = [] || !endsName d.peek then .error .malformed else .ok (String.ofList name, d)

/-- The number of a version. -/
def readVersionPart (c : Cursor) : Reading Nat :=
  let (digits, c) := c.takeWhile Number.Integer.isDigit
  if digits = [] then .error .malformed
  else if Number.Integer.maxDigits < digits.length then .error (.longInteger digits.length)
  else .ok (Number.Integer.digitsValue digits, c)

/-- A version: two numbers with a point between them. -/
def readVersion (c : Cursor) : Reading Directive :=
  match readVersionPart c.skipSpaces with
  | .error e => .error e
  | .ok (major, c) =>
    if c.peek ≠ '.' then .error .malformed
    else match readVersionPart c.step with
      | .error e => .error e
      | .ok (_, c) => if isSpaceOrEnd c.peek then .ok (.version major, c) else .error .malformed

/-- The meaning of a tag handle. -/
def readHandleMeaning (c : Cursor) : Reading Directive :=
  match readHandle c.skipSpaces with
  | .error e => .error e
  | .ok (name, c) =>
    if c.peek ≠ ' ' then .error .malformed
    else match readTagText c.skipSpaces with
      | .error e => .error e
      | .ok (target, c) =>
        if isSpaceOrEnd c.peek then .ok (.handle name target, c) else .error .malformed

/-- A directive, with the rest of its line. -/
def readDirective (c : Cursor) : Reading Token :=
  let (name, c) := c.step.takeWhile isWordChar
  if name = [] || !isSpaceOrEnd c.peek then .error .malformed
  else
    let read : Reading Directive :=
      if name = "YAML".toList then readVersion c
      else if name = "TAG".toList then readHandleMeaning c
      else .ok (.other, c.skipWhile (!isLineEnd ·))
    match read with
    | .error e => .error e
    | .ok (d, c) =>
      let c := c.skipSpaces.skipComment
      if !isLineEnd c.peek then .error .malformed
      else match c.lineBreak? with
        | some (_, c) => .ok (.directive d, c)
        | none => .ok (.directive d, c)

/-! ## The state of a scan -/

/-- A place where a key may have begun. -/
structure KeyPlace where
  /-- how many tokens stand in front of it -/
  number : Nat
  /-- whether nothing but a key can stand there -/
  required : Bool
  index : Nat
  line : Nat
  column : Nat
  deriving DecidableEq, Repr

/-- The state of a scan. -/
structure Scan where
  cursor : Cursor
  /-- how many flow collections are open -/
  level : Nat := 0
  /-- the column of the innermost block collection -/
  indent : Int := -1
  /-- the columns of the block collections around it -/
  indents : List Int := []
  /-- whether a key may begin here -/
  keyAllowed : Bool := true
  /-- the places where keys may have begun, one for each level -/
  keys : List (Nat × KeyPlace) := []
  /-- the tokens so far, the latest first -/
  tokens : List Token := []

namespace Scan

/-- Adds a token and goes on from a cursor. -/
def emit (s : Scan) (t : Token) (c : Cursor) : Scan := { s with tokens := t :: s.tokens, cursor := c }

/-- Puts a token in behind the first `number` tokens. -/
def insert (s : Scan) (number : Nat) (t : Token) : Scan :=
  let later := s.tokens.length - number
  { s with tokens := s.tokens.take later ++ t :: s.tokens.drop later }

/-- Whether a place is too far back for a key that ends here. -/
def isStale (s : Scan) (k : KeyPlace) : Bool :=
  k.line ≠ s.cursor.line || k.index + 1024 < s.cursor.index

/-- Forgets the places that are too far back. -/
def dropStale (s : Scan) : Except Fault Scan :=
  if s.keys.any fun k => s.isStale k.2 && k.2.required then .error .malformed
  else .ok { s with keys := s.keys.filter fun k => !s.isStale k.2 }

/-- Forgets the place of the innermost level. -/
def dropKey (s : Scan) : Except Fault Scan :=
  match s.keys.lookup s.level with
  | some k =>
    if k.required then .error .malformed
    else .ok { s with keys := s.keys.filter (·.1 ≠ s.level) }
  | none => .ok s

/-- Keeps this place, if a key may begin here. -/
def saveKey (s : Scan) : Except Fault Scan :=
  if s.keyAllowed then
    s.dropKey.map fun s =>
      let c := s.cursor
      let k : KeyPlace := ⟨s.tokens.length, s.level = 0 && s.indent = c.column, c.index, c.line,
        c.column⟩
      { s with keys := (s.level, k) :: s.keys }
  else .ok s

/-- Closes the block collections that are indented deeper than a column. -/
def unwindFrom (column : Int) : List Int → Int → List Token → List Int × Int × List Token
  | indents, indent, tokens =>
    if column < indent then
      match indents with
      | [] => ([], -1, .blockEnd :: tokens)
      | i :: is => unwindFrom column is i (.blockEnd :: tokens)
    else (indents, indent, tokens)

/-- Closes the block collections that are indented deeper than a column; inside a flow collection
indentation has no meaning. -/
def unwind (s : Scan) (column : Int) : Scan :=
  if s.level ≠ 0 then s
  else
    let (indents, indent, tokens) := unwindFrom column s.indents s.indent s.tokens
    { s with indents, indent, tokens }

/-- Opens a block collection, if the column is deeper than that of the innermost one. -/
def openBlock (s : Scan) (column number : Nat) (t : Token) : Scan :=
  if s.indent < column then
    ({ s with indents := s.indent :: s.indents, indent := column }).insert number t
  else s

/-- Goes over spaces, comments and line breaks.  Outside of flow collections a key may begin behind a
line break. -/
def skipGaps : Nat → Scan → Scan
  | 0, s => s
  | n + 1, s =>
    let c := s.cursor.skipSpaces.skipComment
    match c.lineBreak? with
    | some (_, c) => skipGaps n { s with cursor := c, keyAllowed := s.keyAllowed || s.level = 0 }
    | none => { s with cursor := c }

/-- Goes to the next token. -/
def toNext (s : Scan) : Scan :=
  let c := s.cursor
  let c := if c.index = 0 && c.peek = byteOrderMark then c.step else c
  skipGaps (c.rest.length + 1) { s with cursor := c }

/-! ## Tokens one by one -/

/-- A token outside of all collections, of which it closes the blocks. -/
def outside (s : Scan) (t : Token) (c : Cursor) : Except Fault Scan :=
  (s.unwind (-1)).dropKey.map fun s => { s with keyAllowed := false }.emit t c

/-- A token that may be a key, or be in front of one. -/
def part (s : Scan) (read : Cursor → Reading Token) : Except Fault Scan :=
  match s.saveKey with
  | .error e => .error e
  | .ok s => (read s.cursor).map fun (t, c) => { s with keyAllowed := false }.emit t c

/-- The opening of a flow collection. -/
def flowStart (s : Scan) (t : Token) : Except Fault Scan :=
  s.saveKey.map fun s =>
    { s with level := s.level + 1, keyAllowed := true }.emit t s.cursor.step

/-- The end of a flow collection, which has to be open. -/
def flowEnd (s : Scan) (t : Token) : Except Fault Scan :=
  if s.level = 0 then .error .malformed
  else s.dropKey.map fun s =>
    { s with level := s.level - 1, keyAllowed := false }.emit t s.cursor.step

/-- A comma between the entries of a flow collection. -/
def flowEntry (s : Scan) : Except Fault Scan :=
  s.dropKey.map fun s => { s with keyAllowed := true }.emit .flowEntry s.cursor.step

/-- The hyphen in front of an entry, which may open a sequence. -/
def blockEntry (s : Scan) : Except Fault Scan :=
  if s.level = 0 && !s.keyAllowed then .error .malformed
  else
    let s := if s.level = 0 then
      s.openBlock s.cursor.column s.tokens.length .blockSequenceStart else s
    s.dropKey.map fun s => { s with keyAllowed := true }.emit .blockEntry s.cursor.step

/-- The mark of a key or of a value that has no key in front of it on its line. -/
def explicitMark (s : Scan) (t : Token) : Except Fault Scan :=
  if s.level = 0 && !s.keyAllowed then .error .malformed
  else
    let s := if s.level = 0 then
      s.openBlock s.cursor.column s.tokens.length .blockMappingStart else s
    s.dropKey.map fun s => { s with keyAllowed := s.level = 0 }.emit t s.cursor.step

/-- The colon in front of a value.  What stands before it on the line becomes its key. -/
def valueMark (s : Scan) : Except Fault Scan :=
  match s.keys.lookup s.level with
  | some k =>
    let s := { s with keys := s.keys.filter (·.1 ≠ s.level) }.insert k.number .key
    let s := if s.level = 0 then s.openBlock k.column k.number .blockMappingStart else s
    .ok ({ s with keyAllowed := false }.emit .value s.cursor.step)
  | none => s.explicitMark .value

/-- A block scalar. -/
def blockScalar (s : Scan) (folded : Bool) : Except Fault Scan :=
  { s with keyAllowed := true }.dropKey.bind fun s =>
    (readBlock folded s.indent s.cursor).map fun (text, c) =>
      s.emit (.scalar (List.map .char text) false) c

/-- A plain scalar. -/
def plainScalar (s : Scan) : Except Fault Scan :=
  s.saveKey.map fun s =>
    let p := readPlain (s.level ≠ 0) s.indent s.cursor
    { s with keyAllowed := p.overLine }.emit (.scalar (p.text.map .char) true) p.cursor

/-- Whether a plain scalar may begin with a character. -/
def startsPlain (c : Char) : Bool :=
  !(isGapOrEnd c || c = '-' || c = '?' || c = ':' || c = '#' || c = '&' || c = '*' || c = '!'
    || c = '|' || c = '>' || c = '\'' || c = '"' || c = '%' || c = '@' || c = Char.ofNat 0x60
    || isFlowMark c)

/-- The next token, at the place where it begins. -/
def token (s : Scan) : Except Fault Scan :=
  let c := s.cursor
  let ch := c.peek
  let gapNext := isGapOrEnd (c.peekAt 1)
  let inFlow := s.level ≠ 0
  if c.column = 0 && ch = '%' then
    match readDirective c with
    | .error e => .error e
    | .ok (t, c) => s.outside t c
  else if c.column = 0 && c.atMarker '-' then s.outside .documentStart (c.steps 3)
  else if c.column = 0 && c.atMarker '.' then s.outside .documentEnd (c.steps 3)
  else if ch = '[' then s.flowStart .flowSequenceStart
  else if ch = '\x7b' then s.flowStart .flowMappingStart
  else if ch = ']' then s.flowEnd .flowSequenceEnd
  else if ch = '\x7d' then s.flowEnd .flowMappingEnd
  else if ch = ',' then s.flowEntry
  else if ch = '-' && gapNext then s.blockEntry
  else if ch = '?' && (inFlow || gapNext) then s.explicitMark .key
  else if ch = ':' && (inFlow || gapNext) then s.valueMark
  else if ch = '*' then s.part fun c => (readName c).map fun (n, c) => (.alias n, c)
  else if ch = '&' then s.part fun c => (readName c).map fun (n, c) => (.anchor n, c)
  else if ch = '!' then s.part readTag
  else if ch = '|' && !inFlow then s.blockScalar false
  else if ch = '>' && !inFlow then s.blockScalar true
  else if ch = '\'' then s.part fun c => (readQuoted false c).map fun (t, c) => (.scalar t false, c)
  else if ch = '"' then s.part fun c => (readQuoted true c).map fun (t, c) => (.scalar t false, c)
  else if startsPlain ch || (!gapNext && (ch = '-' || (!inFlow && (ch = '?' || ch = ':')))) then
    s.plainScalar
  else .error .malformed

/-- The next token, and whether it is the last one. -/
def next (s : Scan) : Except Fault (Scan × Bool) :=
  match s.toNext.dropStale with
  | .error e => .error e
  | .ok s =>
    let s := s.unwind s.cursor.column
    if s.cursor.atEnd then
      (s.unwind (-1)).dropKey.map fun s => (s.emit .streamEnd s.cursor, true)
    else s.token.map fun s => (s, false)

/-- How many tokens are settled: those in front of the first place where a key may have begun. -/
def settled (s : Scan) : Nat :=
  (s.keys.filter fun k => !s.isStale k.2).foldl (fun n k => min n k.2.number) s.tokens.length

end Scan

/-- The tokens of a text, up to the first fault. -/
structure Tokens where
  tokens : List Token
  /-- what is wrong behind the last token -/
  fault : Fault := .malformed
  deriving DecidableEq, Repr

namespace Tokens

/-- The tokens behind those of a scan.  Each token goes over a character of the text, so its length
bounds their number. -/
def ofScan : Nat → Scan → Tokens
  | 0, s => ⟨s.tokens.reverse, .malformed⟩
  | n + 1, s =>
    match s.next with
    | .error e => ⟨s.tokens.reverse.take s.settled, e⟩
    | .ok (s, true) => ⟨s.tokens.reverse, .malformed⟩
    | .ok (s, false) => ofScan n s

/-- The tokens of a text. -/
def ofText (text : List Char) : Tokens :=
  if text.all isAllowed then ofScan (text.length + 1) { cursor := { rest := text } }
  else ⟨[], .malformed⟩

end Tokens

end SheetBuild.Yaml
