import SheetBuild.Json.Value
import SheetBuild.Number.Integer
import SheetBuild.Number.Text
set_option autoImplicit false

/-!
# Writing JSON

Two layouts of a JSON value, both in ASCII: `compact` without spaces, and `indented` with one item
or field a line, two spaces for each level.  `describe` writes a value as it is shown in messages.

An integer is written only up to the number of digits up to which it is read; `write` says where a value
holds a longer one.
-/

namespace SheetBuild.Json

open SheetBuild.Text (Broken Point)
open SheetBuild.Text.Quoted (hexDigits)

/-- The escape of one 16-bit unit. -/
def escapeUnit (n : Nat) : List Char := ['\\', 'u'] ++ hexDigits 4 n

/-- One character of a string: a short escape where there is one, and an escape of its 16-bit units
outside the printable ASCII characters. -/
def escapeChar (c : Char) : List Char :=
  if c = '"' then ['\\', '"']
  else if c = '\\' then ['\\', '\\']
  else if c = '\x08' then ['\\', 'b']
  else if c = '\x0c' then ['\\', 'f']
  else if c = '\n' then ['\\', 'n']
  else if c = '\r' then ['\\', 'r']
  else if c = '\t' then ['\\', 't']
  else if 32 ≤ c.toNat ∧ c.toNat < 127 then [c]
  else if c.toNat < 0x10000 then escapeUnit c.toNat
  else
    let n := c.toNat - 0x10000
    escapeUnit (0xD800 + n / 1024) ++ escapeUnit (0xDC00 + n % 1024)

/-- A string with its quotes. -/
def quoted (cs : List Char) : List Char := '"' :: cs.flatMap escapeChar ++ ['"']

/-- One code point of a string. -/
def escapePoint : Point → List Char
  | .char c => escapeChar c
  | p => escapeUnit p.code

/-- A string by its code points, with its quotes. -/
def quotedPoints (ps : List Point) : List Char := '"' :: ps.flatMap escapePoint ++ ['"']

/-- The text of an integer. -/
def intText (i : Int) : List Char :=
  if i < 0 then '-' :: Nat.toDigits 10 i.natAbs else Nat.toDigits 10 i.natAbs

/-- The text of a floating-point number; the reader knows the words for what is no finite number. -/
def realText (x : Number.Binary64) : List Char :=
  match x with
  | .nan => "NaN".toList
  | .infinite false => "Infinity".toList
  | .infinite true => "-Infinity".toList
  | .finite .. => x.text

mutual

/-- A value without spaces. -/
def compact : Value → List Char
  | .null => "null".toList
  | .bool true => "true".toList
  | .bool false => "false".toList
  | .int i => intText i
  | .real x => realText x
  | .text s => quoted s.toList
  | .broken t => quotedPoints t.points
  | .array items => '[' :: compactItems items ++ [']']
  | .object fields => '\x7b' :: compactFields fields ++ ['\x7d']
  | .torn fields => '\x7b' :: compactTorn fields ++ ['\x7d']

/-- The items of an array, with commas between them. -/
def compactItems : List Value → List Char
  | [] => []
  | [v] => compact v
  | v :: vs => compact v ++ ',' :: compactItems vs

/-- The fields of an object, with commas between them. -/
def compactFields : List (String × Value) → List Char
  | [] => []
  | [(n, v)] => quoted n.toList ++ ':' :: compact v
  | (n, v) :: fs => quoted n.toList ++ ':' :: compact v ++ ',' :: compactFields fs

/-- The fields of an object whose names are values, with commas between them. -/
def compactTorn : List (Value × Value) → List Char
  | [] => []
  | [(n, v)] => compact n ++ ':' :: compact v
  | (n, v) :: fs => compact n ++ ':' :: compact v ++ ',' :: compactTorn fs

end

/-! ## What is written -/

/-- Whether no integer in a value has more digits than are read or written. -/
def Value.isShort (v : Value) : Bool :=
  v.every fun
    | .int i => decide ((Nat.toDigits 10 i.natAbs).length ≤ Number.Integer.maxDigits)
    | _ => true

/-- Why a value is not written. -/
inductive WriteError where
  /-- an integer has too many digits -/
  | longInteger
  deriving DecidableEq, Repr

/-- The wording of a write error. -/
def WriteError.message : WriteError → String
  | .longInteger => Number.Integer.writeLimitMessage

/-- Writes a value without spaces. -/
def write (v : Value) : Except WriteError (List Char) :=
  if v.isShort then .ok (compact v) else .error .longInteger

/-! ## Several lines -/

/-- The start of a line at a level of nesting. -/
def newLine (level : Nat) : List Char := '\n' :: List.replicate (2 * level) ' '

mutual

/-- A value over several lines; `level` is the nesting of its first line. -/
def indentedAt (level : Nat) : Value → List Char
  | .array [] => ['[', ']']
  | .array items =>
    '[' :: newLine (level + 1) ++ indentedItems (level + 1) items ++ newLine level ++ [']']
  | .object [] => ['\x7b', '\x7d']
  | .object fields =>
    '\x7b' :: newLine (level + 1) ++ indentedFields (level + 1) fields ++ newLine level ++ ['\x7d']
  | .torn fields =>
    '\x7b' :: newLine (level + 1) ++ indentedTorn (level + 1) fields ++ newLine level ++ ['\x7d']
  | v => compact v

/-- The items of an array, one a line. -/
def indentedItems (level : Nat) : List Value → List Char
  | [] => []
  | [v] => indentedAt level v
  | v :: vs => indentedAt level v ++ ',' :: newLine level ++ indentedItems level vs

/-- The fields of an object, one a line. -/
def indentedFields (level : Nat) : List (String × Value) → List Char
  | [] => []
  | [(n, v)] => quoted n.toList ++ [':', ' '] ++ indentedAt level v
  | (n, v) :: fs =>
    quoted n.toList ++ [':', ' '] ++ indentedAt level v ++ ',' :: newLine level
      ++ indentedFields level fs

/-- The fields of an object whose names are values, one a line. -/
def indentedTorn (level : Nat) : List (Value × Value) → List Char
  | [] => []
  | [(n, v)] => compact n ++ [':', ' '] ++ indentedAt level v
  | (n, v) :: fs =>
    compact n ++ [':', ' '] ++ indentedAt level v ++ ',' :: newLine level ++ indentedTorn level fs

end

/-- A value over several lines. -/
def indented (v : Value) : List Char := indentedAt 0 v

/-! ## Messages -/

mutual

/-- A value as messages show it. -/
def describe : Value → List Char
  | .null => "None".toList
  | .bool true => "True".toList
  | .bool false => "False".toList
  | .int i => intText i
  | .real x => x.text
  | .text s => Text.Quoted.encode s.toList
  | .broken t => Text.Loose.quoted (.broken t)
  | .array items => '[' :: describeItems items ++ [']']
  | .object fields => '\x7b' :: describeFields fields ++ ['\x7d']
  | .torn fields => '\x7b' :: describeTorn fields ++ ['\x7d']

/-- The items of an array as messages show them. -/
def describeItems : List Value → List Char
  | [] => []
  | [v] => describe v
  | v :: vs => describe v ++ [',', ' '] ++ describeItems vs

/-- The fields of an object as messages show them. -/
def describeFields : List (String × Value) → List Char
  | [] => []
  | [(n, v)] => Text.Quoted.encode n.toList ++ [':', ' '] ++ describe v
  | (n, v) :: fs =>
    Text.Quoted.encode n.toList ++ [':', ' '] ++ describe v ++ [',', ' '] ++ describeFields fs

/-- The fields of an object whose names are values, as messages show them. -/
def describeTorn : List (Value × Value) → List Char
  | [] => []
  | [(n, v)] => describe n ++ [':', ' '] ++ describe v
  | (n, v) :: fs => describe n ++ [':', ' '] ++ describe v ++ [',', ' '] ++ describeTorn fs

end

end SheetBuild.Json
