import SheetBuild.Text.Blank
import SheetBuild.Text.Digit
import SheetBuild.Text.Lowercase
import SheetBuild.Yaml.Tag
set_option autoImplicit false

/-!
# Numbers in YAML

The numbers that scalars write.  Underscores count for nothing.  An integer may be binary, octal with
a leading zero, hexadecimal, or in base sixty with colons.  Of a floating-point number only its form
is checked, since no reader asks for its value.

A text may hold halves of surrogate pairs.  A half is no digit, no white space and no part of a word or
of a date, so it makes for a fault wherever it stands.
-/

namespace SheetBuild.Yaml.Numeral

open SheetBuild.Text (Loose Point)

/-- Whether a code point is a character of some kind. -/
def isChar (p : Char → Bool) (point : Point) : Bool := point.char?.any p

/-- The value of a digit in bases up to sixteen; decimal digits of all scripts count. -/
def digitValue? (c : Char) : Option Nat :=
  match Text.digit? c with
  | some v => some v
  | none => hexDigit? c
where
  /-- The value of a letter among the hexadecimal digits. -/
  hexDigit? (c : Char) : Option Nat :=
    if 'a' ≤ c && c ≤ 'f' then some (c.toNat - 87)
    else if 'A' ≤ c && c ≤ 'F' then some (c.toNat - 55)
    else none

/-- The value of digits in a base. -/
def digitsValue? (base : Nat) (ps : List Point) : Option Nat :=
  if ps = [] then none
  else ps.foldl (fun n p => match n, p.char?.bind digitValue? with
    | some n, some v => if v < base then some (base * n + v) else none
    | _, _ => none) (some 0)

/-- The sign in front of a number, and the rest. -/
def cutSign (ps : List Point) : Int × List Point :=
  match ps with
  | .char '-' :: r => (-1, r)
  | .char '+' :: r => (1, r)
  | r => (1, r)

/-- The letter that marks a base. -/
def baseMark? (base : Nat) : Option Char :=
  match base with
  | 2 => some 'b'
  | 8 => some 'o'
  | 16 => some 'x'
  | _ => none

/-- Digits without the mark of their base. -/
def withoutMark (base : Nat) (ps : List Point) : List Point :=
  match ps with
  | .char '0' :: .char m :: r => if baseMark? base = some m.toLower then r else ps
  | ps => ps

/-- A number without the white space around it. -/
def trimmed (text : List Point) : List Point := Text.trimWhile (isChar Text.isWhiteSpace) text

/-- A text without underscores. -/
def withoutGroups (text : List Point) : List Point := text.filter (· ≠ .char '_')

/-- The integer that a text writes in a base, with white space around it and a sign.  In base ten the
digits at the front are counted before anything behind them is looked at. -/
def integerIn (base : Nat) (text : List Point) : Except Fault Int :=
  let (sign, digits) := cutSign (trimmed text)
  let run := digits.takeWhile (isChar Text.isDigit)
  if base = 10 && Number.Integer.maxDigits < run.length then .error (.longInteger run.length)
  else match digitsValue? base (withoutMark base digits) with
    | none => .error (.notInteger base (.ofPoints text))
    | some n => .ok (sign * n)

/-- The integers of the parts between colons, as one number in base sixty. -/
def sexagesimal (parts : List (List Point)) : Except Fault Int :=
  parts.foldlM (fun n p => (integerIn 10 p).map fun d => 60 * n + d) 0

/-- The integer of a scalar. -/
def integer (text : List Point) : Except Fault Int :=
  let ps := withoutGroups text
  if ps = [] then .error .noNumber
  else
    let (sign, u) := cutSign ps
    let magnitude : Except Fault Int :=
      match u with
      | [] => .error .noNumber
      | [.char '0'] => .ok 0
      | .char '0' :: .char 'b' :: ds => integerIn 2 ds
      | .char '0' :: .char 'x' :: ds => integerIn 16 ds
      | .char '0' :: _ => integerIn 8 u
      | _ =>
        if u.contains (.char ':') then sexagesimal (Tag.partsAt (.char ':') u) else integerIn 10 u
    magnitude.map (sign * ·)

/-- Whether a text, in lower case, is a floating-point number in decimal notation or a name of one. -/
def isReal (text : List Char) : Bool :=
  let u := Tag.unsigned (Text.trimWhile Text.isWhiteSpace text)
  let whole := u.takeWhile Text.isDigit
  let rest := u.dropWhile Text.isDigit
  let (fraction, rest) := match rest with
    | '.' :: r => (r.takeWhile Text.isDigit, r.dropWhile Text.isDigit)
    | r => ([], r)
  let exponent := match rest with
    | [] => true
    | 'e' :: r =>
      let ds := Tag.unsigned r
      ds ≠ [] && ds.all Text.isDigit
    | _ => false
  ["inf", "infinity", "nan"].any (fun w => u = w.toList)
    || (exponent && (whole ≠ [] || fraction ≠ []))

/-- A text in lower case: that of the characters between halves, where a half ends a word. -/
def lowercase (ps : List Point) : List Point :=
  let (front, runs) : List Char × List (Point × List Char) := ps.foldr (fun p (cs, runs) => match p with
    | .char c => (c :: cs, runs)
    | p => ([], (p, cs) :: runs)) ([], [])
  (Text.lowercase front).map .char
    ++ runs.flatMap fun (p, cs) => p :: (Text.lowercase cs).map .char

/-- Whether there are so many parts in base sixty that the weight of the first is out of the range of
floating-point numbers, which end below 2^1024. -/
def isTooHeavy (parts : Nat) : Bool := Nat.pow 2 1024 ≤ Nat.pow 60 (parts - 1)

/-- Checks a text that is announced to be a floating-point number. -/
def checkReal (text : List Point) : Except Fault Unit :=
  let ps := lowercase (withoutGroups text)
  if ps = [] then .error .noNumber
  else
    let u := (cutSign ps).2
    if [".inf", ".nan"].any (fun w => u = w.toList.map .char) then .ok ()
    else
      let parts := Tag.partsAt (.char ':') u
      match parts.find? fun p => !(Point.chars? p).any isReal with
      | some p => .error (.notReal (.ofPoints p))
      | none => if isTooHeavy parts.length then .error .hugeReal else .ok ()

/-- The number of days in a month. -/
def daysIn (year month : Nat) : Nat :=
  match month with
  | 2 => if year % 4 = 0 ∧ (year % 100 ≠ 0 ∨ year % 400 = 0) then 29 else 28
  | 4 => 30
  | 6 => 30
  | 9 => 30
  | 11 => 30
  | _ => 31

/-- The first part of a moment that is out of its range. -/
def outOfRange? (m : Tag.Moment) : Option MomentPart :=
  let offset := m.offset.getD 0
  if offset ≤ -86400 ∨ 86400 ≤ offset then some (.offset offset)
  else if m.year = 0 then some (.year m.year)
  else if m.month = 0 ∨ 12 < m.month then some .month
  else if m.day = 0 ∨ daysIn m.year m.month < m.day then some .day
  else match m.time with
    | none => none
    | some (hour, minute, second) =>
      if 23 < hour then some .hour
      else if 59 < minute then some .minute
      else if 59 < second then some .second
      else none

/-- Checks a text that is announced to be a date. -/
def checkMoment (text : List Point) : Except Fault Unit :=
  match (Point.chars? text).bind fun cs => Tag.moment? (Tag.withoutFeed cs) with
  | none => .error .notMoment
  | some m =>
    match outOfRange? m with
    | some part => .error (.outOfRange part)
    | none => .ok ()

/-- The flag of a word. -/
def flag (text : List Point) : Except Fault Bool :=
  let word := lowercase text
  match Tag.flagWords.find? fun w => w.1.toList.map .char = word with
  | some w => .ok w.2
  | none => .error (.notFlag (.ofPoints word))

end SheetBuild.Yaml.Numeral
