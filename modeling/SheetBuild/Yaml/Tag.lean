import SheetBuild.Yaml.Cursor
set_option autoImplicit false

/-!
# Tags

The type of a node.  A scalar without a tag gets one from its text, by the forms of the types: the
first type whose form the text has, and text where it has none of them.
-/

namespace SheetBuild.Yaml

/-- The type of a node. -/
inductive Tag where
  | null
  | flag
  | integer
  | real
  | moment
  | text
  | binary
  | sequence
  | mapping
  | orderedMap
  | pairs
  | set
  /-- the key under which a mapping takes in the entries of others -/
  | merge
  /-- the key of the default value of a mapping -/
  | default
  /-- a type that has no values -/
  | unknown
  deriving DecidableEq, Repr

namespace Tag

/-- The beginning of the names of the common types. -/
def common : String := "tag:yaml.org,2002:"

/-- The common types by name. -/
def names : List (String × Tag) :=
  [("null", .null), ("bool", .flag), ("int", .integer), ("float", .real), ("timestamp", .moment),
    ("str", .text), ("binary", .binary), ("seq", .sequence), ("map", .mapping),
    ("omap", .orderedMap), ("pairs", .pairs), ("set", .set), ("merge", .merge), ("value", .default)]

/-- The type of a full name. -/
def ofName (name : String) : Tag :=
  match names.find? fun n => common ++ n.1 = name with
  | some n => n.2
  | none => .unknown

/-! ## Forms -/

/-- A digit from 0 to 9. -/
def isDecimal (c : Char) : Bool := '0' ≤ c && c ≤ '9'

/-- A digit or an underscore. -/
def isGrouped (c : Char) : Bool := isDecimal c || c = '_'

/-- A text without the sign in front of it. -/
def unsigned (cs : List Char) : List Char :=
  match cs with
  | '+' :: r => r
  | '-' :: r => r
  | r => r

/-- The words for flags, in lower case. -/
def flagWords : List (String × Bool) :=
  [("yes", true), ("no", false), ("true", true), ("false", false), ("on", true), ("off", false)]

/-- A word as it is, with a capital, and in capitals. -/
def spellings (word : String) : List (List Char) :=
  let cs := word.toList
  [cs, match cs with
    | [] => []
    | c :: r => c.toUpper :: r, cs.map Char.toUpper]

/-- The form of a flag. -/
def isFlag (cs : List Char) : Bool := flagWords.any fun w => (spellings w.1).contains cs

/-- The form of null. -/
def isNull (cs : List Char) : Bool :=
  cs = [] || cs = ['~'] || (spellings "null").contains cs

/-- The form of an exponent, which has to have a sign, or nothing. -/
def isExponent (cs : List Char) : Bool :=
  match cs with
  | [] => true
  | e :: sign :: ds =>
    (e = 'e' || e = 'E') && (sign = '+' || sign = '-') && !ds.isEmpty && ds.all isDecimal
  | _ => false

/-- Digits in groups, of which the first character is a digit. -/
def isGroup (cs : List Char) : Bool := (cs.head?.any isDecimal) && cs.all isGrouped

/-- The parts between the marks in a text. -/
def partsAt {α : Type} [DecidableEq α] (mark : α) (cs : List α) : List (List α) :=
  cs.foldr (fun c parts => match parts with
    | p :: ps => if c = mark then [] :: p :: ps else (c :: p) :: ps
    | [] => [[c]]) [[]]

/-- A number below sixty, of one or two digits. -/
def isSixtieth (cs : List Char) : Bool :=
  match cs with
  | [a] => isDecimal a
  | [a, b] => '0' ≤ a && a ≤ '5' && isDecimal b
  | _ => false

/-- The form of a fraction in decimal notation. -/
def isDecimalReal (cs : List Char) : Bool :=
  let whole := cs.takeWhile isGrouped
  match cs.dropWhile isGrouped with
  | '.' :: r => isGroup whole && isExponent (r.dropWhile isGrouped)
  | _ => false

/-- The form of a fraction without a whole part. -/
def isBareFraction (cs : List Char) : Bool :=
  match cs with
  | '.' :: r => isGroup (r.takeWhile isGrouped) && isExponent (r.dropWhile isGrouped)
  | _ => false

/-- The form of a fraction in base sixty. -/
def isSexagesimalReal (cs : List Char) : Bool :=
  let fraction := (cs.dropWhile (· ≠ '.')).drop 1
  cs.contains '.' && fraction.all isGrouped &&
    match partsAt ':' (cs.takeWhile (· ≠ '.')) with
    | first :: p :: ps => isGroup first && (p :: ps).all isSixtieth
    | _ => false

/-- The form of a floating-point number. -/
def isReal (cs : List Char) : Bool :=
  let u := unsigned cs
  isDecimalReal u || isBareFraction cs || isSexagesimalReal u
    || (spellings "inf").any (fun w => u = '.' :: w)
    || [".nan", ".NaN", ".NAN"].any (fun w => cs = w.toList)

/-- The form of an integer. -/
def isInteger (cs : List Char) : Bool :=
  match unsigned cs with
  | '0' :: 'b' :: ds => !ds.isEmpty && ds.all fun c => c = '0' || c = '1' || c = '_'
  | '0' :: 'x' :: ds => !ds.isEmpty && ds.all fun c => (isGrouped c || ('a' ≤ c && c ≤ 'f')
      || ('A' ≤ c && c ≤ 'F'))
  | '0' :: ds => ds.all fun c => ('0' ≤ c && c ≤ '7') || c = '_'
  | u =>
    match partsAt ':' u with
    | first :: ps => isGroup first && ps.all isSixtieth
    | [] => false

/-- The characters of a form: `9` stands for a digit, everything else for itself. -/
def fits : List Char → List Char → Option (List Char)
  | [], cs => some cs
  | '9' :: fs, c :: cs => if isDecimal c then fits fs cs else none
  | f :: fs, c :: cs => if f = c then fits fs cs else none
  | _ :: _, [] => none

/-- One or two digits, and what follows. -/
def shortNumber? (cs : List Char) : Option (Nat × List Char) :=
  match cs with
  | a :: b :: r =>
    if isDecimal a then
      if isDecimal b then some (10 * (a.toNat - 48) + (b.toNat - 48), r)
      else some (a.toNat - 48, b :: r)
    else none
  | [a] => if isDecimal a then some (a.toNat - 48, []) else none
  | [] => none

/-- Two digits, and what follows. -/
def twoDigits? (cs : List Char) : Option (Nat × List Char) :=
  match cs with
  | a :: b :: r =>
    if isDecimal a && isDecimal b then some (10 * (a.toNat - 48) + (b.toNat - 48), r) else none
  | _ => none

/-- What follows a character. -/
def after? (c : Char) (cs : List Char) : Option (List Char) :=
  match cs with
  | d :: r => if d = c then some r else none
  | [] => none

/-- A date and, where given, a time of the day and its distance from universal time in seconds. -/
structure Moment where
  year : Nat
  month : Nat
  day : Nat
  time : Option (Nat × Nat × Nat) := none
  offset : Option Int := none
  deriving DecidableEq, Repr

/-- The distance from universal time at the end of a date; nothing, `Z`, or a signed time. -/
def offset? (cs : List Char) : Option (Option Int) :=
  match cs.dropWhile isGap with
  | [] => if cs = [] then some none else none
  | 'Z' :: r => if r = [] then some (some 0) else none
  | sign :: r =>
    if sign = '+' || sign = '-' then do
      let (hours, r) ← shortNumber? r
      let minutes ← match r with
        | [] => some 0
        | ':' :: r => do
          let (m, r) ← twoDigits? r
          if r = [] then some m else none
        | _ => none
      let seconds : Int := 3600 * hours + 60 * minutes
      some (some (if sign = '-' then -seconds else seconds))
    else none

/-- The time of a date, and what follows. -/
def time? (cs : List Char) : Option ((Nat × Nat × Nat) × List Char) := do
  let (hour, cs) ← shortNumber? cs
  let cs ← after? ':' cs
  let (minute, cs) ← twoDigits? cs
  let cs ← after? ':' cs
  let (second, cs) ← twoDigits? cs
  match cs with
  | '.' :: r => some ((hour, minute, second), r.dropWhile isDecimal)
  | r => some ((hour, minute, second), r)

/-- What stands between a date and its time: a `T`, or spaces and tabs. -/
def afterDate? (cs : List Char) : Option (List Char) :=
  match cs with
  | c :: r =>
    if c = 'T' || c = 't' then some r
    else if isGap c then some (r.dropWhile isGap)
    else none
  | [] => none

/-- The moment that a text writes. -/
def moment? (cs : List Char) : Option Moment := do
  let rest ← fits "9999-".toList cs
  let year := (cs.take 4).foldl (fun n c => 10 * n + (c.toNat - 48)) 0
  let (month, rest) ← shortNumber? rest
  let rest ← after? '-' rest
  let (day, rest) ← shortNumber? rest
  if rest = [] then some ⟨year, month, day, none, none⟩
  else
    let rest ← afterDate? rest
    let (time, rest) ← time? rest
    let offset ← offset? rest
    some ⟨year, month, day, some time, offset⟩

/-- The form of a moment; a date alone has two digits for the month and for the day. -/
def isMoment (cs : List Char) : Bool :=
  match moment? cs with
  | none => false
  | some m => m.time.isSome || fits "9999-99-99".toList cs = some []

/-- A text without a line feed at its end, which the forms leave out of account. -/
def withoutFeed (cs : List Char) : List Char := if cs.getLast? = some '\n' then cs.dropLast else cs

/-- The type of an untagged plain scalar. -/
def ofText (cs : List Char) : Tag :=
  let u := withoutFeed cs
  if cs = [] then .null
  else if u = [] then .text
  else if isFlag u then .flag
  else if isReal u then .real
  else if isInteger u then .integer
  else if u = ['<', '<'] then .merge
  else if isNull u then .null
  else if isMoment u then .moment
  else if u = ['='] then .default
  else if u = ['!'] || u = ['&'] || u = ['*'] then .unknown
  else .text

/-- The type of an untagged scalar whose text may hold halves, which no form but text does. -/
def ofPoints (ps : List Text.Point) : Tag :=
  match Text.Point.chars? ps with
  | some cs => ofText cs
  | none => .text

end Tag

end SheetBuild.Yaml
