import SheetBuild.Number.Integer
import SheetBuild.Text.Loose
set_option autoImplicit false

/-!
# Faults of YAML documents

Most faults make a text no YAML document at all.  The others are in scalars that have the form of a
number, a flag or a date without being one.
-/

namespace SheetBuild.Yaml

/-- A part of a date or a time that is out of its range. -/
inductive MomentPart where
  | year (y : Nat)
  | month
  | day
  | hour
  | minute
  | second
  /-- the distance from universal time, in seconds; it has to be below one day -/
  | offset (seconds : Int)
  deriving DecidableEq, Repr

/-- What is wrong with a text. -/
inductive Fault where
  /-- the text is no document -/
  | malformed
  /-- an escape for a character that there is not -/
  | noCharacter
  /-- an escape for a character with a number beyond 31 bits -/
  | hugeCharacter
  /-- no integer of this base -/
  | notInteger (base : Nat) (text : Text.Loose)
  /-- an integer of more digits than are read -/
  | longInteger (digits : Nat)
  /-- no floating-point number -/
  | notReal (text : Text.Loose)
  /-- a number in base sixty beyond the range of floating-point numbers -/
  | hugeReal
  /-- nothing where a number is announced -/
  | noNumber
  /-- a word that is no flag where a flag is announced -/
  | notFlag (text : Text.Loose)
  /-- no date where one is announced -/
  | notMoment
  /-- a mapping with a default value where a date is announced -/
  | momentOfMapping
  | outOfRange (part : MomentPart)
  deriving DecidableEq, Repr

/-- A length of time, as days and seconds of the day. -/
def durationText (seconds : Int) : String :=
  let days := seconds.fdiv 86400
  let rest := seconds.fmod 86400
  "datetime.timedelta(days=" ++ toString days
    ++ (if rest = 0 then ")" else ", seconds=" ++ toString rest ++ ")")

/-- The wording of a part that is out of range. -/
def MomentPart.message : MomentPart → String
  | .year y => "year " ++ toString y ++ " is out of range"
  | .month => "month must be in 1..12"
  | .day => "day is out of range for month"
  | .hour => "hour must be in 0..23"
  | .minute => "minute must be in 0..59"
  | .second => "second must be in 0..59"
  | .offset s =>
    "offset must be a timedelta strictly between -timedelta(hours=24) and timedelta(hours=24), not "
      ++ durationText s ++ "."

/-- The most characters of a quoted text that the message on an integer shows. -/
def shownLength : Nat := 200

/-- The wording of a fault. -/
def Fault.message : Fault → String
  | .malformed => "Invalid YAML"
  | .noCharacter => "chr() arg not in range(0x110000)"
  | .hugeCharacter => "Python int too large to convert to C int"
  | .notInteger base text =>
    "invalid literal for int() with base " ++ toString base ++ ": "
      ++ String.ofList (text.quoted.take shownLength)
  | .longInteger digits => Number.Integer.limitMessage digits
  | .notReal text => "could not convert string to float: " ++ String.ofList text.quoted
  | .hugeReal => "int too large to convert to float"
  | .noNumber => "string index out of range"
  | .notFlag text => String.ofList text.quoted
  | .notMoment => "'NoneType' object has no attribute 'groupdict'"
  | .momentOfMapping => "expected string or bytes-like object, got 'list'"
  | .outOfRange part => part.message

end SheetBuild.Yaml
