import SheetBuild.Json.Value
import SheetBuild.Number.Integer
import SheetBuild.Text.Utf8
set_option autoImplicit false

/-!
# Records with checked fields

The project's values are built from named fields of loose form: an integer may be written as text, a
flag as a word.  A reader converts one field or says what is wrong with it, and a record reports the
faults of all its fields in the order in which it declares them.
-/

namespace SheetBuild.Record

open SheetBuild.Json (Value)
open SheetBuild.Number (Binary64)
open SheetBuild.Text (Loose)

/-- The value of a field: a JSON value, or bytes as such. -/
inductive Raw where
  | value (v : Value)
  | bytes (b : Bytes)

/-- The named fields that a record is built from. -/
abbrev Fields : Type := List (String × Raw)

/-- What is wrong with a field. -/
inductive Fault where
  | missing
  | notText
  /-- a text with halves of surrogate pairs in it, where something else is read from the text -/
  | brokenText
  | notBytes
  | notList
  | notInteger
  | notDecimal
  | fractional
  | notFinite
  | tooLarge
  | notFlag
  | unreadFlag
  | notOutputMode
  | notKind
  /-- the record's own rule refuses the value -/
  | refused (reason : String)
  deriving DecidableEq, Repr

/-- The wording of a fault. -/
def Fault.message : Fault → String
  | .missing => "Field required"
  | .notText => "Input should be a valid string"
  | .brokenText =>
    "Input should be a valid string, unable to parse raw data as a unicode string"
  | .notBytes => "Input should be a valid bytes"
  | .notList => "Input should be a valid tuple"
  | .notInteger => "Input should be a valid integer"
  | .notDecimal => "Input should be a valid integer, unable to parse string as an integer"
  | .fractional => "Input should be a valid integer, got a number with a fractional part"
  | .notFinite => "Input should be a finite number"
  | .tooLarge => "Unable to parse input string as an integer, exceeded maximum size"
  | .notFlag => "Input should be a valid boolean"
  | .unreadFlag => "Input should be a valid boolean, unable to interpret input"
  | .notOutputMode => "Input should be 'compact' or 'expanded'"
  | .notKind => "Input should be 'resolution', 'cycle', 'compiler' or 'cancelled'"
  | .refused reason => "Value error, " ++ reason

/-- A fault and the field it is in; the location is empty for a rule about the whole record. -/
structure FieldError where
  location : String
  fault : Fault
  deriving DecidableEq, Repr

/-- A record, or the faults of its fields. -/
abbrev Checked (α : Type) : Type := Except (List FieldError) α

/-- The value of a field that is given. -/
def lookup (fields : Fields) (name : String) : Option Raw :=
  (fields.find? fun f => f.1 = name).map (·.2)

/-! ## Readers of one value -/

/-- Text is accepted only as text, whole or broken. -/
def text : Raw → Except Fault Loose
  | .value (.text s) => .ok (.whole s)
  | .value (.broken t) => .ok (.broken t)
  | _ => .error .notText

/-- A name is a whole text.  Paths, targets, digests and include paths are names: they are compared,
hashed and looked up as strings, so records whose names would be broken are left out here. -/
def name : Raw → Except Fault String
  | .value (.text s) => .ok s
  | .value (.broken _) => .error .brokenText
  | _ => .error .notText

/-- Bytes are accepted as such, or as text in UTF-8. -/
def bytes : Raw → Except Fault Bytes
  | .bytes b => .ok b
  | .value (.text s) => .ok (Text.Utf8.encode s.toList)
  | .value (.broken _) => .error .brokenText
  | _ => .error .notBytes

/-- The bound on integers that come from floating-point numbers. -/
def floatBound : Int := 0x8000000000000000

/-- The integer that a floating-point number is. -/
def integerOfReal (x : Binary64) : Except Fault Int :=
  match x with
  | .finite .. =>
    match x.toInt? with
    | none => .error .fractional
    | some i => if -floatBound < i ∧ i < floatBound then .ok i else .error .tooLarge
  | _ => .error .notFinite

/-- An integer is accepted as such, as a flag, as a whole floating-point number and as text. -/
def integer : Raw → Except Fault Int
  | .value (.int i) => .ok i
  | .value (.bool b) => .ok (if b then 1 else 0)
  | .value (.real x) => integerOfReal x
  | .value (.text s) =>
    match Number.Integer.ofText s.toList with
    | .ok i => .ok i
    | .error .notDecimal => .error .notDecimal
    | .error .tooLong => .error .tooLarge
  | .value (.broken _) => .error .brokenText
  | _ => .error .notInteger

/-- The flag that an integer is. -/
def flagOfInt (i : Int) : Except Fault Bool :=
  if i = 0 then .ok false
  else if i = 1 then .ok true
  else if -floatBound ≤ i ∧ i < floatBound then .error .unreadFlag
  else .error .notFlag

/-- The words for a flag, in lower case. -/
def flagWords : List (String × Bool) :=
  [("0", false), ("off", false), ("f", false), ("false", false), ("n", false), ("no", false),
    ("1", true), ("on", true), ("t", true), ("true", true), ("y", true), ("yes", true)]

/-- A flag is accepted as such, as the number 0 or 1, and as a word in any letter case. -/
def flag : Raw → Except Fault Bool
  | .value (.bool b) => .ok b
  | .value (.int i) => flagOfInt i
  | .value (.real x) =>
    match integerOfReal x with
    | .ok i => flagOfInt i
    | .error _ => .error .notFlag
  | .value (.text s) =>
    match flagWords.lookup (String.ofList (s.toList.map Char.toLower)) with
    | some b => .ok b
    | none => .error .unreadFlag
  | .value (.broken _) => .error .brokenText
  | _ => .error .notFlag

/-- A value that may be null. -/
def nullable {α : Type} (read : Raw → Except Fault α) : Raw → Except Fault (Option α)
  | .value .null => .ok none
  | r => (read r).map some

/-! ## Fields -/

/-- Puts a reader's fault at a location. -/
def located {α : Type} (location : String) : Except Fault α → Checked α
  | .ok a => .ok a
  | .error f => .error [⟨location, f⟩]

/-- A field that has to be given. -/
def required {α : Type} (fields : Fields) (name : String) (read : Raw → Except Fault α) :
    Checked α :=
  match lookup fields name with
  | none => .error [⟨name, .missing⟩]
  | some r => located name (read r)

/-- A field that takes a default where it is not given. -/
def defaulted {α : Type} (fields : Fields) (name : String) (default : α)
    (read : Raw → Except Fault α) : Checked α :=
  match lookup fields name with
  | none => .ok default
  | some r => located name (read r)

/-- A field that is null where it is not given. -/
def optional {α : Type} (fields : Fields) (name : String) (read : Raw → Except Fault α) :
    Checked (Option α) :=
  defaulted fields name none (nullable read)

/-- Both values, or the faults of both. -/
def both {α β : Type} : Checked α → Checked β → Checked (α × β)
  | .ok a, .ok b => .ok (a, b)
  | .error e, .ok _ => .error e
  | .ok _, .error e => .error e
  | .error e, .error e' => .error (e ++ e')

/-- The items of a list, each fault at the number of its item. -/
def items {α : Type} (name : String) (read : Raw → Except Fault α) :
    Nat → List Value → Checked (List α)
  | _, [] => .ok []
  | i, v :: vs =>
    (both (located (name ++ "." ++ toString i) (read (.value v))) (items name read (i + 1) vs)).map
      fun p => p.1 :: p.2

/-- A field that holds a list, which is empty where it is not given. -/
def listOf {α : Type} (fields : Fields) (name : String) (read : Raw → Except Fault α) :
    Checked (List α) :=
  match lookup fields name with
  | none => .ok []
  | some (.value (.array vs)) => items name read 0 vs
  | some _ => .error [⟨name, .notList⟩]

theorem both_eq_ok {α β : Type} {x : Checked α} {y : Checked β} {p : α × β} :
    both x y = .ok p ↔ x = .ok p.1 ∧ y = .ok p.2 := by
  obtain ⟨a, b⟩ := p
  cases x <;> cases y <;> simp [both]

end SheetBuild.Record
