import SheetBuild.Number.Binary64
import SheetBuild.Text.Loose
set_option autoImplicit false

/-!
# JSON values

A JSON value with exact integers apart from binary floating-point numbers, and whole texts apart from
broken ones.  An object is the list of its fields; `field?` finds the value under a name, and `collapse`
keeps one value for each name, the last one written, at the place where the name first stood.  An object
with a broken name stands apart from the others, so that the names of these are strings.
-/

namespace SheetBuild.Json

open SheetBuild.Number (Binary64)
open SheetBuild.Text (Broken Loose Point)

/-- A JSON value. -/
inductive Value where
  | null
  | bool (b : Bool)
  | int (i : Int)
  | real (x : Binary64)
  | text (s : String)
  /-- a text with halves of surrogate pairs in it -/
  | broken (t : Broken)
  | array (items : List Value)
  | object (fields : List (String × Value))
  /-- an object with a broken text among its names, which stand as values here -/
  | torn (fields : List (Value × Value))
  deriving Repr, Inhabited

namespace Value

section Names

variable {α : Type} [DecidableEq α]

/-- Puts a value under a name: in place where the name is there, at the end where it is not. -/
def put (fields : List (α × Value)) (name : α) (v : Value) : List (α × Value) :=
  match fields with
  | [] => [(name, v)]
  | (n, w) :: rest => if n = name then (n, v) :: rest else (n, w) :: put rest name v

/-- One value for each name, the last one given. -/
def collapse (fields : List (α × Value)) : List (α × Value) :=
  fields.foldl (fun acc f => put acc f.1 f.2) []

end Names

/-- The value under a name. -/
def lookup (fields : List (String × Value)) (name : String) : Option Value :=
  (fields.find? fun f => f.1 = name).map (·.2)

/-- The fields whose names are texts. -/
def textFields (fields : List (Value × Value)) : List (String × Value) :=
  fields.filterMap fun f =>
    match f.1 with
    | .text name => some (name, f.2)
    | _ => none

/-- The fields of an object whose names are texts. -/
def fields? : Value → Option (List (String × Value))
  | .object fields => some fields
  | .torn fields => some (textFields fields)
  | _ => none

/-- The value under a name of an object. -/
def field? (v : Value) (name : String) : Option Value := v.fields?.bind (lookup · name)

/-- A text as a value. -/
def ofLoose : Loose → Value
  | .whole s => .text s
  | .broken t => .broken t

/-- An object by its fields, whose names are given by their code points. -/
def ofFields (fields : List (List Point × Value)) : Value :=
  let named := fields.map fun f => (ofLoose (.ofPoints f.1), f.2)
  let whole := textFields named
  if whole.length = named.length then .object whole else .torn named

/-- Text as a value, and null for none. -/
def ofText? (s : Option String) : Value := (s.map Value.text).getD .null

/-- A loose text as a value, and null for none. -/
def ofLoose? (t : Option Loose) : Value := (t.map ofLoose).getD .null

/-- An integer as a value, and null for none. -/
def ofInt? (i : Option Int) : Value := (i.map Value.int).getD .null

mutual

/-- Whether the values that hold no others, in a value and among the names in it, satisfy a
condition. -/
def every (p : Value → Bool) : Value → Bool
  | .array items => everyItem p items
  | .object fields => everyField p fields
  | .torn fields => everyTorn p fields
  | v => p v

/-- Whether the values in the items of an array satisfy a condition. -/
def everyItem (p : Value → Bool) : List Value → Bool
  | [] => true
  | v :: vs => v.every p && everyItem p vs

/-- Whether the values in the fields of an object satisfy a condition. -/
def everyField (p : Value → Bool) : List (String × Value) → Bool
  | [] => true
  | (n, v) :: fs => p (.text n) && v.every p && everyField p fs

/-- Whether the values in fields whose names are values satisfy a condition. -/
def everyTorn (p : Value → Bool) : List (Value × Value) → Bool
  | [] => true
  | (n, v) :: fs => n.every p && v.every p && everyTorn p fs

end

/-! ## Leaves -/

section Leaves

variable {p : Value → Bool}

theorem every_array {vs : List Value} :
    (Value.array vs).every p = true ↔ ∀ v ∈ vs, v.every p = true := by
  rw [every]
  induction vs with
  | nil => simp [everyItem]
  | cons v vs ih => simp [everyItem, ih]

theorem every_object {fs : List (String × Value)} :
    (Value.object fs).every p = true ↔ ∀ f ∈ fs, p (.text f.1) = true ∧ f.2.every p = true := by
  rw [every]
  induction fs with
  | nil => simp [everyField]
  | cons f fs ih => simp [everyField, ih]

theorem every_torn {fs : List (Value × Value)} :
    (Value.torn fs).every p = true ↔ ∀ f ∈ fs, f.1.every p = true ∧ f.2.every p = true := by
  rw [every]
  induction fs with
  | nil => simp [everyTorn]
  | cons f fs ih => simp [everyTorn, ih]

end Leaves

/-! ## Names -/

@[simp] theorem ofLoose_whole (s : String) : ofLoose (.whole s) = .text s := rfl

@[simp] theorem ofLoose_broken (t : Broken) : ofLoose (.broken t) = .broken t := rfl

@[simp] theorem ofLoose_inj {t u : Loose} : ofLoose t = ofLoose u ↔ t = u := by
  cases t <;> cases u <;> simp

@[simp] theorem ofLoose_ne_null (t : Loose) : ofLoose t ≠ .null := by
  cases t <;> simp

@[simp] theorem lookup_nil (name : String) : lookup [] name = none := rfl

@[simp] theorem lookup_cons (n : String) (v : Value) (fields : List (String × Value))
    (name : String) :
    lookup ((n, v) :: fields) name = if n = name then some v else lookup fields name := by
  by_cases h : n = name <;> simp [lookup, h]

end Value

end SheetBuild.Json
