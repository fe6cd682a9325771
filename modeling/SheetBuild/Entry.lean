import SheetBuild.Diagnostic
set_option autoImplicit false

/-!
# Entries

The outcome of compiling one unit, as it is stored: the stylesheet or the failure (never both, never
neither), the source map where there is one, and the files that the unit depends on.
-/

namespace SheetBuild

open SheetBuild.Json (Value)
open SheetBuild.Text (Loose)

/-- What a compilation came to. -/
inductive Outcome where
  | css (text : Loose)
  | failed (diagnostic : Diagnostic)
  deriving DecidableEq, Repr

/-- The stored outcome of a compilation. -/
structure Entry where
  outcome : Outcome
  sourceMap : Option Loose := none
  dependencies : List Loose := []
  deriving DecidableEq, Repr

namespace Entry

/-- The stylesheet of a compilation that succeeded. -/
def css? (e : Entry) : Option Loose :=
  match e.outcome with
  | .css text => some text
  | .failed _ => none

/-- The failure of a compilation that did not succeed. -/
def diagnostic? (e : Entry) : Option Diagnostic :=
  match e.outcome with
  | .css _ => none
  | .failed d => some d

/-- Whether the compilation succeeded. -/
def succeeded (e : Entry) : Bool := e.diagnostic?.isNone

/-- An entry with exactly one of a stylesheet and a failure. -/
def ofParts (css sourceMap : Option Loose) (dependencies : List Loose)
    (diagnostic : Option Diagnostic) : Record.Checked Entry :=
  match css, diagnostic with
  | some text, none => .ok ⟨.css text, sourceMap, dependencies⟩
  | none, some d => .ok ⟨.failed d, sourceMap, dependencies⟩
  | _, _ =>
    .error [⟨"", .refused "A cache entry needs exactly one of css and diagnostic"⟩]

/-- Builds an entry from its fields and a diagnostic that is built already. -/
def ofFields (fields : Record.Fields) (diagnostic : Option Diagnostic) : Record.Checked Entry :=
  (Record.both (Record.optional fields "css" Record.text)
    (Record.both (Record.optional fields "source_map" Record.text)
      (Record.listOf fields "dependencies" Record.text))).bind
    fun (css, sourceMap, dependencies) => ofParts css sourceMap dependencies diagnostic

/-- An entry as a JSON object. -/
def toJson (e : Entry) : Value :=
  .object [("css", .ofLoose? e.css?), ("source_map", .ofLoose? e.sourceMap),
    ("dependencies", .array (e.dependencies.map .ofLoose)),
    ("diagnostic", (e.diagnostic?.map Diagnostic.toJson).getD .null)]

/-- Names the file of a failure that is stored without one. -/
def ascribe (e : Entry) (path : String) : Entry :=
  match e.outcome with
  | .failed d =>
    if d.sourceFile.isNone then
      { e with outcome := .failed { d with sourceFile := some (.whole path) } }
    else e
  | .css _ => e

/-- An entry has exactly one of a stylesheet and a failure. -/
theorem css?_isSome_eq_not_diagnostic?_isSome (e : Entry) :
    e.css?.isSome = !e.diagnostic?.isSome := by
  cases h : e.outcome <;> simp [css?, diagnostic?, h]

@[simp] theorem dependencies_ascribe (e : Entry) (path : String) :
    (e.ascribe path).dependencies = e.dependencies := by
  unfold ascribe
  split
  · split <;> rfl
  · rfl

end Entry

end SheetBuild
