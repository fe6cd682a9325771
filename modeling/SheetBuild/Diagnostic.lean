import SheetBuild.Record
set_option autoImplicit false

/-!
# Diagnostics

A failure of one compilation unit: its kind, its message, and where known the file and the place in
it.
-/

namespace SheetBuild

open SheetBuild.Json (Value)
open SheetBuild.Text (Loose)

/-- The kind of a failure. -/
inductive DiagnosticKind where
  | resolution
  | cycle
  | compiler
  | cancelled
  deriving DecidableEq, Repr

namespace DiagnosticKind

/-- The word for a kind. -/
def word : DiagnosticKind → String
  | .resolution => "resolution"
  | .cycle => "cycle"
  | .compiler => "compiler"
  | .cancelled => "cancelled"

/-- The kind that a word names. -/
def ofWord? : String → Option DiagnosticKind
  | "resolution" => some .resolution
  | "cycle" => some .cycle
  | "compiler" => some .compiler
  | "cancelled" => some .cancelled
  | _ => none

@[simp] theorem ofWord?_word (k : DiagnosticKind) : ofWord? k.word = some k := by
  cases k <;> rfl

/-- Reads a kind from a field. -/
def ofRaw : Record.Raw → Except Record.Fault DiagnosticKind
  | .value (.text s) =>
    match ofWord? s with
    | some k => .ok k
    | none => .error .notKind
  | _ => .error .notKind

end DiagnosticKind

/-- A failure of one compilation unit. -/
structure Diagnostic where
  kind : DiagnosticKind
  message : Loose
  sourceFile : Option Loose := none
  line : Option Int := none
  column : Option Int := none
  deriving DecidableEq, Repr

namespace Diagnostic

/-- Builds a diagnostic from its fields. -/
def ofFields (fields : Record.Fields) : Record.Checked Diagnostic :=
  (Record.both (Record.required fields "kind" DiagnosticKind.ofRaw)
    (Record.both (Record.required fields "message" Record.text)
      (Record.both (Record.optional fields "source_file" Record.text)
        (Record.both (Record.optional fields "line" Record.integer)
          (Record.optional fields "column" Record.integer))))).map
    fun (kind, message, sourceFile, line, column) => ⟨kind, message, sourceFile, line, column⟩

/-- The place of a diagnostic: file, line and column as far as they are known; a column counts only
after a line. -/
def location (d : Diagnostic) : Loose :=
  let file := d.sourceFile.getD ""
  match d.line with
  | none => file
  | some l =>
    match d.column with
    | none => file ++ (":" ++ toString l : String)
    | some c => file ++ (":" ++ toString l ++ ":" ++ toString c : String)

/-- The message behind its place. -/
def format (d : Diagnostic) : Loose :=
  if d.location = "" then d.message else d.location ++ (": " : String) ++ d.message

/-- A diagnostic as a JSON object. -/
def toJson (d : Diagnostic) : Value :=
  .object [("kind", .text d.kind.word), ("message", .ofLoose d.message),
    ("source_file", .ofLoose? d.sourceFile), ("line", .ofInt? d.line), ("column", .ofInt? d.column)]

end Diagnostic

end SheetBuild
