import SheetBuild.Diagnostic
import SheetBuild.Import.Scan
set_option autoImplicit false

/-!
# Import problems

What can be wrong with the imports of a unit: a reference that resolves to nothing, a file whose
imports cannot be read, or imports that lead back to where they came from.
-/

namespace SheetBuild.Import

/-- Why a reference has no file. -/
inductive Cause where
  | notFound
  /-- the imports of the file cannot be read -/
  | unscannable (token : Unclosed)
  deriving DecidableEq, Repr

/-- A reference without a file, and the place where it stands. -/
structure Problem where
  reference : String
  importer : String
  cause : Cause
  line : Option Int := none
  column : Option Int := none
  deriving DecidableEq, Repr

namespace Problem

/-- The wording of a problem. -/
def message (p : Problem) : String :=
  match p.cause with
  | .notFound => "Cannot resolve import '" ++ p.reference ++ "' from '" ++ p.importer ++ "'"
  | .unscannable token => "Cannot scan imports: " ++ ScanError.message ⟨token, 0, 0⟩

/-- The problem of a reference that resolves to nothing. -/
def ofReference (importer : String) (r : Reference) : Problem :=
  ⟨r.target, importer, .notFound, some r.line, some r.column⟩

/-- The problem of a file whose imports cannot be read. -/
def ofScanError (importer : String) (e : ScanError) : Problem :=
  ⟨"", importer, .unscannable e.token, some e.line, some e.column⟩

/-- The diagnostic of a problem: it stands in the file that holds the reference. -/
def diagnostic (p : Problem) : Diagnostic :=
  ⟨.resolution, p.message, some p.importer, p.line, p.column⟩

end Problem

/-- The paths of a circle of imports; the first is repeated at the end. -/
structure Cycle where
  paths : List String
  deriving DecidableEq, Repr

namespace Cycle

/-- The wording of a circle of imports. -/
def message (c : Cycle) : String :=
  "Circular import detected: " ++ String.intercalate " -> " c.paths

/-- The diagnostic of a circle: it stands in its first file. -/
def diagnostic (c : Cycle) : Diagnostic := ⟨.cycle, c.message, c.paths.head?, none, none⟩

end Cycle

/-- Why a file has no closure. -/
inductive ClosureError where
  | problem (p : Problem)
  | cycle (c : Cycle)
  deriving DecidableEq, Repr

namespace ClosureError

/-- The wording of a closure error. -/
def message : ClosureError → String
  | .problem p => p.message
  | .cycle c => c.message

/-- The diagnostic of a closure error. -/
def diagnostic : ClosureError → Diagnostic
  | .problem p => p.diagnostic
  | .cycle c => c.diagnostic

end ClosureError

end SheetBuild.Import
