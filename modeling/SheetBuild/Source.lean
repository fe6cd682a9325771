import SheetBuild.Digest.Sha256
import SheetBuild.Path.Logical
import SheetBuild.Record
set_option autoImplicit false

/-!
# Source files

A stylesheet of the project: its logical path, its bytes, the digest that names them, the build
target it belongs to, and whether it may be an entry.
-/

namespace SheetBuild

open SheetBuild.Json (Value)
open SheetBuild.Record (Raw)

/-- A stylesheet of the project. -/
structure SourceFile where
  path : String
  content : Bytes
  contentHash : String
  /-- the build target; a file without one belongs to every target -/
  target : Option String := none
  /-- false for a file that is only ever imported -/
  entryCandidate : Bool := true
  deriving DecidableEq, Repr

/-- The digest that names a content. -/
def contentHash (content : Bytes) : String := Digest.sha256Hex content

namespace SourceFile

/-- Whether a value counts as absent where a digest is asked for. -/
def isAbsent : Option Raw → Bool
  | none => true
  | some (.bytes b) => b.isEmpty
  | some (.value v) =>
    match v with
    | .null => true
    | .bool b => !b
    | .int i => i = 0
    | .real (.finite _ m _) => m = 0
    | .real _ => false
    | .text s => s = ""
    | .broken _ => false
    | .array vs => vs.isEmpty
    | .object fs => fs.isEmpty
    | .torn fs => fs.isEmpty

/-- The digest as given.  Where none is given it is computed from a content that is given as bytes,
and left empty for a content given as text. -/
def hashField (fields : Record.Fields) : Record.Checked String :=
  match isAbsent (Record.lookup fields "content_hash"), Record.lookup fields "content" with
  | true, some (.bytes b) => .ok (SheetBuild.contentHash b)
  | _, _ => Record.defaulted fields "content_hash" "" Record.name

/-- The path in its canonical form. -/
def pathField (fields : Record.Fields) : Record.Checked String :=
  (Record.required fields "path" Record.name).bind fun p =>
    match Path.normalize p with
    | .ok q => .ok q
    | .error e => .error [⟨"path", .refused e.message⟩]

/-- Builds a source file from its fields. -/
def ofFields (fields : Record.Fields) : Record.Checked SourceFile :=
  (Record.both (pathField fields)
    (Record.both (Record.required fields "content" Record.bytes)
      (Record.both (hashField fields)
        (Record.both (Record.optional fields "target" Record.name)
          (Record.defaulted fields "is_entry_candidate" true Record.flag))))).map
    fun (path, content, hash, target, candidate) => ⟨path, content, hash, target, candidate⟩

/-- A source file with the digest of its content. -/
def ofContent (path : String) (content : Bytes) (target : Option String) (candidate : Bool) :
    Except Path.PathError SourceFile :=
  (Path.normalize path).map fun p =>
    ⟨p, content, SheetBuild.contentHash content, target, candidate⟩

/-- Whether the file is only ever imported, by the mark on its name. -/
def isPartial (f : SourceFile) : Bool := Path.isPartial f.path.toList

/-- Whether the file is in the indented spelling. -/
def isIndented (f : SourceFile) : Bool := Path.isIndented f.path.toList

/-- The directory of the file. -/
def directory (f : SourceFile) : String := String.ofList (Path.directory f.path.toList)

/-- The text of the file; bytes that are not UTF-8 show as replacement characters. -/
def text (f : SourceFile) : List Char := Text.Utf8.decodeLossy f.content

/-- Whether the file takes part in a build for a target; `none` is a build for every target. -/
def isVisibleTo (f : SourceFile) (target : Option String) : Bool :=
  match f.target, target with
  | some t, some t' => t = t'
  | _, _ => true

/-- Whether the file compiles on its own for a target. -/
def isEntryFor (f : SourceFile) (target : Option String) : Bool :=
  f.entryCandidate && !f.isPartial && f.isVisibleTo target

end SourceFile

end SheetBuild
