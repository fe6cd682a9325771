import SheetBuild.Build.Unit
import SheetBuild.Disk.Tree
import SheetBuild.Path.Logical
set_option autoImplicit false

/-!
# Artifacts

What a build hands over for each entry: the stylesheet with its output path, source map and watched
dependencies, or the failure.  `writeAll` writes the stylesheets and their maps below a directory.
-/

namespace SheetBuild.Build

open SheetBuild.Disk (FileError Place Tree)
open SheetBuild.Json (Value)
open SheetBuild.Text (Loose Unencodable)

/-- What is handed over for an entry. -/
inductive Artifact where
  | compiled (path outputPath : String) (text : Loose) (sourceMap : Option Loose)
      (watched : List Loose)
  | failed (path : String) (diagnostic : Diagnostic)
  deriving DecidableEq, Repr

/-- Why there is no artifact. -/
inductive ArtifactError where
  /-- a file that is only imported has no stylesheet of its own -/
  | onlyImported (path : String)
  deriving DecidableEq, Repr

/-- The wording of an artifact error. -/
def ArtifactError.message : ArtifactError → String
  | .onlyImported p => "Partial '" ++ p ++ "' cannot produce an artifact"

/-- Why an artifact is not written. -/
inductive WriteError where
  | file (e : FileError)
  /-- the text cannot be encoded -/
  | broken (e : Unencodable)
  deriving DecidableEq, Repr

namespace Artifact

/-- The artifact of a unit. -/
def ofUnit (u : UnitResult) : Except ArtifactError Artifact :=
  if Path.isPartial u.path.toList then .error (.onlyImported u.path)
  else match u.entry.outcome with
    | .failed d => .ok (.failed u.path d)
    | .css text =>
      .ok (.compiled u.path (String.ofList (Path.outputPath u.path.toList)) text u.entry.sourceMap
        u.entry.dependencies)

/-- The artifacts of a batch, in the order of its results. -/
def ofBatch (r : BatchResult) : Except ArtifactError (List Artifact) := r.results.mapM ofUnit

/-- Whether the artifact is a stylesheet. -/
def isCompiled : Artifact → Bool
  | .compiled .. => true
  | .failed .. => false

/-- An artifact as a JSON object. -/
def toJson : Artifact → Value
  | .compiled path outputPath text sourceMap watched =>
    .object [("kind", .text "compiled"), ("path", .text path), ("output_path", .text outputPath),
      ("compiled_text", .ofLoose text), ("source_map", .ofLoose? sourceMap),
      ("watched_dependency_paths", .array (watched.map .ofLoose))]
  | .failed path d =>
    .object [("kind", .text "failed"), ("path", .text path), ("diagnostic", d.toJson)]

/-- What a source map is called beside its stylesheet. -/
def mapName (name : String) : String := name ++ ".map"

/-- The files that an artifact comes to below a directory. -/
def files (out : Place) : Artifact → List (Place × Loose)
  | .compiled _ outputPath text sourceMap _ =>
    let place := Place.join out outputPath
    (place, text) ::
      match sourceMap with
      | none => []
      | some m => [(Place.mapLast mapName place, m)]
  | .failed .. => []

/-- Writes files one after the other; the first that cannot be written ends it, and what was written
before stays.  A file is there, and empty, before its text is encoded. -/
def writeFiles (t : Tree) : List (Place × Loose) → Tree × Option WriteError
  | [] => (t, none)
  | (place, text) :: rest =>
    match text.encode with
    | .ok bytes =>
      match t.write place bytes with
      | .error e => (t, some (.file e))
      | .ok t => writeFiles t rest
    | .error broken =>
      match t.write place [] with
      | .error e => (t, some (.file e))
      | .ok t => (t, some (.broken broken))

/-- Writes an artifact below a directory, which is made with the directories on the way. -/
def write (out : Place) (t : Tree) (a : Artifact) : Tree × Option WriteError :=
  match a.files out with
  | [] => (t, none)
  | (place, text) :: rest =>
    match t.makeDirectories place.dropLast with
    | (t, some e) => (t, some (.file e))
    | (t, none) => writeFiles t ((place, text) :: rest)

/-- Writes artifacts one after the other, up to the first that cannot be written. -/
def writeAll (out : Place) (t : Tree) : List Artifact → Tree × Option WriteError
  | [] => (t, none)
  | a :: as =>
    match a.write out t with
    | (t, some e) => (t, some e)
    | (t, none) => writeAll out t as

/-- The places that `writeAll` writes to, in order. -/
def written (out : Place) (as : List Artifact) : List Place :=
  as.flatMap fun a => (a.files out).map (·.1)

end Artifact

end SheetBuild.Build
