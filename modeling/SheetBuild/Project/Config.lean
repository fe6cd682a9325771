import SheetBuild.Disk.Naming
import SheetBuild.Disk.Tree
import SheetBuild.Options
import SheetBuild.Text.Newline
import SheetBuild.Yaml.Value
set_option autoImplicit false

/-!
# Project configuration

The configuration of a project is a YAML mapping in a file at its root; an older name of the file is
tried after the present one, and without a file the defaults hold.  The fields are checked in a fixed
order, and the first that is wrong is reported.

The texts of a configuration may hold halves of surrogate pairs, which an escape in its file can write.
An include path with halves is spelled in characters where imports are searched for, and no key can be
made with it.
-/

namespace SheetBuild.Project

open SheetBuild.Disk (FileError Place Tree)
open SheetBuild.Text (Loose Unencodable)
open SheetBuild.Yaml (Document)

/-- The configuration of a project. -/
structure Config where
  includePaths : List Loose := []
  outputMode : OutputMode := .expanded
  sourceMaps : Bool := false
  /-- where compiled entries are persisted -/
  cacheDirectory : Loose := ".stylebatch-cache"
  /-- where stylesheets are written to -/
  outputDirectory : Loose := ".stylebatch-out"
  /-- how many units may be compiled at a time -/
  workers : Option Nat := none
  /-- patterns of files that are only ever imported -/
  importOnly : List Loose := []
  deriving DecidableEq, Repr

/-- The names of the configuration file, in the order in which they are tried. -/
def configNames : List String := [".stylebatch.yaml", "scss-config.json"]

/-- A field of the configuration. -/
inductive Field where
  | includePaths
  | includePathsAlias
  | outputMode
  | sourceMaps
  | cacheDirectory
  | outputDirectory
  | workers
  | importOnly
  deriving DecidableEq, Repr

/-- The name of a field. -/
def Field.name : Field → String
  | .includePaths => "include-paths"
  | .includePathsAlias => "includePaths"
  | .outputMode => "output-mode"
  | .sourceMaps => "source-maps"
  | .cacheDirectory => "cache-directory"
  | .outputDirectory => "output-directory"
  | .workers => "workers"
  | .importOnly => "import-only"

/-- What is wrong with a configuration. -/
inductive ConfigProblem where
  | notYaml
  | notMapping
  | twoIncludeFields
  | notText (field : Field)
  | notTexts (field : Field)
  | unknownMode (got : Loose)
  | notFlag (field : Field)
  | notPositive (field : Field)
  deriving DecidableEq, Repr

/-- The wording of a problem in the file that a label names. -/
def ConfigProblem.message (label : String) : ConfigProblem → String
  | .notYaml => "Invalid YAML in " ++ label
  | .notMapping => label ++ ": configuration must be a mapping"
  | .twoIncludeFields => label ++ ": specify either 'include-paths' or 'includePaths', not both"
  | .notText f => label ++ ": '" ++ f.name ++ "' must be a string"
  | .notTexts f => label ++ ": '" ++ f.name ++ "' must be a list of strings"
  | .unknownMode got =>
    label ++ ": '" ++ Field.outputMode.name ++ "' must be one of compact, expanded, got '" ++ got.shown
      ++ "'"
  | .notFlag f => label ++ ": '" ++ f.name ++ "' must be a boolean"
  | .notPositive f => label ++ ": '" ++ f.name ++ "' must be a positive integer"

/-- Why a project has no configuration. -/
inductive ConfigError where
  | problem (label : String) (p : ConfigProblem)
  | notFound (path : String)
  | unreadable (path : String) (e : FileError)
  /-- the disk can hold no file under its path -/
  | unnameable
  /-- a scalar of the document is not what it is announced to be -/
  | fault (f : Yaml.Fault)
  /-- the file is not in UTF-8 -/
  | notUtf8
  deriving DecidableEq, Repr

/-- The wording of a configuration error. -/
def ConfigError.message : ConfigError → String
  | .problem label p => p.message label
  | .notFound path => "Config file not found: " ++ path
  | .unreadable path e =>
    "Cannot read config file: " ++ e.message ++ ": "
      ++ String.ofList (Text.Quoted.encode path.toList)
  | .unnameable => Disk.Place.unnameableMessage
  | .fault f => f.message
  | .notUtf8 => "Config file is not valid UTF-8"

/-! ## Reading the fields -/

/-- A value, or the problem with it. -/
abbrev Checked (α : Type) : Type := Except ConfigProblem α

/-- Text as it is. -/
def readText (f : Field) : Yaml.Value → Checked Loose
  | .text s => .ok s
  | _ => .error (.notText f)

/-- The texts of items that are all texts. -/
def textsOf? (items : List Yaml.Value) : Option (List Loose) :=
  items.mapM fun
    | .text s => some s
    | _ => none

/-- A list of texts. -/
def readTexts (d : Document) (f : Field) (v : Yaml.Value) : Checked (List Loose) :=
  match (d.items? v).bind textsOf? with
  | some ss => .ok ss
  | none => .error (.notTexts f)

/-- The layout of the output. -/
def readMode (v : Yaml.Value) : Checked OutputMode :=
  (readText .outputMode v).bind fun s =>
    match s with
    | .whole word =>
      match OutputMode.ofWord? word with
      | some m => .ok m
      | none => .error (.unknownMode s)
    | .broken _ => .error (.unknownMode s)

/-- A flag. -/
def readFlag (f : Field) : Yaml.Value → Checked Bool
  | .flag b => .ok b
  | _ => .error (.notFlag f)

/-- A positive number. -/
def readPositive (f : Field) : Yaml.Value → Checked Nat
  | .integer i => if 0 < i then .ok i.toNat else .error (.notPositive f)
  | _ => .error (.notPositive f)

/-- A field that keeps its default where it is not given. -/
def given {α : Type} (entries : List (Yaml.Value × Yaml.Value)) (f : Field) (default : α)
    (read : Yaml.Value → Checked α) : Checked α :=
  match Document.field? entries f.name with
  | none => .ok default
  | some v => read v

/-- The include paths, which have two names. -/
def readIncludePaths (d : Document) (entries : List (Yaml.Value × Yaml.Value)) :
    Checked (List Loose) :=
  match Document.field? entries Field.includePaths.name,
      Document.field? entries Field.includePathsAlias.name with
  | some _, some _ => .error .twoIncludeFields
  | some v, none => readTexts d .includePaths v
  | none, some v => readTexts d .includePathsAlias v
  | none, none => .ok []

namespace Config

/-- The configuration that the entries of a mapping make. -/
def ofEntries (d : Document) (entries : List (Yaml.Value × Yaml.Value)) : Checked Config := do
  let defaults : Config := {}
  let includePaths ← readIncludePaths d entries
  let outputMode ← given entries .outputMode defaults.outputMode readMode
  let sourceMaps ← given entries .sourceMaps defaults.sourceMaps (readFlag .sourceMaps)
  let cacheDirectory ← given entries .cacheDirectory defaults.cacheDirectory
    (readText .cacheDirectory)
  let outputDirectory ← given entries .outputDirectory defaults.outputDirectory
    (readText .outputDirectory)
  let workers ← given entries .workers none fun v => (readPositive .workers v).map some
  let importOnly ← given entries .importOnly [] (readTexts d .importOnly)
  return ⟨includePaths, outputMode, sourceMaps, cacheDirectory, outputDirectory, workers, importOnly⟩

/-- The configuration that a document makes; an empty document makes the default one. -/
def ofDocument (d : Document) : Checked Config :=
  match d.root with
  | .null => .ok {}
  | root =>
    match d.entries? root with
    | some entries => ofEntries d entries
    | none => .error .notMapping

/-- The configuration that a text makes; the label names it in messages. -/
def ofText (label : String) (text : List Char) : Except ConfigError Config :=
  match Document.ofText text with
  | .error .malformed => .error (.problem label .notYaml)
  | .error f => .error (.fault f)
  | .ok d => (ofDocument d).mapError (.problem label)

/-- The configuration in a file. -/
def load (t : Tree) (p : Place) : Except ConfigError Config :=
  match t.read p with
  | .error .notFound => .error (.notFound p.text)
  | .error .unnameable => .error .unnameable
  | .error e => .error (.unreadable p.text e)
  | .ok bytes =>
    match Text.Utf8.decode? bytes with
    | none => .error .notUtf8
    | some cs => ofText p.text (Text.unifyNewlines cs)

/-- The configuration of the project in a directory. -/
def find (t : Tree) (directory : Place) : Except ConfigError Config :=
  match (configNames.map fun n => directory ++ [n]).find? t.contains with
  | some p => load t p
  | none => .ok {}

/-! ## Using a configuration -/

/-- The canonical form of an include path.  Halves are no part of what is changed in it. -/
def canonical (path : Loose) : Except Path.PathError Loose :=
  match Path.normalize path.spelled with
  | .ok q => .ok (path.unspelled q)
  | .error .empty => .error .empty
  | .error (.outside _) => .error (.outside path.shown)

/-- The canonical forms of the include paths; the first path that has none is a fault. -/
def canonicalPaths (c : Config) : Record.Checked (List Loose) :=
  (c.includePaths.mapM canonical).mapError fun e => [⟨"include_paths", .refused e.message⟩]

/-- The compile options of a configuration. -/
def options (c : Config) : Record.Checked CompileOptions :=
  c.canonicalPaths.map fun ps => ⟨ps.map (·.spelled), c.outputMode, c.sourceMaps⟩

/-- What keeps keys from being made with the include paths of a configuration. -/
def keyFault? (c : Config) : Option Unencodable :=
  match c.canonicalPaths with
  | .ok ps => ps.findSome? fun p =>
    match p.encode with
    | .ok _ => none
    | .error e => some e
  | .error _ => none

/-- Whether a directory that the build writes to is named by bytes that halves stand for. -/
def isForeign (c : Config) : Bool := !c.cacheDirectory.isWhole || !c.outputDirectory.isWhole

/-- The path of the directory where entries are persisted, as it is known on disk. -/
def cachePath (c : Config) : String := Place.onDisk c.cacheDirectory

/-- The path of the directory where stylesheets are written, as it is known on disk. -/
def outputPath (c : Config) : String := Place.onDisk c.outputDirectory

end Config

end SheetBuild.Project
