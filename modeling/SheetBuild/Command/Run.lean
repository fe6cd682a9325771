import SheetBuild.Build.Artifact
import SheetBuild.Build.Batch
import SheetBuild.Command.Arguments
import SheetBuild.Json.Printer
set_option autoImplicit false

/-!
# Carrying out commands

A command works on a site: the tree on disk and the current directory.  `run` gives the ending of a
command together with the site as it is afterwards, so a series of commands is a fold.

Both commands read the configuration of the project first.  `build` compiles the entries, with the
store in the cache directory, and writes the stylesheets below the output directory; `clean` removes
the cache directory.

The names in a tree are texts, so a directory named by bytes that are no text is outside of the tree: a
build that writes there and a clean that removes it are broken off as `Abort.foreign`.
-/

namespace SheetBuild.Command

open SheetBuild.Build (Artifact ArtifactError BatchResult)
open SheetBuild.Cache (Store Warning)
open SheetBuild.Compile (Engine)
open SheetBuild.Disk (FileError Place Tree)
open SheetBuild.Project (Config ConfigError SourcesError)

/-- What a command works on. -/
structure Site where
  tree : Tree
  /-- the current directory, unless it has been removed -/
  here : Option Place
  deriving DecidableEq, Repr

/-- The site once its tree is another one. -/
def Site.withTree (s : Site) (t : Tree) : Site := ⟨t, s.here.filter t.isDirectory⟩

/-- What a command has to say. -/
structure Report where
  /-- zero for success -/
  code : Nat
  output : String := ""
  errors : String := ""
  /-- the trouble that the store met -/
  warnings : List Warning := []
  deriving DecidableEq, Repr

/-- A line about an error. -/
def errorLine (message : String) : String := "Error: " ++ message ++ "\n"

/-- The report of a command that failed. -/
def Report.failure (message : String) : Report := ⟨1, "", errorLine message, []⟩

/-- Why a command breaks off without a report. -/
inductive Abort where
  /-- the file of the configuration holds no document that can be understood -/
  | config (e : ConfigError)
  | sources (e : SourcesError)
  | options (errors : List Record.FieldError)
  /-- what is persisted for an entry is too deep -/
  | cache (e : Json.TooDeep)
  /-- a unit waits for a key that stays in flight -/
  | stuck (key : String)
  | artifact (e : ArtifactError)
  /-- the stylesheets cannot be written, or there is no place for the project directory -/
  | file (e : FileError)
  /-- a text cannot be encoded: that of a stylesheet or of its map, or an include path in a key -/
  | broken (e : Text.Unencodable)
  /-- a directory that the build writes to is named by bytes, which no name in the tree is -/
  | foreign
  deriving DecidableEq, Repr

/-- The faults of fields as one text. -/
def fieldErrors (errors : List Record.FieldError) : String :=
  String.intercalate "; " (errors.map fun e => e.location ++ ": " ++ e.fault.message)

/-- The wording of an abort. -/
def Abort.message : Abort → String
  | .config e => e.message
  | .sources (.unnameable none) => Place.unnameableMessage
  | .sources (.unnameable (some e)) => e.message
  | .sources (.invalid errors) => fieldErrors errors
  | .options errors => fieldErrors errors
  | .cache e => e.message
  | .stuck key => Build.waitingMessage key
  | .artifact e => e.message
  | .file e => e.message
  | .broken e => e.message
  | .foreign => "No such name in the tree"

/-- The abort that comes of what was not written. -/
def Abort.ofWriteError : Build.WriteError → Abort
  | .file e => .file e
  | .broken e => .broken e

/-- How a command ends. -/
inductive Ending where
  | finished (r : Report)
  | aborted (a : Abort)
  deriving DecidableEq, Repr

/-! ## The project of a command -/

/-- The place of a project directory. -/
def Site.place (s : Site) (directory : String) : Except Abort Place :=
  if !Place.isNameable directory then .error (.file .unnameable)
  else if Path.isRooted directory.toList then .ok (Place.join [] directory).resolve
  else match s.here with
    | none => .error (.file .notFound)
    | some h => .ok (Place.join h directory).resolve

/-- The ending for a configuration that cannot be had. -/
def Ending.ofConfigError (e : ConfigError) : Ending :=
  match e with
  | .fault _ => .aborted (.config e)
  | .notUtf8 => .aborted (.config e)
  | .unnameable => .aborted (.config e)
  | _ => .finished (.failure e.message)

/-- The directory and the configuration of a project. -/
def Site.project (s : Site) (directory : String) : Except Ending (Place × Config) :=
  match s.place directory with
  | .error a => .error (.aborted a)
  | .ok root =>
    if s.tree.isDirectory root then
      match Config.find s.tree root with
      | .error e => .error (.ofConfigError e)
      | .ok c => .ok (root, c)
    else .error (.finished (.failure ("directory '" ++ root.text ++ "' does not exist.")))

/-- Where entries are persisted. -/
def cachePlace (root : Place) (c : Config) : Place := Place.join root c.cachePath

/-- Where stylesheets are written. -/
def outputPlace (root : Place) (c : Config) : Place := Place.join root c.outputPath

/-! ## Building -/

/-- What a build says about stylesheets that it wrote. -/
def summary (r : BatchResult) (artifacts : List Artifact) (out : Place) : String :=
  "Compiled " ++ toString (artifacts.countP (·.isCompiled)) ++ " of "
    ++ toString artifacts.length ++ " stylesheet(s) (" ++ toString r.cachedCount
    ++ " from cache) into '" ++ out.text ++ "'.\n"

/-- Artifacts as JSON text. -/
def listing (artifacts : List Artifact) : String :=
  String.ofList (Json.indented (.array (artifacts.map (·.toJson)))) ++ "\n"

/-- The report on a batch.  The errors are shown where halves of surrogate pairs are not. -/
def Report.ofBatch (r : BatchResult) (output : String) (warnings : List Warning) : Report where
  code := if r.hasErrors then 1 else 0
  output := output
  errors := String.join (r.diagnostics.map fun d => errorLine d.format.shown)
  warnings := warnings

/-- A batch is reported as a success exactly when no unit failed. -/
theorem Report.code_ofBatch_eq_zero_iff {r : BatchResult} {output : String}
    {warnings : List Warning} :
    (Report.ofBatch r output warnings).code = 0 ↔ r.diagnostics = [] := by
  unfold Report.ofBatch BatchResult.hasErrors
  cases hd : r.diagnostics with
  | nil => simp
  | cons d ds => simp

/-- What breaks a build off before the first entry is looked up in the store: an include path that no
key can be made with, or a directory that is outside of the tree. -/
def hindrance? (c : Config) (options : CompileOptions) (files : List SourceFile)
    (target : Option String) : Option Abort :=
  let unkeyed := c.keyFault?.filter fun _ => Build.makesKey { options } files target
  (unkeyed.map .broken).or (if c.isForeign then some .foreign else none)

/-- Builds the project at a root. -/
def build (engine : Engine) (t : Tree) (root : Place) (c : Config) (target : Option String)
    (json : Bool) : Ending × Tree :=
  match Project.collect t root c with
  | .error e => (.aborted (.sources e), t)
  | .ok files =>
    if files.any (·.isEntryFor target) then
      match c.options with
      | .error es => (.aborted (.options es), t)
      | .ok options =>
        let store : Store := { directory := some (cachePlace root c), disk := t }
        match hindrance? c options files target with
        | some a => (.aborted a, t)
        | none =>
          match Build.run { options } (engine.compiler (some root.text)) store files target with
          | .error (.tooDeep e _ _) => (.aborted (.cache e), t)
          | .error (.stuck key s _) => (.aborted (.stuck key), s.disk)
          | .error e => (.finished (.failure e.message), t)
          | .ok r =>
            let t := r.store.disk
            match Artifact.ofBatch r.result with
            | .error e => (.aborted (.artifact e), t)
            | .ok artifacts =>
              let report := fun output => Report.ofBatch r.result output r.store.warnings
              if json then (.finished (report (listing artifacts)), t)
              else match Artifact.writeAll (outputPlace root c) t artifacts with
                | (t, some e) => (.aborted (.ofWriteError e), t)
                | (t, none) =>
                  (.finished (report (summary r.result artifacts (outputPlace root c))), t)
    else (.finished ⟨0, "No entry stylesheets found.\n", "", []⟩, t)

/-! ## Cleaning -/

/-- Why a cache directory cannot be removed.  What is no directory is shown as a path, a directory
that is gone by its text. -/
def removalError (place : Place) (e : FileError) : String :=
  let quoted := String.ofList (Text.Quoted.encode place.text.toList)
  "Cannot remove cache directory '" ++ place.text ++ "': " ++ e.message ++ ": "
    ++ (if e = .notDirectory then "PosixPath(" ++ quoted ++ ")" else quoted)

/-- Removes the cache directory of the project at a root. -/
def clean (t : Tree) (root : Place) (c : Config) : Ending × Tree :=
  let place := cachePlace root c
  if t.contains place then
    let store : Store := { directory := some place, disk := t }
    if c.cacheDirectory.isWhole then
      match store.clear with
      | (none, s) =>
        (.finished ⟨0, "Removed compile cache at '" ++ place.text ++ "'.\n", "", []⟩, s.disk)
      | (some e, s) => (.finished (.failure (removalError place e)), s.disk)
    else (.aborted .foreign, t)
  else (.finished ⟨0, "No compile cache found. Nothing to clean.\n", "", []⟩, t)

/-! ## Any command -/

/-- Carries out a request. -/
def run (engine : Engine) (s : Site) (r : Request) : Ending × Site :=
  match s.project r.directory with
  | .error ending => (ending, s)
  | .ok (root, c) =>
    let (ending, t) := match r.verb with
      | .build => build engine s.tree root c r.target r.json
      | .clean => clean s.tree root c
    (ending, s.withTree t)

end SheetBuild.Command
