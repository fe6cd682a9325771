import SheetBuild.Project.Config
import SheetBuild.Project.Glob
import SheetBuild.Source
set_option autoImplicit false

/-!
# The stylesheets of a project

All stylesheets below a project directory, in the order of the names on the way to them.  Hidden
directories, installed packages and the directories that a build writes to are left out.  A file
below a directory that is named for a build target belongs to that target.
-/

namespace SheetBuild.Project

open SheetBuild.Disk (Place Tree)

/-- The names of directories that assign the files below them to a build target. -/
def targetNames : List String := ["client", "server"]

/-- Whether a directory of this name holds no files of the project. -/
def isIgnoredName (name : String) : Bool := name.startsWith "." || name = "node_modules"

/-- The text of a name from its last period on; a period at either end of the name does not count. -/
def suffix (name : List Char) : List Char :=
  let tail := (name.reverse.takeWhile (· ≠ '.')).reverse
  let front := name.take (name.length - tail.length - 1)
  if tail = [] ∨ front = [] ∨ tail.length = name.length then [] else '.' :: tail

/-- Whether a name is that of a stylesheet. -/
def isStylesheet (name : String) : Bool :=
  Path.Extension.all.any fun e => e.text = suffix name.toList

/-- The order of places by their names, one after the other. -/
def precedes : Place → Place → Bool
  | [], _ => true
  | _ :: _, [] => false
  | a :: as, b :: bs => if a = b then precedes as bs else decide (a < b)

/-- The directories that a build writes to. -/
def outputPlaces (root : Place) (c : Config) : List Place :=
  [(Place.join root c.cachePath).resolve, (Place.join root c.outputPath).resolve]

/-- Whether a stylesheet takes part in a build, by the names on the way to it from the root. -/
def takesPart (root : Place) (c : Config) (rel : Place) : Bool :=
  (rel.getLast?.any isStylesheet) && !(rel.dropLast.any isIgnoredName)
    && !((outputPlaces root c).any fun p => (root ++ rel).isBelow p)

/-- The build target that the directories on the way to a file assign it to. -/
def targetOf (rel : Place) : Option String := rel.dropLast.find? targetNames.contains

/-- The source file at a place below the root. -/
def sourceAt (c : Config) (rel : Place) (content : Bytes) : Record.Checked SourceFile :=
  let path := String.intercalate "/" rel
  match SourceFile.ofContent path content (targetOf rel) (!Glob.isAnyMatch c.importOnly path) with
  | .ok f => .ok f
  | .error e => .error [⟨"path", .refused e.message⟩]

/-- Why the stylesheets of a project cannot be collected. -/
inductive SourcesError where
  /-- a directory that the build writes to has no name on disk, for the halves in it or else for a
  null character -/
  | unnameable (e : Option Text.Unencodable)
  /-- a stylesheet makes no source file -/
  | invalid (errors : List Record.FieldError)
  deriving DecidableEq, Repr

/-- The stylesheets of the project at a root. -/
def collect (t : Tree) (root : Place) (c : Config) : Except SourcesError (List SourceFile) :=
  match [c.cacheDirectory, c.outputDirectory].find? (!Place.isPlaceable ·) with
  | some d => .error (.unnameable (Place.obstacle? root d))
  | none =>
    let files := (t.filesBelow root).filter fun f => takesPart root c f.1
    ((files.mergeSort fun f g => precedes f.1 g.1).mapM fun f => sourceAt c f.1 f.2).mapError
      .invalid

end SheetBuild.Project
