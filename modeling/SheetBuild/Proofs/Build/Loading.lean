import SheetBuild.Build.Batch
import SheetBuild.Proofs.Compile.Requests
set_option autoImplicit false

/-!
# What a batch serves

The loader of a batch answers with the files that references resolve to, so a text that it serves is
the text of a file of the batch, under its path.  That path ends in an extension, and no engine takes
it for the entry.
-/

namespace SheetBuild.Build

open SheetBuild.Compile (Given entryName importer importerPath)
open SheetBuild.Import (Reference Refers Reported Resolution resolve)

/-- The stylesheets that are served are not mistaken for the entry. -/
theorem importerPath_of_resolve {files : FileSet} {includePaths : List String}
    {place reference : String} {f : SourceFile}
    (h : resolve files includePaths place reference = .found f) (entry : String) :
    importerPath entry f.path = f.path := by
  obtain ⟨stem, e, hpath⟩ := Import.exists_extension_of_resolve h
  have hne : f.path ≠ "" ∧ f.path ≠ entryName := by
    constructor
    · intro hempty
      rw [hempty] at hpath
      have hlen := congrArg List.length hpath
      cases e <;> simp [Path.Extension.text] at hlen
    · intro hstdin
      rw [hstdin] at hpath
      have hlast := congrArg List.getLast? hpath
      cases e <;> simp [Path.Extension.text, entryName] at hlast
  rw [importerPath, if_neg (by simp [hne.1, hne.2])]

namespace Batch

variable {b : Batch}

theorem load_of_found {reference place : String} {f : SourceFile}
    (h : resolve b.files b.options.includePaths place reference = .found f) :
    b.load reference place = some (f.path, String.ofList f.text) := by
  unfold load
  rw [h]

theorem load_of_external {reference place : String}
    (h : resolve b.files b.options.includePaths place reference = .external) :
    b.load reference place = none := by
  unfold load
  rw [h]

/-- What is served is a file of the batch that the reference resolves to. -/
theorem exists_found_of_load {reference place path text : String}
    (h : b.load reference place = some (path, text)) :
    ∃ f, resolve b.files b.options.includePaths place reference = .found f ∧ f.path = path ∧
      String.ofList f.text = text := by
  unfold load at h
  split at h
  · rename_i f hf
    obtain ⟨rfl, rfl⟩ := Prod.mk.inj (Option.some.inj h)
    exact ⟨f, hf, rfl, rfl⟩
  · exact absurd h (by simp)
  · exact absurd h (by simp)

/-- The text that a file is served with, as an engine is given it. -/
theorem given_of_found (f : SourceFile) :
    Given.ofAnswer (some (f.path, String.ofList f.text)) = [⟨f.path, f.isIndented, f.text⟩] := by
  rw [Given.ofAnswer, String.toList_ofList, SourceFile.isIndented]

end Batch

end SheetBuild.Build
