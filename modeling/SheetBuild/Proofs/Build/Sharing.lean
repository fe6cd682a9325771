import SheetBuild.Proofs.Build.Digested
import SheetBuild.Proofs.Build.Loading
import SheetBuild.Proofs.Compile.Interchange
set_option autoImplicit false

/-!
# Equal keys in one batch

Entries with one key share one compilation.  Their contents are then the same, but a key says neither
how its entry is spelled nor in which directory it stands, and the closure that goes into it is a list
without the references that led to its files.  So two entries with one key may well be different
compilations: the exact condition under which they are not is `interchangeable_iff_of_key_eq`.
-/

namespace SheetBuild.Build

open SheetBuild.Compile (Engine Interchangeable importer importerPath job)
open SheetBuild.Import (Graph Refers resolve)

namespace Batch

variable {b : Batch}

/-- Files of one directory are served alike. -/
theorem load_eq_of_directory_eq {x y : SourceFile} (h : x.directory = y.directory)
    (reference : String) : b.load reference x.path = b.load reference y.path := by
  have hdirectory : Path.directory x.path.toList = Path.directory y.path.toList := by
    have htext := congrArg String.toList h
    rwa [SourceFile.directory, SourceFile.directory, String.toList_ofList,
      String.toList_ofList] at htext
  unfold load resolve Import.candidates Import.searchPlan
  rw [hdirectory]

/-- What is served is not mistaken for the entry. -/
theorem importerPath_of_load {reference place path text : String}
    (h : b.load reference place = some (path, text)) (entry : String) :
    importerPath entry path = path := by
  obtain ⟨f, hf, rfl, -⟩ := exists_found_of_load h
  exact importerPath_of_resolve hf entry

/-- Equal keys in one batch were made of entries with one content. -/
theorem content_eq_of_key_eq {x y : SourceFile} {c c' : List String}
    (hdig : b.files.Digested) (hcf : Digest.CollisionFree b.digested)
    (hx : x ∈ b.entries) (hy : y ∈ b.entries) (hc : b.graph.Walk x.path c)
    (hc' : b.graph.Walk y.path c') (hkey : b.key x c = b.key y c') : x.content = y.content := by
  have hcf' : Digest.CollisionFree (b.digested ++ b.digested) := fun m hm n hn =>
    hcf m ((List.mem_append.1 hm).elim id id) n ((List.mem_append.1 hn).elim id id)
  exact (inputs_eq_of_key_eq hdig hdig hcf' hx hy hc hc' hkey).2.2.1.1

/-- Entries with one key may share their result for every engine exactly when they are spelled alike
and every reference has one answer in both; for every engine that asks for reported references only,
when they are spelled alike and the references of their text have one answer in both.  Entries of one
directory that are spelled alike may always share it. -/
theorem interchangeable_iff_of_key_eq {x y : SourceFile} {memo memo' : Graph.Memo}
    {c c' : List String} (hdig : b.files.Digested) (hcf : Digest.CollisionFree b.digested)
    (hx : x ∈ b.entries) (hy : y ∈ b.entries) (hm : b.graph.Asked memo)
    (hm' : b.graph.Asked memo') (hc : (b.graph.closure memo x.path).1 = .ok c)
    (hc' : (b.graph.closure memo' y.path).1 = .ok c') (hkey : b.key x c = b.key y c')
    (root : Option String) :
    ((∀ engine : Engine, Interchangeable x.path y.path
          ((engine.compiler root x b.options).run b.load).result
          ((engine.compiler root y b.options).run b.load).result) ↔
        x.isIndented = y.isIndented ∧
          ∀ reference, b.load reference x.path = b.load reference y.path) ∧
      ((∀ engine : Engine,
          engine.AsksReported (job root x b.options) (importer b.load x.path) →
          Interchangeable x.path y.path ((engine.compiler root x b.options).run b.load).result
            ((engine.compiler root y b.options).run b.load).result) ↔
        x.isIndented = y.isIndented ∧
          ∀ r, Refers x r → b.load r.target x.path = b.load r.target y.path) ∧
      (x.isIndented = y.isIndented → x.directory = y.directory →
        ∀ engine : Engine, Interchangeable x.path y.path
          ((engine.compiler root x b.options).run b.load).result
          ((engine.compiler root y b.options).run b.load).result) := by
  have hcontent : x.content = y.content :=
    content_eq_of_key_eq hdig hcf hx hy ((Graph.closure_eq_ok_iff hm).1 hc)
      ((Graph.closure_eq_ok_iff hm').1 hc') hkey
  refine ⟨Compile.interchangeable_iff root hcontent, ?_, ?_⟩
  · apply Compile.interchangeable_iff_of_asksReported root hcontent
    intro reference place path text entry h
    exact importerPath_of_load h entry
  · intro hindented hdirectory
    exact (Compile.interchangeable_iff root hcontent).2
      ⟨hindented, load_eq_of_directory_eq hdirectory⟩

/-! ## Two sheets with one key -/

/-- A sheet in a directory. -/
def shallow : SourceFile := .ofText "a/x.scss" "@import '/b/n', '../n'"

/-- A sheet of the same text in a directory one level below. -/
def deep : SourceFile := .ofText "b/c/y.scss" "@import '/b/n', '../n'"

/-- The two sheets and the partials that they import.  Both reach the same files in the same order,
but `../n` is another file from each. -/
def crossed : Batch where
  options := {}
  target := none
  files := .ofList [shallow, deep, .ofText "b/_n.scss" "@import '../n'", .ofText "_n.scss" ""]

/-- The two sheets have one key, and even among the engines that ask for reported references only
there is one for which they may not share a result. -/
theorem not_interchangeable_shallow_deep :
    crossed.key shallow ["b/_n.scss", "_n.scss"] = crossed.key deep ["b/_n.scss", "_n.scss"] ∧
      ¬ ∀ engine : Engine,
        engine.AsksReported (job none shallow {}) (importer crossed.load shallow.path) →
        Interchangeable shallow.path deep.path
          ((engine.compiler none shallow {}).run crossed.load).result
          ((engine.compiler none deep {}).run crossed.load).result := by
  have hkey : crossed.key shallow ["b/_n.scss", "_n.scss"]
      = crossed.key deep ["b/_n.scss", "_n.scss"] := rfl
  refine ⟨hkey, ?_⟩
  intro hshared
  have hdig : crossed.files.Digested :=
    FileSet.digested_ofList (by simp [shallow, deep])
  have hiff := interchangeable_iff_of_key_eq (x := shallow) (y := deep) hdig (by decide +kernel)
    (mem_entries.2 (by decide +kernel)) (mem_entries.2 (by decide +kernel)) .nothing .nothing
    (by decide +kernel) (by decide +kernel) hkey none
  have hscan : Import.scan shallow.isIndented shallow.text
      = .ok [⟨.import_, "/b/n", 1, 9⟩, ⟨.import_, "../n", 1, 17⟩] := by decide +kernel
  have hload := (hiff.2.1.1 hshared).2 ⟨.import_, "../n", 1, 17⟩ ⟨_, hscan, by simp⟩
  exact absurd hload (by decide +kernel)

end Batch

end SheetBuild.Build
