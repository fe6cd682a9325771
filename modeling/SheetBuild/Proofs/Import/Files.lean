import Mathlib.Data.List.Basic
import SheetBuild.Proofs.Import.Closure
import SheetBuild.Proofs.Import.Resolution
set_option autoImplicit false

/-!
# Walks through files

The nodes of the graph of a file set are read off its files: a file imports what its references
resolve to, and stands in order when it can be scanned and all its references are answered.  So a
walk goes through files of the set only, and every reference in them leads to a file that it finds,
or is left to the compiler.
-/

namespace SheetBuild

/-- A file of a text, with the digest of its bytes. -/
def SourceFile.ofText (path text : String) : SourceFile :=
  let content := Text.Utf8.encode text.toList
  ⟨path, content, SheetBuild.contentHash content, none, true⟩

end SheetBuild

namespace SheetBuild.Import

/-- A reference that scanning finds in a text. -/
def Reported (indented : Bool) (text : List Char) (r : Reference) : Prop :=
  ∃ references, scan indented text = .ok references ∧ r ∈ references

/-- A reference that scanning finds in a file. -/
def Refers (f : SourceFile) (r : Reference) : Prop := Reported f.isIndented f.text r

/-- The same content under the same path is scanned alike. -/
theorem refers_congr {f g : SourceFile} (hp : f.path = g.path) (hc : f.content = g.content)
    {r : Reference} : Refers f r ↔ Refers g r := by
  simp only [Refers, SourceFile.isIndented, SourceFile.text, hp, hc]

/-! ## Nodes -/

namespace Node

variable {files files' : FileSet} {includePaths : List String} {f f' : SourceFile}

/-- The path that a reference leads to, where it resolves to a file. -/
def leadsTo? (files : FileSet) (includePaths : List String) (importer : String) (r : Reference) :
    Option String :=
  match resolve files includePaths importer r.target with
  | .found f => some f.path
  | .external => none
  | .unresolved => none

theorem leadsTo?_eq_some_iff {importer p : String} {r : Reference} :
    leadsTo? files includePaths importer r = some p ↔
      ∃ t, resolve files includePaths importer r.target = .found t ∧ t.path = p := by
  unfold leadsTo?
  cases resolve files includePaths importer r.target <;> simp

theorem follow_bind_target? (importer : String) (r : Reference) :
    (follow files includePaths importer r).bind target?
      = leadsTo? files includePaths importer r := by
  unfold follow leadsTo?
  cases resolve files includePaths importer r.target <;> rfl

theorem path_ofFile : (ofFile files includePaths f).path = f.path := by
  unfold ofFile
  split <;> rfl

/-- A file imports what its references lead to, each path once. -/
theorem imports_ofFile {references : List Reference}
    (h : scan f.isIndented f.text = .ok references) :
    (ofFile files includePaths f).imports
      = (references.filterMap (leadsTo? files includePaths f.path)).eraseDups := by
  simp only [ofFile, h, List.filterMap_filterMap]
  congr 2
  funext r
  exact follow_bind_target? f.path r

/-- A file stands in order when it can be scanned and each of its references is answered. -/
theorem problems_ofFile_eq_nil_iff :
    (ofFile files includePaths f).problems = [] ↔
      ∃ references, scan f.isIndented f.text = .ok references ∧
        ∀ r ∈ references, resolve files includePaths f.path r.target ≠ .unresolved := by
  unfold ofFile
  cases hs : scan f.isIndented f.text with
  | error e => simp
  | ok references =>
    have hnone : ∀ r : Reference, ((follow files includePaths f.path r).bind problem? = none ↔
        resolve files includePaths f.path r.target ≠ .unresolved) := by
      intro r
      unfold follow
      cases resolve files includePaths f.path r.target <;> simp [problem?]
    simp only [List.filterMap_filterMap, List.filterMap_eq_nil_iff, hnone, Except.ok.injEq,
      exists_eq_left']

/-- The node of a file is made of its path, its text and where its references lead. -/
theorem ofFile_congr (hp : f.path = f'.path) (hc : f.content = f'.content)
    (hr : ∀ r, Refers f r → follow files includePaths f.path r
      = follow files' includePaths f.path r) :
    ofFile files includePaths f = ofFile files' includePaths f' := by
  have hscan : scan f'.isIndented f'.text = scan f.isIndented f.text := by
    simp only [SourceFile.isIndented, SourceFile.text, hp, hc]
  unfold ofFile
  rw [hscan, ← hp]
  cases hs : scan f.isIndented f.text with
  | error e => rfl
  | ok references =>
    have hfollow : references.filterMap (follow files includePaths f.path)
        = references.filterMap (follow files' includePaths f.path) :=
      List.filterMap_congr fun r hmem => hr r ⟨references, hs, hmem⟩
    simp only [hfollow]

end Node

/-! ## The graph of a file set -/

namespace Graph

variable {files files' : FileSet} {includePaths : List String}

/-- The files of the graph are the files of the set. -/
theorem paths_ofFiles : (ofFiles files includePaths).paths = files.paths := by
  rw [paths, ofFiles, List.map_map, FileSet.paths]
  exact List.map_congr_left fun f _ => Node.path_ofFile

/-- The node of a path is that of the file there. -/
theorem node?_ofFiles (p : String) : (ofFiles files includePaths).node? p
    = (files.get? p).map (Node.ofFile files includePaths) := by
  have hpath : (fun n : Node => decide (n.path = p)) ∘ Node.ofFile files includePaths
      = fun g : SourceFile => decide (g.path = p) := by
    funext g
    simp [Node.path_ofFile]
  rw [node?, ofFiles, List.find?_map, hpath, FileSet.get?]

theorem imports_ofFiles {p : String} {f : SourceFile} (h : files.get? p = some f) :
    (ofFiles files includePaths).imports p = (Node.ofFile files includePaths f).imports := by
  rw [imports, node?_ofFiles, h, Option.map_some, Option.map_some, Option.getD_some]

theorem problems_ofFiles {p : String} {f : SourceFile} (h : files.get? p = some f) :
    (ofFiles files includePaths).problems p = (Node.ofFile files includePaths f).problems := by
  rw [problems, node?_ofFiles, h, Option.map_some, Option.map_some, Option.getD_some]

/-- What is imported is a file of the set. -/
theorem exists_file_of_mem_imports {p d : String}
    (h : d ∈ (ofFiles files includePaths).imports p) : ∃ t, files.get? d = some t := by
  unfold imports at h
  cases hn : (ofFiles files includePaths).node? p with
  | none => simp [hn] at h
  | some n =>
    rw [hn, Option.map_some, Option.getD_some] at h
    obtain ⟨f, -, rfl⟩ := List.mem_map.1 (List.mem_of_find?_eq_some hn)
    cases hs : scan f.isIndented f.text with
    | error e => simp [Node.ofFile, hs] at h
    | ok references =>
      rw [Node.imports_ofFile hs, List.mem_eraseDups, List.mem_filterMap] at h
      obtain ⟨r, -, hr⟩ := h
      obtain ⟨t, ht, rfl⟩ := Node.leadsTo?_eq_some_iff.1 hr
      exact ⟨t, FileSet.get?_of_mem (mem_of_resolve_eq_found ht)⟩

namespace Walk

/-- What a walk finds are files of the set. -/
theorem exists_file {p q : String} {c : List String} (h : (ofFiles files includePaths).Walk p c)
    (hq : q ∈ c) : ∃ f, files.get? q = some f := by
  induction h with
  | node below clean down ih =>
    rw [List.mem_eraseDups, List.mem_flatMap] at hq
    obtain ⟨d, hd, hqd⟩ := hq
    rcases List.mem_cons.1 hqd with rfl | hqd
    · exact exists_file_of_mem_imports hd
    · exact ih d hd hqd

/-- A file on a walk can be scanned, and each of its references is left to the compiler or resolves
to a file that the walk finds. -/
theorem exists_scan {p q : String} {c : List String} {f : SourceFile}
    (h : (ofFiles files includePaths).Walk p c) (hq : q ∈ p :: c) (hf : files.get? q = some f) :
    ∃ references, scan f.isIndented f.text = .ok references ∧ ∀ r ∈ references,
      resolve files includePaths q r.target = .external ∨
        ∃ t, resolve files includePaths q r.target = .found t ∧ t.path ∈ c := by
  obtain ⟨-, rfl⟩ := FileSet.mem_of_get? hf
  have hclean := h.problems_eq_nil_of_mem hq
  rw [problems_ofFiles hf] at hclean
  obtain ⟨references, hs, hr⟩ := Node.problems_ofFile_eq_nil_iff.1 hclean
  refine ⟨references, hs, ?_⟩
  intro r hmem
  have hanswered := hr r hmem
  cases hres : resolve files includePaths f.path r.target with
  | external => exact .inl rfl
  | unresolved => exact absurd hres hanswered
  | found t =>
    refine .inr ⟨t, rfl, h.mem_of_imports hq ?_⟩
    rw [imports_ofFiles hf, Node.imports_ofFile hs, List.mem_eraseDups, List.mem_filterMap]
    exact ⟨r, hmem, Node.leadsTo?_eq_some_iff.2 ⟨t, hres, rfl⟩⟩

/-- The answer to a reference in a file on a walk. -/
theorem resolve_of_refers {p q : String} {c : List String} {f : SourceFile} {r : Reference}
    (h : (ofFiles files includePaths).Walk p c) (hq : q ∈ p :: c) (hf : files.get? q = some f)
    (hr : Refers f r) :
    resolve files includePaths q r.target = .external ∨
      ∃ t, resolve files includePaths q r.target = .found t ∧ t.path ∈ c := by
  obtain ⟨references, hs, hall⟩ := h.exists_scan hq hf
  obtain ⟨references', hs', hmem⟩ := hr
  rw [hs] at hs'
  exact hall r (Except.ok.inj hs' ▸ hmem)

end Walk

end Graph

end SheetBuild.Import
