import SheetBuild.Source
set_option autoImplicit false

/-!
# File sets

The stylesheets of one build in the order in which they are reported, each path once.  `ofList` lets
a later report of a path replace the content of an earlier one, `ofDistinct` refuses it.
-/

namespace SheetBuild

/-- Stylesheets with pairwise distinct paths. -/
structure FileSet where
  files : List SourceFile
  nodup : (files.map (·.path)).Nodup

namespace FileSet

/-- No files. -/
def empty : FileSet := ⟨[], by simp⟩

/-- The paths in the order of the files. -/
def paths (s : FileSet) : List String := s.files.map (·.path)

/-- The file at a path. -/
def get? (s : FileSet) (path : String) : Option SourceFile :=
  s.files.find? fun f => f.path = path

/-- Whether there is a file at a path. -/
def contains (s : FileSet) (path : String) : Bool := (s.get? path).isSome

/-- Puts a file in the place of the one at its path. -/
def replaceIn (f : SourceFile) (files : List SourceFile) : List SourceFile :=
  files.map fun g => if g.path = f.path then f else g

theorem map_path_replaceIn (f : SourceFile) (files : List SourceFile) :
    (replaceIn f files).map (·.path) = files.map (·.path) := by
  simp only [replaceIn, List.map_map]
  refine List.map_congr_left fun g _ => ?_
  by_cases h : g.path = f.path <;> simp [h]

/-- Puts a file: in the place of the one at its path, or at the end. -/
def put (s : FileSet) (f : SourceFile) : FileSet :=
  if h : f.path ∈ s.files.map (·.path) then
    ⟨replaceIn f s.files, by rw [map_path_replaceIn]; exact s.nodup⟩
  else
    ⟨s.files ++ [f], by
      simp only [List.map_append, List.map_cons, List.map_nil]
      refine List.nodup_append.2 ⟨s.nodup, by simp, ?_⟩
      intro a ha b hb
      simp only [List.mem_singleton] at hb
      subst hb
      exact fun hab => h (hab ▸ ha)⟩

/-- The files of a list; of two with one path, the place of the first and the content of the last. -/
def ofList (files : List SourceFile) : FileSet := files.foldl put empty

/-- Adds the files of a list, or gives the first path that is there already. -/
def addDistinct (s : FileSet) : List SourceFile → Except String FileSet
  | [] => .ok s
  | f :: fs => if s.contains f.path then .error f.path else addDistinct (s.put f) fs

/-- The files of a list without repeated paths, or the first path that is repeated. -/
def ofDistinct (files : List SourceFile) : Except String FileSet := addDistinct empty files

/-- The files that satisfy a condition. -/
def filter (s : FileSet) (p : SourceFile → Bool) : FileSet :=
  ⟨s.files.filter p, List.Nodup.sublist (List.filter_sublist.map _) s.nodup⟩

/-- The files that take part in a build for a target. -/
def visible (s : FileSet) (target : Option String) : FileSet := s.filter (·.isVisibleTo target)

/-- The file found at a path is a file of the set, and has that path. -/
theorem mem_of_get? {s : FileSet} {path : String} {f : SourceFile} (h : s.get? path = some f) :
    f ∈ s.files ∧ f.path = path := by
  refine ⟨List.mem_of_find?_eq_some h, ?_⟩
  have := List.find?_some h
  simpa using this

/-- Every file of the set is found at its path. -/
theorem get?_of_mem {s : FileSet} {f : SourceFile} (h : f ∈ s.files) : s.get? f.path = some f := by
  obtain ⟨files, nodup⟩ := s
  simp only [get?] at *
  induction files with
  | nil => simp at h
  | cons g gs ih =>
    simp only [List.map_cons, List.nodup_cons] at nodup
    rcases List.mem_cons.1 h with rfl | hg
    · simp
    · have hne : g.path ≠ f.path := fun he =>
        nodup.1 (List.mem_map.2 ⟨f, hg, he.symm⟩)
      simp only [List.find?_cons, hne, decide_false]
      exact ih nodup.2 hg

theorem get?_eq_some_iff {s : FileSet} {path : String} {f : SourceFile} :
    s.get? path = some f ↔ f ∈ s.files ∧ f.path = path :=
  ⟨mem_of_get?, fun ⟨h, hp⟩ => hp ▸ get?_of_mem h⟩

theorem get?_eq_none_iff {s : FileSet} {path : String} :
    s.get? path = none ↔ path ∉ s.files.map (·.path) := by
  simp [get?, List.find?_eq_none]

/-- A file at a new path comes to the end. -/
theorem files_put {s : FileSet} {f : SourceFile} (h : f.path ∉ s.files.map (·.path)) :
    (s.put f).files = s.files ++ [f] := by
  rw [put, dif_neg h]

end FileSet

end SheetBuild
