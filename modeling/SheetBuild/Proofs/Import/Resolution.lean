import SheetBuild.Import.Graph
set_option autoImplicit false

/-!
# The answer to a reference

A reference resolves to the first of its candidates that is a file of the set.  So what it resolves
to stays the answer in another file set as long as that set has it too and has no candidate before it
(`resolve_of_unshadowed`), and two file sets that both have both of their answers give the same one
(`path_eq_of_resolve`).
-/

namespace SheetBuild.Import

/-- In a list, `p` stands before some `q`. -/
def Precedes (ps : List String) (p q : String) : Prop :=
  ∃ front back, ps = front ++ q :: back ∧ p ∈ front

@[simp] theorem not_precedes_nil {p q : String} : ¬ Precedes [] p q := by
  rintro ⟨front, back, h, -⟩
  exact absurd h (by simp)

@[simp] theorem precedes_cons {a p q : String} {ps : List String} :
    Precedes (a :: ps) p q ↔ p = a ∧ q ∈ ps ∨ Precedes ps p q := by
  constructor
  · rintro ⟨front, back, h, hp⟩
    cases front with
    | nil => exact absurd hp List.not_mem_nil
    | cons b front =>
      obtain ⟨rfl, rfl⟩ := List.cons.inj h
      rcases List.mem_cons.1 hp with rfl | hp
      · exact .inl ⟨rfl, by simp⟩
      · exact .inr ⟨front, back, rfl, hp⟩
  · rintro (⟨rfl, hq⟩ | ⟨front, back, rfl, hp⟩)
    · obtain ⟨front, back, rfl⟩ := List.append_of_mem hq
      exact ⟨p :: front, back, rfl, List.mem_cons_self⟩
    · exact ⟨a :: front, back, rfl, List.mem_cons_of_mem _ hp⟩

/-- A reference is found at the first of its candidates that is a file of the set. -/
theorem resolve_eq_found_iff {files : FileSet} {includePaths : List String}
    {importer reference : String} {f : SourceFile} :
    resolve files includePaths importer reference = .found f ↔
      isExternal reference.toList = false ∧ f ∈ files.files ∧
        ∃ front back, candidates importer reference includePaths = front ++ f.path :: back ∧
          ∀ p ∈ front, files.get? p = none := by
  unfold resolve
  cases hx : isExternal reference.toList with
  | true => simp
  | false =>
    rw [if_neg (by simp)]
    constructor
    · intro h
      split at h
      · rename_i g hg
        cases h
        obtain ⟨front, p, back, hc, hp, hfront⟩ := List.findSome?_eq_some_iff.1 hg
        obtain ⟨hmem, rfl⟩ := FileSet.mem_of_get? hp
        exact ⟨rfl, hmem, front, back, hc, hfront⟩
      · exact absurd h (by simp)
    · rintro ⟨-, hmem, front, back, hc, hfront⟩
      have hfind : (candidates importer reference includePaths).findSome? files.get? = some f :=
        List.findSome?_eq_some_iff.2 ⟨front, f.path, back, hc, FileSet.get?_of_mem hmem, hfront⟩
      rw [hfind]

theorem resolve_eq_external_iff {files : FileSet} {includePaths : List String}
    {importer reference : String} :
    resolve files includePaths importer reference = .external ↔
      isExternal reference.toList = true := by
  unfold resolve
  cases hx : isExternal reference.toList with
  | true => simp
  | false =>
    rw [if_neg (by simp)]
    split <;> simp

/-- Where two file sets each have the answer of the other, the answers stand at the same path:
neither is shadowed by the other. -/
theorem path_eq_of_resolve {files files' : FileSet} {includePaths : List String}
    {importer reference : String} {f f' : SourceFile}
    (h : resolve files includePaths importer reference = .found f)
    (h' : resolve files' includePaths importer reference = .found f')
    (hf : files'.get? f.path ≠ none) (hf' : files.get? f'.path ≠ none) : f.path = f'.path := by
  obtain ⟨-, -, front, back, hc, hfront⟩ := resolve_eq_found_iff.1 h
  obtain ⟨-, -, front', back', hc', hfront'⟩ := resolve_eq_found_iff.1 h'
  rw [hc] at hc'
  rcases List.append_eq_append_iff.1 hc' with ⟨mid, rfl, hmid⟩ | ⟨mid, rfl, hmid⟩
  · cases mid with
    | nil => exact (List.cons.inj hmid).1
    | cons p mid =>
      have hp : f.path = p := (List.cons.inj hmid).1
      exact absurd (hfront' f.path (by simp [hp])) hf
  · cases mid with
    | nil => exact (List.cons.inj hmid).1.symm
    | cons p mid =>
      have hp : f'.path = p := (List.cons.inj hmid).1
      exact absurd (hfront f'.path (by simp [hp])) hf'

/-- What a reference resolves to stays the answer in a file set that has it and has no candidate
before it. -/
theorem resolve_of_unshadowed {files files' : FileSet} {includePaths : List String}
    {importer reference : String} {f f' : SourceFile}
    (h : resolve files includePaths importer reference = .found f)
    (hf' : files'.get? f.path = some f')
    (hshadow : ∀ p, Precedes (candidates importer reference includePaths) p f.path →
      files'.get? p = none) :
    resolve files' includePaths importer reference = .found f' := by
  obtain ⟨hx, -, front, back, hc, -⟩ := resolve_eq_found_iff.1 h
  obtain ⟨hmem, hpath⟩ := FileSet.mem_of_get? hf'
  refine resolve_eq_found_iff.2 ⟨hx, hmem, front, back, by rw [hpath, hc], ?_⟩
  intro p hp
  exact hshadow p ⟨front, back, hc, hp⟩

/-! ## Where a candidate can stand -/

/-- What is tried below one directory ends in an extension. -/
theorem exists_extension_of_mem_candidatesIn {base stem cs : List Char}
    (h : cs ∈ candidatesIn base stem) :
    ∃ (form : List Char) (e : Path.Extension), cs = form ++ e.text := by
  unfold candidatesIn at h
  generalize Path.normal (if base.isEmpty then stem else Path.join base stem) = joined at h
  by_cases hl : leavesBase joined = true
  · rw [if_pos hl] at h
    exact absurd h List.not_mem_nil
  · rw [if_neg hl] at h
    obtain ⟨form, -, hform⟩ := List.mem_flatMap.1 h
    obtain ⟨e, -, he⟩ := List.mem_map.1 hform
    exact ⟨form, e, he.symm⟩

/-- Every candidate is the path of a stylesheet. -/
theorem exists_extension_of_mem_candidates {importer reference : String}
    {includePaths : List String} {p : String}
    (h : p ∈ candidates importer reference includePaths) :
    ∃ (stem : List Char) (e : Path.Extension), p.toList = stem ++ e.text := by
  simp only [candidates, List.mem_eraseDups, List.mem_map, List.mem_flatMap] at h
  obtain ⟨cs, ⟨base, -, hcs⟩, hp⟩ := h
  obtain ⟨form, e, hform⟩ := exists_extension_of_mem_candidatesIn hcs
  exact ⟨form, e, by rw [← hp, String.toList_ofList, hform]⟩

/-- A reference resolves to the path of a stylesheet. -/
theorem exists_extension_of_resolve {files : FileSet} {includePaths : List String}
    {importer reference : String} {f : SourceFile}
    (h : resolve files includePaths importer reference = .found f) :
    ∃ (stem : List Char) (e : Path.Extension), f.path.toList = stem ++ e.text := by
  obtain ⟨-, -, front, back, hc, -⟩ := resolve_eq_found_iff.1 h
  exact exists_extension_of_mem_candidates (by rw [hc]; simp)

end SheetBuild.Import
