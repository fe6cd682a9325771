import Mathlib.Data.List.Basic
import SheetBuild.Proofs.Import.Resolution
import SheetBuild.Proofs.Path.Canonical
set_option autoImplicit false

/-!
# The order of preference

Which of several files that a reference may mean is the answer.  A `Choice` is one way to look for a
reference: below one of its directories, in one of six forms, with one of the two extensions.  Choices
are ordered by directory, then by form, then by extension, and the answer is the file that the first
choice finds; a file that is added takes over exactly where it is found before the answer
(`resolve_eq_first`).
-/

namespace SheetBuild.Import

open SheetBuild.Path (Extension)

/-! ## Choices -/

/-- The forms in which a stylesheet may be there for a name: under the name, marked as a partial or not,
or in the directory of that name, as its index or under the name again. -/
inductive Form where
  | marked
  | plain
  | markedIndex
  | index
  | markedInside
  | inside
  deriving DecidableEq, Repr

namespace Form

/-- The forms in order of preference. -/
def all : List Form := [.marked, .plain, .markedIndex, .index, .markedInside, .inside]

/-- The place of a form in the order. -/
def rank : Form → Nat
  | .marked => 0
  | .plain => 1
  | .markedIndex => 2
  | .index => 3
  | .markedInside => 4
  | .inside => 5

/-- The path of a form for a normal path, without extension. -/
def path (q : List Char) : Form → List Char
  | .marked => Path.join (Path.directory q) ('_' :: Path.baseName q)
  | .plain => Path.join (Path.directory q) (Path.baseName q)
  | .markedIndex => Path.join q "_index".toList
  | .index => Path.join q "index".toList
  | .markedInside => Path.join q ('_' :: Path.baseName q)
  | .inside => Path.join q (Path.baseName q)

theorem mem_all (f : Form) : f ∈ all := by cases f <;> decide

theorem rank_injective {f f' : Form} (h : f.rank = f'.rank) : f = f' := by
  cases f <;> cases f' <;> simp_all [rank]

end Form

/-- The place of an extension in the order. -/
def extensionRank : Extension → Nat
  | .scss => 0
  | .sass => 1

/-- A way to look for a reference. -/
structure Choice where
  /-- the number of the directory -/
  base : Nat
  form : Form
  extension : Extension
  deriving DecidableEq, Repr

namespace Choice

/-- Comes first: by directory, then by form, then by extension. -/
def Before (a b : Choice) : Prop :=
  a.base < b.base ∨ a.base = b.base ∧
    (a.form.rank < b.form.rank ∨ a.form.rank = b.form.rank ∧
      extensionRank a.extension < extensionRank b.extension)

theorem not_before_self (a : Choice) : ¬ a.Before a := by
  unfold Before
  omega

theorem Before.trans {a b c : Choice} (h : a.Before b) (h' : b.Before c) : a.Before c := by
  unfold Before at *
  omega

/-- Of two choices one comes first. -/
theorem before_or_before {a b : Choice} (h : a ≠ b) : a.Before b ∨ b.Before a := by
  by_contra hneither
  unfold Before at hneither
  have hbase : a.base = b.base := by omega
  have hform : a.form = b.form := Form.rank_injective (by omega)
  have hextension : extensionRank a.extension = extensionRank b.extension := by omega
  obtain ⟨i, f, e⟩ := a
  obtain ⟨i', f', e'⟩ := b
  simp only at hbase hform hextension
  cases e <;> cases e' <;> simp_all [extensionRank]

end Choice

/-! ## Searches -/

/-- What a reference is looked for as, and below which directories; the empty one is the project
root. -/
structure Search where
  stem : List Char
  bases : List (List Char)

/-- A reference without the blanks around it and without one extension. -/
def bare (reference : List Char) : List Char := (Path.splitExtension (Text.trim reference)).1

namespace Search

/-- The search for a reference in the file at a path. -/
inductive IsFor (importer reference : List Char) (includePaths : List (List Char)) : Search → Prop where
  | marked {stem : List Char} (h : bare reference = rootMark ++ stem) :
      IsFor importer reference includePaths ⟨stem, [[]]⟩
  | rooted {n : Nat} {stem : List Char} (h : bare reference = List.replicate (n + 1) '/' ++ stem)
      (hstem : stem.head? ≠ some '/') : IsFor importer reference includePaths ⟨stem, [[]]⟩
  | relative (hmark : ¬ rootMark <+: bare reference) (hslash : (bare reference).head? ≠ some '/') :
      IsFor importer reference includePaths
        ⟨bare reference, Path.directory importer :: includePaths⟩

/-- The path of a stem below a directory in a form and with an extension, unless nothing is left of
the stem or it leaves the root. -/
def placeIn? (stem base : List Char) (form : Form) (e : Extension) : Option String :=
  let q := Path.normal (Path.join base stem)
  if q = Path.here ∨ (Path.segments q).head? = some Path.up then none
  else some (String.ofList (form.path q ++ e.text))

/-- Where a choice looks. -/
def target? (s : Search) (c : Choice) : Option String :=
  s.bases[c.base]?.bind fun base => placeIn? s.stem base c.form c.extension

/-- The file of a set that the first choice finds which finds one. -/
def First (s : Search) (files : FileSet) (f : SourceFile) : Prop :=
  f ∈ files.files ∧ ∃ c, s.target? c = some f.path ∧
    ∀ c', c'.Before c → ∀ p, s.target? c' = some p → files.get? p = none

/-- All choices below the directories of a search, in their order. -/
def choices (s : Search) : List Choice :=
  (List.range s.bases.length).flatMap fun i =>
    Form.all.flatMap fun form => Extension.all.map fun e => ⟨i, form, e⟩

theorem mem_choices {s : Search} {c : Choice} : c ∈ s.choices ↔ c.base < s.bases.length := by
  obtain ⟨i, form, e⟩ := c
  have he : e ∈ Extension.all := by cases e <;> decide
  simp only [choices, List.mem_flatMap, List.mem_map, List.mem_range, Choice.mk.injEq]
  constructor
  · rintro ⟨i', hi', -, -, -, -, rfl, -, -⟩
    exact hi'
  · intro hi
    exact ⟨i, hi, form, form.mem_all, e, he, rfl, rfl, rfl⟩

theorem pairwise_choices (s : Search) : s.choices.Pairwise Choice.Before := by
  have hextensions : ∀ (i : Nat) (form : Form),
      (Extension.all.map fun e => (⟨i, form, e⟩ : Choice)).Pairwise Choice.Before := by
    intro i form
    simp [Extension.all, Choice.Before, extensionRank]
  have hforms : Form.all.Pairwise fun f f' => f.rank < f'.rank := by decide
  refine List.pairwise_flatMap.2 ⟨fun i _ => List.pairwise_flatMap.2 ⟨fun f _ => hextensions i f, ?_⟩, ?_⟩
  · refine hforms.imp fun {f f'} hrank c hc c' hc' => ?_
    obtain ⟨e, -, rfl⟩ := List.mem_map.1 hc
    obtain ⟨e', -, rfl⟩ := List.mem_map.1 hc'
    exact .inr ⟨rfl, .inl hrank⟩
  · refine List.pairwise_lt_range.imp fun {i i'} hi c hc c' hc' => ?_
    simp only [List.mem_flatMap, List.mem_map] at hc hc'
    obtain ⟨f, -, e, -, rfl⟩ := hc
    obtain ⟨f', -, e', -, rfl⟩ := hc'
    exact .inl hi

/-- In the order of all choices, those in front of one are those that come before it. -/
theorem mem_front_iff {s : Search} {front back : List Choice} {c c' : Choice}
    (h : s.choices = front ++ c :: back) : c' ∈ front ↔ c' ∈ s.choices ∧ c'.Before c := by
  have hpairs := s.pairwise_choices
  rw [h, List.pairwise_append, List.pairwise_cons] at hpairs
  obtain ⟨-, ⟨hback, -⟩, hfront⟩ := hpairs
  constructor
  · intro hc'
    exact ⟨by simp [h, hc'], hfront c' hc' c List.mem_cons_self⟩
  · rintro ⟨hmem, hbefore⟩
    rw [h, List.mem_append, List.mem_cons] at hmem
    rcases hmem with hmem | rfl | hmem
    · exact hmem
    · exact absurd hbefore c'.not_before_self
    · exact absurd (hbefore.trans (hback c' hmem)) c'.not_before_self

end Search

/-! ## Candidates -/

theorem leavesBase_iff {q : List Char} (hq : q ≠ []) :
    leavesBase q = true ↔ q = Path.here ∨ (Path.segments q).head? = some Path.up := by
  rw [Path.head?_segments_eq_some_iff (by decide)]
  simp [leavesBase, hq, or_assoc]
  rfl

/-- What is tried below one directory, form by form. -/
theorem candidatesIn_eq (base stem : List Char) :
    (candidatesIn base stem).map String.ofList =
      Form.all.flatMap fun form => Extension.all.filterMap (Search.placeIn? stem base form) := by
  have hjoin : (if base.isEmpty then stem else Path.join base stem) = Path.join base stem := by
    cases base <;> simp [Path.join]
  have hne : Path.normal (Path.join base stem) ≠ [] := Path.normal_ne_nil _
  unfold candidatesIn Search.placeIn?
  simp only [hjoin, leavesBase_iff hne]
  generalize Path.normal (Path.join base stem) = q
  by_cases hout : q = Path.here ∨ (Path.segments q).head? = some Path.up
  · simp [hout]
  · simp [hout, forms, Form.all, Form.path, Extension.all, Path.partialMark]

theorem flatMap_eq_range {α β : Type} (f : α → List β) (xs : List α) :
    xs.flatMap f = (List.range xs.length).flatMap fun i => (xs[i]?.map f).getD [] := by
  induction xs with
  | nil => rfl
  | cons x xs ih =>
    rw [List.flatMap_cons, ih, List.length_cons, List.range_succ_eq_map, List.flatMap_cons,
      List.flatMap_map]
    simp

/-- The plan of a reference is its search. -/
theorem searchPlan_eq {importer reference : List Char} {includePaths : List (List Char)} {s : Search}
    (h : s.IsFor importer reference includePaths) :
    searchPlan importer reference includePaths = (s.stem, s.bases) := by
  have hplan : searchPlan importer reference includePaths =
      if rootMark.isPrefixOf (bare reference) then ((bare reference).drop rootMark.length, [[]])
      else if Path.isRooted (bare reference) then ((bare reference).dropWhile (· = '/'), [[]])
      else (bare reference, Path.directory importer :: includePaths) := rfl
  rw [hplan]
  cases h with
  | @marked stem h => simp [h]
  | @rooted n stem h hstem =>
    have hmark : ¬ rootMark <+: List.replicate (n + 1) '/' ++ stem := by
      simp [rootMark, List.replicate_succ]
    have hdrop : (List.replicate (n + 1) '/' ++ stem).dropWhile (· = '/') = stem := by
      rw [List.dropWhile_append_of_pos (by simp +contextual)]
      cases stem with
      | nil => rfl
      | cons c stem => exact List.dropWhile_cons_of_neg (by simpa using hstem)
    rw [h, if_neg (by simpa using hmark), if_pos (by simp [Path.isRooted, List.replicate_succ]), hdrop]
  | relative hmark hslash =>
    rw [if_neg (by simpa using hmark), if_neg (by simpa [Path.isRooted] using hslash)]

/-- A list begins with some number of a character and goes on with another one, or ends. -/
theorem exists_eq_replicate_append (c : Char) :
    ∀ cs : List Char, ∃ n rest, cs = List.replicate n c ++ rest ∧ rest.head? ≠ some c
  | [] => ⟨0, [], rfl, by simp⟩
  | d :: cs => by
    by_cases hd : d = c
    · obtain ⟨n, rest, hcs, hrest⟩ := exists_eq_replicate_append c cs
      exact ⟨n + 1, rest, by rw [hd, hcs, List.replicate_succ, List.cons_append], hrest⟩
    · exact ⟨0, d :: cs, rfl, by simpa using hd⟩

/-- Every reference is looked for in one way. -/
theorem Search.exists_isFor (importer reference : List Char) (includePaths : List (List Char)) :
    ∃ s : Search, ∀ s' : Search, s'.IsFor importer reference includePaths ↔ s' = s := by
  have hsome : ∃ s : Search, s.IsFor importer reference includePaths := by
    by_cases hmark : rootMark <+: bare reference
    · obtain ⟨stem, hstem⟩ := hmark
      exact ⟨_, .marked hstem.symm⟩
    · by_cases hslash : (bare reference).head? = some '/'
      · obtain ⟨rest, hrest⟩ := List.head?_eq_some_iff.1 hslash
        obtain ⟨n, stem, hsplit, hstem⟩ := exists_eq_replicate_append '/' rest
        have hbare : bare reference = List.replicate (n + 1) '/' ++ stem := by
          rw [hrest, hsplit, List.replicate_succ, List.cons_append]
        exact ⟨_, .rooted hbare hstem⟩
      · exact ⟨_, .relative hmark hslash⟩
  obtain ⟨s, hs⟩ := hsome
  refine ⟨s, fun s' => ⟨fun hs' => ?_, fun h => h ▸ hs⟩⟩
  have hplan := (searchPlan_eq hs').symm.trans (searchPlan_eq hs)
  cases s
  cases s'
  simpa using hplan

/-- What the choices below one directory look at. -/
theorem filterMap_target?_below (s : Search) (i : Nat) :
    (Form.all.flatMap fun form => Extension.all.map fun e => (⟨i, form, e⟩ : Choice)).filterMap s.target?
      = (s.bases[i]?.map fun base => (candidatesIn base s.stem).map String.ofList).getD [] := by
  simp only [List.filterMap_flatMap, List.filterMap_map]
  cases hbase : s.bases[i]? with
  | none => simp [Search.target?, Function.comp_def, hbase]
  | some base =>
    rw [Option.map_some, Option.getD_some, candidatesIn_eq]
    simp [Search.target?, Function.comp_def, hbase]

/-- The candidates for a reference are what its choices look at, each path once. -/
theorem candidates_eq {importer reference : String} {includePaths : List String} {s : Search}
    (hs : s.IsFor importer.toList reference.toList (includePaths.map String.toList)) :
    candidates importer reference includePaths = (s.choices.filterMap s.target?).eraseDups := by
  simp only [candidates, searchPlan_eq hs]
  rw [List.map_flatMap, flatMap_eq_range, Search.choices, List.filterMap_flatMap]
  simp only [filterMap_target?_below]

/-- A choice that looks somewhere is below one of the directories. -/
theorem Search.mem_choices_of_target? {s : Search} {c : Choice} {p : String}
    (h : s.target? c = some p) :
    c ∈ s.choices := by
  obtain ⟨base, hbase, -⟩ := Option.bind_eq_some_iff.1 h
  exact mem_choices.2 (List.getElem?_eq_some_iff.1 hbase).1

/-- The candidates are where the choices look. -/
theorem mem_candidates_iff {importer reference : String} {includePaths : List String} {s : Search}
    (hs : s.IsFor importer.toList reference.toList (includePaths.map String.toList)) {p : String} :
    p ∈ candidates importer reference includePaths ↔ ∃ c, s.target? c = some p := by
  rw [candidates_eq hs, List.mem_eraseDups, List.mem_filterMap]
  constructor
  · rintro ⟨c, -, hc⟩
    exact ⟨c, hc⟩
  · rintro ⟨c, hc⟩
    exact ⟨c, Search.mem_choices_of_target? hc, hc⟩

/-! ## The first file -/

/-- Repetitions do not matter for the first answer. -/
theorem findSome?_eraseDups {β : Type} (f : String → Option β) :
    ∀ ps : List String, ps.eraseDups.findSome? f = ps.findSome? f
  | [] => rfl
  | p :: ps => by
    have hlen : (ps.filter fun q => !q == p).length ≤ ps.length := List.length_filter_le _ _
    rw [List.eraseDups_cons, List.findSome?_cons, List.findSome?_cons]
    cases hp : f p with
    | some b => rfl
    | none =>
      -- what is erased comes to nothing, like the path in front
      simp only
      rw [findSome?_eraseDups f (ps.filter fun q => !q == p), ← List.head?_filterMap,
        List.filterMap_filter, ← List.head?_filterMap]
      congr 1
      refine List.filterMap_congr fun q _ => ?_
      by_cases hq : q = p <;> simp [hq, hp]
termination_by ps => ps.length
decreasing_by simp only [List.length_cons]; omega

variable {files : FileSet} {includePaths : List String} {importer reference : String} {s : Search}

/-- What the candidates for a reference come to is what the choices find. -/
theorem findSome?_candidates
    (hs : s.IsFor importer.toList reference.toList (includePaths.map String.toList)) :
    (candidates importer reference includePaths).findSome? files.get?
      = s.choices.findSome? fun c => (s.target? c).bind files.get? := by
  rw [candidates_eq hs, findSome?_eraseDups, ← List.head?_filterMap, List.filterMap_filterMap,
    List.head?_filterMap]

/-- A reference resolves to the file that the first choice finds. -/
theorem resolve_eq_found_iff_first
    (hs : s.IsFor importer.toList reference.toList (includePaths.map String.toList))
    (hx : isExternal reference.toList = false) {f : SourceFile} :
    resolve files includePaths importer reference = .found f ↔ s.First files f := by
  have hfound : resolve files includePaths importer reference = .found f ↔
      s.choices.findSome? (fun c => (s.target? c).bind files.get?) = some f := by
    rw [← findSome?_candidates hs, resolve, if_neg (by simp [hx])]
    cases (candidates importer reference includePaths).findSome? files.get? <;> simp
  rw [hfound, List.findSome?_eq_some_iff]
  constructor
  · rintro ⟨front, c, back, hsplit, hc, hfront⟩
    obtain ⟨p, hp, hf⟩ := Option.bind_eq_some_iff.1 hc
    obtain ⟨hmem, rfl⟩ := FileSet.mem_of_get? hf
    refine ⟨hmem, c, hp, fun c' hbefore p' hp' => ?_⟩
    have hc' := hfront c' ((Search.mem_front_iff hsplit).2 ⟨Search.mem_choices_of_target? hp', hbefore⟩)
    rwa [hp', Option.bind_some] at hc'
  · rintro ⟨hmem, c, hp, hbefore⟩
    obtain ⟨front, back, hsplit⟩ := List.append_of_mem (Search.mem_choices_of_target? hp)
    refine ⟨front, c, back, hsplit, by rw [hp, Option.bind_some, FileSet.get?_of_mem hmem], ?_⟩
    intro c' hc'
    obtain ⟨-, hbefore'⟩ := (Search.mem_front_iff hsplit).1 hc'
    rw [Option.bind_eq_none_iff]
    exact fun p hp => hbefore c' hbefore' p hp

/-- A reference is not resolved when no choice finds a file. -/
theorem resolve_eq_unresolved_iff
    (hs : s.IsFor importer.toList reference.toList (includePaths.map String.toList))
    (hx : isExternal reference.toList = false) :
    resolve files includePaths importer reference = .unresolved ↔
      ∀ c p, s.target? c = some p → files.get? p = none := by
  have hnone : resolve files includePaths importer reference = .unresolved ↔
      s.choices.findSome? (fun c => (s.target? c).bind files.get?) = none := by
    rw [← findSome?_candidates hs, resolve, if_neg (by simp [hx])]
    cases (candidates importer reference includePaths).findSome? files.get? <;> simp
  rw [hnone, List.findSome?_eq_none_iff]
  constructor
  · intro h c p hp
    have hc := h c (Search.mem_choices_of_target? hp)
    rwa [hp, Option.bind_some] at hc
  · intro h c _
    rw [Option.bind_eq_none_iff]
    exact fun p hp => h c p hp

/-- Of the choices that look at the first file, one comes before all others. -/
theorem Search.First.exists_least {f : SourceFile} (h : s.First files f) :
    ∃ d, s.target? d = some f.path ∧
      (∀ c, c.Before d → ∀ p, s.target? c = some p → files.get? p = none) ∧
      ∀ c, s.target? c = some f.path → c = d ∨ d.Before c := by
  obtain ⟨hmem, d, hd, hfirst⟩ := h
  refine ⟨d, hd, hfirst, fun c hc => ?_⟩
  by_contra hneither
  obtain ⟨hne, hlate⟩ := not_or.1 hneither
  have hbefore := (Choice.before_or_before hne).resolve_right hlate
  have hnone := hfirst c hbefore f.path hc
  rw [FileSet.get?_of_mem hmem] at hnone
  exact absurd hnone (by simp)

/-! ## A file more -/

/-- A file at a new path is found there, and what was found is found still. -/
theorem get?_put_of_new {f : SourceFile} (hnew : files.get? f.path = none) (p : String) :
    (files.put f).get? p = if p = f.path then some f else files.get? p := by
  rw [FileSet.get?, FileSet.files_put (FileSet.get?_eq_none_iff.1 hnew), List.find?_append]
  by_cases hp : p = f.path
  · rw [if_pos hp, hp]
    unfold FileSet.get? at hnew
    simp [hnew]
  · rw [if_neg hp]
    simp [FileSet.get?, Ne.symm hp]

/-- What a file set has, it has with a file more. -/
theorem get?_put_of_found {f g : SourceFile} (hnew : files.get? f.path = none) {p : String}
    (hg : files.get? p = some g) : (files.put f).get? p = some g := by
  rw [get?_put_of_new hnew, if_neg, hg]
  rintro rfl
  rw [hnew] at hg
  exact absurd hg (by simp)

theorem get?_eq_none_of_put {f : SourceFile} (hnew : files.get? f.path = none) {p : String}
    (h : (files.put f).get? p = none) : files.get? p = none := by
  cases hg : files.get? p with
  | none => rfl
  | some g =>
    rw [get?_put_of_found hnew hg] at h
    exact absurd h (by simp)

/-- A choice looks at the path of a file before any looks at the answer so far. -/
def Search.Overtakes (s : Search) (answer : Resolution) (f : SourceFile) : Prop :=
  ∃ c, s.target? c = some f.path ∧
    ∀ g, answer = .found g → ∀ c', s.target? c' = some g.path → c.Before c'

theorem resolve_put_of_overtakes
    (hs : s.IsFor importer.toList reference.toList (includePaths.map String.toList))
    (hx : isExternal reference.toList = false) {f : SourceFile} (hnew : files.get? f.path = none)
    (h : s.Overtakes (resolve files includePaths importer reference) f) :
    resolve (files.put f) includePaths importer reference = .found f := by
  obtain ⟨c, hc, hbefore⟩ := h
  have hself : (files.put f).get? f.path = some f := by rw [get?_put_of_new hnew, if_pos rfl]
  cases hafter : resolve (files.put f) includePaths importer reference with
  | external =>
    rw [resolve_eq_external_iff, hx] at hafter
    exact absurd hafter (by simp)
  | unresolved =>
    have hnone := (resolve_eq_unresolved_iff hs hx).1 hafter c f.path hc
    rw [hself] at hnone
    exact absurd hnone (by simp)
  | found g =>
    obtain ⟨hmem, d, hd, hfirst⟩ := (resolve_eq_found_iff_first hs hx).1 hafter
    have hg := FileSet.get?_of_mem hmem
    rw [get?_put_of_new hnew] at hg
    split at hg
    · exact congrArg Resolution.found (Option.some.inj hg).symm
    · -- another answer would have been the answer before, and the choice comes before it
      have hanswer : resolve files includePaths importer reference = .found g := by
        refine (resolve_eq_found_iff_first hs hx).2 ⟨(FileSet.mem_of_get? hg).1, d, hd, ?_⟩
        exact fun c' hc' p hp => get?_eq_none_of_put hnew (hfirst c' hc' p hp)
      have hnone := hfirst c (hbefore g hanswer d hd) f.path hc
      rw [hself] at hnone
      exact absurd hnone (by simp)

theorem resolve_put_of_not_overtakes
    (hs : s.IsFor importer.toList reference.toList (includePaths.map String.toList))
    (hx : isExternal reference.toList = false) {f : SourceFile} (hnew : files.get? f.path = none)
    (h : ¬ s.Overtakes (resolve files includePaths importer reference) f) :
    resolve (files.put f) includePaths importer reference
      = resolve files includePaths importer reference := by
  cases hanswer : resolve files includePaths importer reference with
  | external => rwa [resolve_eq_external_iff, ← resolve_eq_external_iff]
  | unresolved =>
    rw [hanswer] at h
    rw [resolve_eq_unresolved_iff hs hx] at hanswer ⊢
    intro c p hp
    rw [get?_put_of_new hnew, if_neg, hanswer c p hp]
    rintro rfl
    exact h ⟨c, hp, by simp⟩
  | found g =>
    rw [hanswer] at h
    rw [resolve_eq_found_iff_first hs hx] at hanswer ⊢
    obtain ⟨d, hd, hfirst, hleast⟩ := hanswer.exists_least
    have hg := get?_put_of_found hnew (FileSet.get?_of_mem hanswer.1)
    refine ⟨(FileSet.mem_of_get? hg).1, d, hd, fun c hc p hp => ?_⟩
    rw [get?_put_of_new hnew, if_neg, hfirst c hc p hp]
    rintro rfl
    -- a choice in front of the one that finds the answer would overtake it
    apply h
    refine ⟨c, hp, fun g' hg' c' hc' => ?_⟩
    obtain rfl := Resolution.found.inj hg'
    rcases hleast c' hc' with rfl | hbefore
    · exact hc
    · exact hc.trans hbefore

/-- A reference that is not external is looked for in one way.  The answer is the file that the first
choice finds, and there is none exactly when no choice finds a file.  A file more, at a path that was
free, changes the answer exactly when a choice looks at it before any looks at the answer so far, and
then it is the answer. -/
theorem resolve_eq_first (importer : String) {reference : String} (includePaths : List String)
    (files : FileSet) (hx : isExternal reference.toList = false) :
    ∃ s : Search,
      (∀ s' : Search,
        s'.IsFor importer.toList reference.toList (includePaths.map String.toList) ↔ s' = s) ∧
      (∀ f, resolve files includePaths importer reference = .found f ↔ s.First files f) ∧
      (resolve files includePaths importer reference = .unresolved ↔
        ∀ c p, s.target? c = some p → files.get? p = none) ∧
      ∀ f, files.get? f.path = none →
        (resolve (files.put f) includePaths importer reference
            ≠ resolve files includePaths importer reference ↔
          s.Overtakes (resolve files includePaths importer reference) f) ∧
        (resolve (files.put f) includePaths importer reference
            ≠ resolve files includePaths importer reference →
          resolve (files.put f) includePaths importer reference = .found f) := by
  obtain ⟨s, hs'⟩ := Search.exists_isFor importer.toList reference.toList (includePaths.map String.toList)
  have hs := (hs' s).2 rfl
  refine ⟨s, hs', fun f => resolve_eq_found_iff_first hs hx, resolve_eq_unresolved_iff hs hx, ?_⟩
  intro f hnew
  have hovertakes : resolve (files.put f) includePaths importer reference
      ≠ resolve files includePaths importer reference →
        s.Overtakes (resolve files includePaths importer reference) f := fun hne =>
    by_contra fun h => hne (resolve_put_of_not_overtakes hs hx hnew h)
  refine ⟨⟨hovertakes, fun h hsame => ?_⟩, fun hne => ?_⟩
  · rw [resolve_put_of_overtakes hs hx hnew h] at hsame
    have hmem := mem_of_resolve_eq_found hsame.symm
    rw [FileSet.get?_of_mem hmem] at hnew
    exact absurd hnew (by simp)
  · exact resolve_put_of_overtakes hs hx hnew (hovertakes hne)

/-- A file beside the importing one is preferred to a partial below an include path, and a partial that
is added beside it is preferred to both. -/
theorem resolve_button :
    let included : SourceFile := ⟨"lib/_button.scss", [], "", none, true⟩
    let beside : SourceFile := ⟨"pages/button.scss", [], "", none, true⟩
    let added : SourceFile := ⟨"pages/_button.sass", [], "", none, true⟩
    let files : FileSet := ⟨[included, beside], by decide⟩
    isExternal " button.scss".toList = false ∧
      resolve files ["lib"] "pages/a.scss" " button.scss" = .found beside ∧
      resolve (files.put added) ["lib"] "pages/a.scss" " button.scss" = .found added := by
  intro included beside added files
  have hx : isExternal " button.scss".toList = false := by decide
  have hbeside : resolve files ["lib"] "pages/a.scss" " button.scss" = .found beside := by rfl
  obtain ⟨s, hs, -, -, hadd⟩ := resolve_eq_first "pages/a.scss" ["lib"] files hx
  obtain rfl := (hs ⟨"button".toList, ["pages".toList, "lib".toList]⟩).1
    (.relative (by decide) (by decide))
  obtain ⟨hiff, hadded⟩ := hadd added (by rfl)
  refine ⟨hx, hbeside, hadded (hiff.2 ⟨⟨0, .marked, .sass⟩, by decide, ?_⟩)⟩
  rw [hbeside]
  rintro g hg c hc
  obtain rfl := Resolution.found.inj hg
  -- no choice before it, and not the one itself, looks at the answer
  by_contra hlate
  obtain ⟨i, form, e⟩ := c
  simp only [Choice.Before, Form.rank] at hlate
  obtain rfl : i = 0 := by omega
  obtain rfl : form = .marked := Form.rank_injective (by simp only [Form.rank]; omega)
  cases e <;> exact absurd hc (by decide)

end SheetBuild.Import
