import SheetBuild.Proofs.Build.Stages
import SheetBuild.Proofs.Disk.Listing
import SheetBuild.Proofs.Path.Normal
import SheetBuild.Proofs.Project.Configuration
set_option autoImplicit false

/-!
# Collecting the stylesheets of a project

The stylesheets of a project are the files with one of the two extensions that are not left out on
account of a directory on the way (`IsSheet`).  Each is collected once, as a source file that carries its
content, its digest and the target of the first directory that is named for one.  Its path is brought
into canonical form, though, and that form need not be the path on disk: a backslash becomes a slash, and
blanks in front are dropped.  So a sheet may have no path at all, and two sheets may come to one path,
which no batch accepts (`collect_sheets`).  Where the names are plain, neither happens.
-/

namespace SheetBuild.Project

open SheetBuild.Disk (Place Tree)
open SheetBuild.Path (Extension)

variable {t : Tree} {root rel : Place} {c : Config} {content : Bytes} {f : SourceFile}

/-! ## Stylesheets -/

/-- A stylesheet of a project, by the names on the way to it from the root. -/
structure IsSheet (t : Tree) (root : Place) (c : Config) (rel : Place) (content : Bytes) : Prop where
  file : t.node? (root ++ rel) = some (.file content)
  named : ∃ name, rel.getLast? = some name ∧
    ∃ (stem : List Char) (e : Extension), stem ≠ [] ∧ name.toList = stem ++ e.text
  shown : ∀ d ∈ rel.dropLast, ¬ ['.'] <+: d.toList ∧ d ≠ "node_modules"
  kept : ∀ directory ∈ [c.cachePath, c.outputPath],
    (root ++ rel).isBelow (Place.join root directory).resolve = false

theorem isIgnoredName_eq_false_iff {d : String} :
    isIgnoredName d = false ↔ ¬ ['.'] <+: d.toList ∧ d ≠ "node_modules" := by
  rw [isIgnoredName, Bool.or_eq_false_iff, ← Bool.not_eq_true, String.startsWith_string_iff]
  simp

theorem suffix_append (front : List Char) {extension : List Char} (h : '.' ∉ extension) :
    suffix (front ++ '.' :: extension) =
      if extension = [] ∨ front = [] then [] else '.' :: extension := by
  have htake : (front ++ '.' :: extension).take
      ((front ++ '.' :: extension).length - extension.length - 1) = front := by
    have hlength : (front ++ '.' :: extension).length - extension.length - 1 = front.length := by
      simp only [List.length_append, List.length_cons]
      omega
    rw [hlength, List.take_left]
  have hlonger : extension.length ≠ (front ++ '.' :: extension).length := by
    simp only [List.length_append, List.length_cons]
    omega
  rw [suffix, Path.takeWhile_reverse_append front h, htake]
  simp only [hlonger, or_false]

/-- The suffix of a name is an extension where the name ends in it and has something before it. -/
theorem suffix_eq_text_iff {name : List Char} {e : Extension} :
    e.text = suffix name ↔ ∃ stem, stem ≠ [] ∧ name = stem ++ e.text := by
  obtain ⟨extension, htext, hne, hperiod⟩ :
      ∃ extension, e.text = '.' :: extension ∧ extension ≠ [] ∧ '.' ∉ extension := by
    cases e with
    | scss => exact ⟨"scss".toList, rfl, by decide, by decide⟩
    | sass => exact ⟨"sass".toList, rfl, by decide, by decide⟩
  constructor
  · intro h
    by_cases hmem : '.' ∈ name
    · obtain ⟨front, rest, rfl, hrest⟩ := Path.exists_last hmem
      rw [suffix_append front hrest] at h
      split at h
      · exact absurd (htext.symm.trans h) (by simp)
      · rename_i hsome
        exact ⟨front, (not_or.1 hsome).2, by rw [h]⟩
    · rw [suffix, Path.takeWhile_reverse_of_not_mem hmem] at h
      exact absurd (htext.symm.trans h) (by simp)
  · rintro ⟨stem, hstem, rfl⟩
    rw [htext, suffix_append stem hperiod, if_neg (not_or.2 ⟨hne, hstem⟩)]

theorem isStylesheet_iff {name : String} : isStylesheet name = true ↔
    ∃ (stem : List Char) (e : Extension), stem ≠ [] ∧ name.toList = stem ++ e.text := by
  have he (e : Extension) : e ∈ Extension.all := by cases e <;> decide
  simp only [isStylesheet, List.any_eq_true, decide_eq_true_eq, suffix_eq_text_iff]
  constructor
  · rintro ⟨e, -, stem, hstem⟩
    exact ⟨stem, e, hstem⟩
  · rintro ⟨stem, e, hstem⟩
    exact ⟨e, he e, stem, hstem⟩

theorem isSheet_iff : IsSheet t root c rel content ↔
    t.node? (root ++ rel) = some (.file content) ∧ takesPart root c rel = true := by
  have htakes : takesPart root c rel = true ↔
      (∃ name, rel.getLast? = some name ∧ isStylesheet name = true) ∧
        (∀ d ∈ rel.dropLast, isIgnoredName d = false) ∧
        ∀ directory ∈ [c.cachePath, c.outputPath],
          (root ++ rel).isBelow (Place.join root directory).resolve = false := by
    simp [takesPart, outputPlaces, Option.any_eq_true, and_assoc]
  simp only [htakes, isStylesheet_iff, isIgnoredName_eq_false_iff]
  constructor
  · rintro ⟨hfile, hnamed, hshown, hkept⟩
    exact ⟨hfile, hnamed, hshown, hkept⟩
  · rintro ⟨hfile, hnamed, hshown, hkept⟩
    exact ⟨hfile, hnamed, hshown, hkept⟩

/-- The stylesheets of a project in the order in which they are collected. -/
def sheets (t : Tree) (root : Place) (c : Config) : List (Place × Bytes) :=
  ((t.filesBelow root).filter fun f => takesPart root c f.1).mergeSort fun f g => precedes f.1 g.1

theorem mem_sheets_iff (ht : t.Orderly) :
    (rel, content) ∈ sheets t root c ↔ IsSheet t root c rel content := by
  rw [sheets, List.mem_mergeSort, List.mem_filter, ht.mem_filesBelow_iff, isSheet_iff]
  constructor
  · rintro ⟨⟨-, hfile⟩, htakes⟩
    exact ⟨hfile, htakes⟩
  · rintro ⟨hfile, htakes⟩
    refine ⟨⟨?_, hfile⟩, htakes⟩
    rintro rfl
    exact absurd htakes (by simp [takesPart])

theorem nodup_sheets (ht : t.Orderly) (root : Place) (c : Config) : (sheets t root c).Nodup :=
  (List.mergeSort_perm _ _).nodup_iff.2 ((ht.nodup_filesBelow root).filter _)

/-! ## Source files -/

/-- The target that directories assign a file to. -/
def IsTarget (directories : List String) : Option String → Prop
  | none => ∀ d ∈ directories, d ∉ targetNames
  | some n => ∃ front back, directories = front ++ n :: back ∧ n ∈ targetNames ∧
      ∀ d ∈ front, d ∉ targetNames

theorem isTarget_iff {directories : List String} {target : Option String} :
    IsTarget directories target ↔ directories.find? targetNames.contains = target := by
  cases target with
  | none => simp [IsTarget]
  | some n =>
    rw [IsTarget, List.find?_eq_some_iff_append]
    constructor
    · rintro ⟨front, back, heq, hn, hfront⟩
      exact ⟨by simpa using hn, front, back, heq, by simpa using hfront⟩
    · rintro ⟨hn, front, back, heq, hfront⟩
      exact ⟨front, back, heq, by simpa using hn, by simpa using hfront⟩

/-- The source file that a stylesheet is collected as. -/
structure Represents (c : Config) (rel : Place) (bytes : Bytes) (f : SourceFile) : Prop where
  path : Path.normalize (String.intercalate "/" rel) = .ok f.path
  content : f.content = bytes
  digest : f.contentHash = SheetBuild.contentHash bytes
  target : IsTarget rel.dropLast f.target
  candidate : f.entryCandidate = !Glob.isAnyMatch c.importOnly (String.intercalate "/" rel)

theorem sourceAt_eq_ok_iff : sourceAt c rel content = .ok f ↔ Represents c rel content f := by
  obtain ⟨path, bytes, digest, target, candidate⟩ := f
  have hrepresents : Represents c rel content ⟨path, bytes, digest, target, candidate⟩ ↔
      Path.normalize (String.intercalate "/" rel) = .ok path ∧ bytes = content ∧
        digest = SheetBuild.contentHash content ∧ targetOf rel = target ∧
        candidate = !Glob.isAnyMatch c.importOnly (String.intercalate "/" rel) :=
    ⟨fun h => ⟨h.path, h.content, h.digest, isTarget_iff.1 h.target, h.candidate⟩,
      fun ⟨hpath, hcontent, hdigest, htarget, hcandidate⟩ =>
        ⟨hpath, hcontent, hdigest, isTarget_iff.2 htarget, hcandidate⟩⟩
  rw [hrepresents, sourceAt, SourceFile.ofContent]
  cases Path.normalize (String.intercalate "/" rel) with
  | error e => simp [Except.map]
  | ok p => simp [Except.map, eq_comm]

theorem exists_represents_iff : (∃ f, Represents c rel content f) ↔
    ∃ p, Path.normalize (String.intercalate "/" rel) = .ok p := by
  constructor
  · rintro ⟨f, hf⟩
    exact ⟨f.path, hf.path⟩
  · rintro ⟨p, hp⟩
    exact ⟨⟨p, content, SheetBuild.contentHash content, targetOf rel, _⟩, hp, rfl, rfl,
      isTarget_iff.2 rfl, rfl⟩

/-! ## Collecting -/

theorem collect_eq_ok_iff {files : List SourceFile} : collect t root c = .ok files ↔
    c.IsPlaceable ∧
      List.Forall₂ (fun s f => Represents c s.1 s.2 f) (sheets t root c) files := by
  have hfiles : ((sheets t root c).mapM fun s => sourceAt c s.1 s.2) = .ok files ↔
      List.Forall₂ (fun s f => Represents c s.1 s.2 f) (sheets t root c) files := by
    rw [mapM_eq_ok_iff]
    simp only [sourceAt_eq_ok_iff]
  rw [← hfiles]
  rw [← Config.find?_eq_none_iff_isPlaceable]
  unfold collect
  split
  · rename_i d hfound
    simp [hfound]
  · rename_i hnone
    simp only [hnone, true_and]
    change Except.mapError _ ((sheets t root c).mapM fun s => sourceAt c s.1 s.2) = _ ↔ _
    cases (sheets t root c).mapM fun s => sourceAt c s.1 s.2 <;> simp [Except.mapError]

/-! ## Paths -/

/-- The names on the way to a file are plain: no backslash in them, and no blank in front. -/
def IsPlain (rel : Place) : Prop :=
  (∀ name ∈ rel, '\\' ∉ name.toList) ∧
    ∀ name, rel.head? = some name → ∀ first, name.toList.head? = some first →
      Text.isBlank first = false

/-- There are names on the way to a stylesheet, and they are such as a directory can hold. -/
theorem IsSheet.isDiskName (ht : t.Orderly) (h : IsSheet t root c rel content) :
    rel ≠ [] ∧ ∀ name ∈ rel, Place.IsDiskName name := by
  obtain ⟨name, hname, -⟩ := h.named
  constructor
  · rintro rfl
    exact absurd hname (by simp)
  · intro name' hname'
    exact ht.isDiskName_of_node? h.file (List.mem_append_right root hname')

theorem IsSheet.segments_eq (ht : t.Orderly) (h : IsSheet t root c rel content) :
    Path.segments (String.intercalate "/" rel).toList = rel.map String.toList := by
  obtain ⟨hne, hnames⟩ := h.isDiskName ht
  exact Place.segments_intercalate hne fun name hname => (hnames name hname).2

theorem IsSheet.isCanonical (ht : t.Orderly) (h : IsSheet t root c rel content) :
    Path.IsCanonical (String.intercalate "/" rel).toList := by
  intro s hs
  rw [h.segments_eq ht] at hs
  obtain ⟨name, hname, rfl⟩ := List.mem_map.1 hs
  exact ((h.isDiskName ht).2 name hname).1

/-- The text of a path begins with its first name. -/
theorem IsSheet.head?_eq (ht : t.Orderly) (h : IsSheet t root c rel content) :
    (String.intercalate "/" rel).toList.head? = rel.head?.bind (·.toList.head?) := by
  obtain ⟨hne, hnames⟩ := h.isDiskName ht
  obtain ⟨name, names, rfl⟩ := List.exists_cons_of_ne_nil hne
  obtain ⟨first, rest, hname⟩ := List.exists_cons_of_ne_nil (hnames name List.mem_cons_self).1.nonempty
  rw [Place.toList_intercalate_slash, List.map_cons, List.head?_cons, Option.bind_some, hname]
  cases names with
  | nil => rfl
  | cons name' names => rfl

/-- The text of a path ends in an extension. -/
theorem IsSheet.getLast?_eq (h : IsSheet t root c rel content) :
    (String.intercalate "/" rel).toList.getLast? = some 's' := by
  obtain ⟨name, hname, stem, e, -, hstem⟩ := h.named
  obtain ⟨directories, rfl⟩ := List.getLast?_eq_some_iff.1 hname
  have hsuffix : e.text <:+ (String.intercalate "/" (directories ++ [name])).toList := by
    rw [Place.toList_intercalate_slash, List.map_append, List.map_singleton]
    refine List.IsSuffix.trans ⟨stem, hstem.symm⟩ ?_
    exact Path.isSuffix_joinSegments _ _
  obtain ⟨front, hfront⟩ := hsuffix
  rw [← hfront, List.getLast?_append]
  cases e <;> rfl

/-- A stylesheet has the path that it has on disk exactly where its names are plain. -/
theorem normalize_eq_self_iff_isPlain (ht : t.Orderly) (h : IsSheet t root c rel content) :
    Path.normalize (String.intercalate "/" rel) = .ok (String.intercalate "/" rel) ↔ IsPlain rel := by
  have hbackslash : '\\' ∉ (String.intercalate "/" rel).toList ↔ ∀ name ∈ rel, '\\' ∉ name.toList := by
    rw [← Path.exists_mem_segments_iff (by decide), h.segments_eq ht]
    simp
  have hblank : (∀ ch, (String.intercalate "/" rel).toList.head? = some ch → Text.isBlank ch = false) ↔
      ∀ name, rel.head? = some name → ∀ first, name.toList.head? = some first →
        Text.isBlank first = false := by
    rw [h.head?_eq ht]
    cases rel.head? <;> simp
  rw [Path.normalize_eq_self_iff, IsPlain, ← hbackslash, ← hblank]
  constructor
  · rintro ⟨-, hcleaned⟩
    -- cleaning leaves no backslash, and then it only trims
    have hslash := Path.backslash_not_mem_cleaned (String.intercalate "/" rel).toList
    rw [hcleaned] at hslash
    rw [Path.cleaned_of_not_mem hslash] at hcleaned
    exact ⟨hslash, fun ch hch => Text.isBlank_head hcleaned hch⟩
  · rintro ⟨hslash, hhead⟩
    refine ⟨h.isCanonical ht, ?_⟩
    rw [Path.cleaned_of_not_mem hslash]
    refine Text.trim_eq_self hhead fun ch hch => ?_
    rw [h.getLast?_eq] at hch
    exact Option.some.inj hch ▸ rfl

/-- Two stylesheets come to one path. -/
def Clash (t : Tree) (root : Place) (c : Config) : Prop :=
  ∃ rel content rel' content' path, rel ≠ rel' ∧
    IsSheet t root c rel content ∧ Path.normalize (String.intercalate "/" rel) = .ok path ∧
    IsSheet t root c rel' content' ∧ Path.normalize (String.intercalate "/" rel') = .ok path

/-- Collected files have distinct paths exactly where no two stylesheets come to one. -/
theorem nodup_paths_iff (ht : t.Orderly) {files : List SourceFile}
    (hfiles : List.Forall₂ (fun s f => Represents c s.1 s.2 f) (sheets t root c) files) :
    (files.map (·.path)).Nodup ↔ ¬ Clash t root c := by
  -- the paths are what the sheets come to, so they are distinct where that is injective
  have hpaths : (files.map (·.path)).map Except.ok
      = (sheets t root c).map fun s => Path.normalize (String.intercalate "/" s.1) := by
    rw [List.map_map, eq_comm, ← List.forall₂_eq_eq_eq, List.forall₂_map_left_iff,
      List.forall₂_map_right_iff]
    exact hfiles.imp fun s f hf => hf.path
  have hinjective : Function.Injective (Except.ok (ε := Path.PathError) (α := String)) :=
    fun p q h => Except.ok.inj h
  rw [← List.nodup_map_iff hinjective, hpaths, List.nodup_map_iff_inj_on (nodup_sheets ht root c)]
  constructor
  · rintro hdistinct ⟨rel, content, rel', content', path, hne, hs, hp, hs', hp'⟩
    have hsame := hdistinct _ ((mem_sheets_iff ht).2 hs) _ ((mem_sheets_iff ht).2 hs') (hp.trans hp'.symm)
    exact hne (congrArg Prod.fst hsame)
  · rintro hclash ⟨rel, content⟩ hs ⟨rel', content'⟩ hs' hsame
    obtain ⟨f, hf⟩ := exists_forall₂_iff.1 ⟨files, hfiles⟩ _ hs
    rw [mem_sheets_iff ht] at hs hs'
    have hrel : rel = rel' := by
      by_contra hne
      exact hclash ⟨rel, content, rel', content', f.path, hne, hs, hf.path, hs', hsame ▸ hf.path⟩
    subst hrel
    have hcontent := Option.some.inj (hs.file.symm.trans hs'.file)
    rw [Disk.Node.file.inj hcontent]

/-- Collecting the stylesheets of a project gives a list exactly where the directories that a build
writes to have names, and every stylesheet has a path.  The list holds every stylesheet once, with its
content, its digest and its target, and with the path that it has on disk where its names are plain; a
batch over it is refused exactly where two stylesheets come to one path.  Where all names are plain, all
have a path, and no two have the same. -/
theorem collect_sheets (ht : t.Orderly) (root : Place) (c : Config) :
    ((∃ files, collect t root c = .ok files) ↔
      c.IsPlaceable ∧ ∀ rel content, IsSheet t root c rel content →
        ∃ path, Path.normalize (String.intercalate "/" rel) = .ok path) ∧
    (∀ files, collect t root c = .ok files →
      (∃ found : List (Place × Bytes), found.Nodup ∧
        (∀ rel content, (rel, content) ∈ found ↔ IsSheet t root c rel content) ∧
        List.Forall₂ (fun s f => Represents c s.1 s.2 f ∧
          (f.path = String.intercalate "/" s.1 ↔ IsPlain s.1)) found files) ∧
      ∀ (context : Build.Context) compiler store target, context.closed = false →
        ((∃ path, Build.run context compiler store files target = .error (.duplicate path)) ↔
          Clash t root c)) ∧
    ((∀ rel content, IsSheet t root c rel content → IsPlain rel) →
      (∀ rel content, IsSheet t root c rel content →
        ∃ path, Path.normalize (String.intercalate "/" rel) = .ok path) ∧
      ¬ Clash t root c) := by
  refine ⟨?_, fun files hcollect => ⟨⟨sheets t root c, nodup_sheets ht root c, ?_, ?_⟩, ?_⟩, ?_⟩
  · simp only [collect_eq_ok_iff, exists_and_left, exists_forall₂_iff, exists_represents_iff]
    simp only [Prod.forall, mem_sheets_iff ht]
  · exact fun rel content => mem_sheets_iff ht
  · have hall : ∀ s ∈ sheets t root c, IsSheet t root c s.1 s.2 := fun s hs => (mem_sheets_iff ht).1 hs
    have hfiles := (List.forall₂_and_left _ _).2 ⟨hall, (collect_eq_ok_iff.1 hcollect).2⟩
    refine hfiles.imp fun s f hsf => ⟨hsf.2, ?_⟩
    rw [← normalize_eq_self_iff_isPlain ht hsf.1, hsf.2.path, Except.ok.injEq]
  · intro context compiler store target hopen
    obtain ⟨-, hfiles⟩ := collect_eq_ok_iff.1 hcollect
    rw [Build.run_eq_duplicate_iff hopen, nodup_paths_iff ht hfiles, not_not]
  · intro hplain
    refine ⟨fun rel content hs => ?_, ?_⟩
    · exact ⟨_, (normalize_eq_self_iff_isPlain ht hs).2 (hplain rel content hs)⟩
    · rintro ⟨rel, content, rel', content', path, hne, hs, hp, hs', hp'⟩
      rw [(normalize_eq_self_iff_isPlain ht hs).2 (hplain rel content hs)] at hp
      rw [(normalize_eq_self_iff_isPlain ht hs').2 (hplain rel' content' hs')] at hp'
      have hsame := hs.segments_eq ht
      rw [Except.ok.inj (hp.trans hp'.symm), hs'.segments_eq ht] at hsame
      exact hne (List.map_injective_iff.2 (fun _ _ h => String.toList_injective h) hsame).symm

/-- A project with two sheets whose names differ in a blank in front. -/
def blankTree : Tree :=
  ⟨[(["p"], .directory), (["p", " a.scss"], .file []), (["p", "a.scss"], .file [])]⟩

/-- The source file of an empty sheet. -/
def blankSheet : SourceFile := ⟨"a.scss", [], contentHash [], none, true⟩

/-- The two sheets of this project come to one path, and no batch takes them. -/
theorem collect_blankTree : blankTree.Orderly ∧
    collect blankTree ["p"] {} = .ok [blankSheet, blankSheet] ∧
      ∀ compiler store target, ∃ path,
        Build.run {} compiler store [blankSheet, blankSheet] target = .error (.duplicate path) := by
  have horderly : blankTree.Orderly := ⟨by decide, by decide⟩
  have hsheets : sheets blankTree ["p"] {} = [([" a.scss"], []), (["a.scss"], [])] := by
    have hfound : ((blankTree.filesBelow ["p"]).filter fun f => takesPart ["p"] {} f.1)
        = [([" a.scss"], []), (["a.scss"], [])] := by
      decide +kernel
    rw [sheets, hfound]
    exact List.mergeSort_of_pairwise (by decide)
  have hcollect : collect blankTree ["p"] {} = .ok [blankSheet, blankSheet] := by
    refine collect_eq_ok_iff.2 ⟨⟨by decide, by decide⟩, ?_⟩
    rw [hsheets]
    refine .cons ⟨by decide, rfl, rfl, isTarget_iff.2 rfl, rfl⟩ (.cons ?_ .nil)
    exact ⟨by decide, rfl, rfl, isTarget_iff.2 rfl, rfl⟩
  have hclash : Clash blankTree ["p"] {} := by
    have hmem : ∀ s ∈ sheets blankTree ["p"] {}, IsSheet blankTree ["p"] {} s.1 s.2 := fun s hs =>
      (mem_sheets_iff horderly).1 hs
    rw [hsheets, List.forall_mem_cons, List.forall_mem_singleton] at hmem
    exact ⟨[" a.scss"], [], ["a.scss"], [], "a.scss", by decide, hmem.1, by decide, hmem.2, by decide⟩
  obtain ⟨-, hfiles, -⟩ := collect_sheets horderly ["p"] {}
  refine ⟨horderly, hcollect, fun compiler store target => ?_⟩
  exact ((hfiles _ hcollect).2 {} compiler store target rfl).2 hclash

end SheetBuild.Project
