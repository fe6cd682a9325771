import SheetBuild.Proofs.Path.Normal
import SheetBuild.Proofs.Project.Configuration
import SheetBuild.Proofs.Record.Accepted
set_option autoImplicit false

/-!
# Paths that are normalized again

A path is trimmed before its segments are looked at.  Where a segment without effect stood between a
slash and a blank, the blank is at an end of the path that is given, and is trimmed when that path is
normalized in its turn; then the second path is another one, or there is none.  So normalizing again
leaves a path alone exactly where it has no blank at its ends, and a record that is built from the
fields of another has the paths of that one exactly where they have none (`rebuilt_iff_isTrimmed`).
-/

namespace SheetBuild.Text

/-- A text that has no blank at its ends. -/
structure IsTrimmed (cs : List Char) : Prop where
  front : ∀ c, cs.head? = some c → isBlank c = false
  back : ∀ c, cs.getLast? = some c → isBlank c = false

/-- A trimmed text does not end with a blank. -/
theorem isBlank_getLast {cs : List Char} (h : trim cs = cs) {c : Char} (hc : cs.getLast? = some c) :
    isBlank c = false := by
  obtain ⟨r, rfl⟩ := List.getLast?_eq_some_iff.1 hc
  rw [← Bool.not_eq_true]
  intro hblank
  -- the end of what is left of the front is the blank still, unless nothing is left
  have hshort : (trim (r ++ [c])).length ≤ r.length := by
    rw [trim, trimWhile, List.dropWhile_append]
    split
    · rw [List.dropWhile_cons_of_pos hblank]
      exact Nat.zero_le _
    · rw [dropEndWhile, List.reverse_append, List.reverse_singleton, List.singleton_append,
        List.dropWhile_cons_of_pos hblank]
      have hdrop := (dropEndWhile_sublist isBlank (r.dropWhile isBlank)).length_le
      exact hdrop.trans (List.dropWhile_sublist _).length_le
  rw [h] at hshort
  exact absurd hshort (by simp)

theorem trim_eq_self_iff {cs : List Char} : trim cs = cs ↔ IsTrimmed cs :=
  ⟨fun h => ⟨fun _ hc => isBlank_head h hc, fun _ hc => isBlank_getLast h hc⟩,
    fun h => trim_eq_self h.front h.back⟩

end SheetBuild.Text

namespace SheetBuild.Path

open SheetBuild.Text (IsTrimmed)

/-- A path that was given is given again exactly where it has no blank at its ends. -/
theorem normalize_again_iff {written path : String} (h : normalize written = .ok path) :
    normalize path = .ok path ↔ IsTrimmed path.toList := by
  rw [normalize_eq_self_iff, cleaned_of_not_mem (backslash_not_mem_of_normalize h),
    Text.trim_eq_self_iff]
  exact and_iff_right (isCanonical_of_normalize h)

/-- A path is trimmed where each of the segments it was made of is. -/
theorem isTrimmed_of_normalize {written path : String} (h : normalize written = .ok path)
    (hsegments : ∀ s ∈ segments (cleaned written.toList), IsTrimmed s) : IsTrimmed path.toList := by
  obtain ⟨-, ss, hss, rfl⟩ := normalize_eq_ok_iff.1 h
  obtain ⟨hne, hnames⟩ := canonical?_eq_some hss
  obtain ⟨rfl, -, -⟩ := canonical?_eq_some_iff.1 hss
  have htrimmed (s) (hs : s ∈ collapse (isRooted (cleaned written.toList)) _) : IsTrimmed s :=
    hsegments s ((collapse_sublist _ _).subset hs)
  rw [String.toList_ofList]
  constructor
  · obtain ⟨s, rest, hs⟩ := List.exists_cons_of_ne_nil hne
    have hmem := hs ▸ List.mem_cons_self
    obtain ⟨c, r, rfl⟩ := List.exists_cons_of_ne_nil (hnames s hmem).1.nonempty
    have hhead : (joinSegments ((c :: r) :: rest)).head? = some c := by cases rest <;> rfl
    rw [hs, hhead]
    exact (htrimmed _ hmem).front
  · rcases List.eq_nil_or_concat (collapse (isRooted (cleaned written.toList)) _) with hnil | ⟨init, s, hs⟩
    · exact absurd hnil hne
    rw [List.concat_eq_append] at hs
    have hmem := hs ▸ List.mem_append_right init (List.mem_singleton_self s)
    obtain ⟨front, hfront⟩ := isSuffix_joinSegments init s
    rw [hs, ← hfront, List.getLast?_append_of_ne_nil _ (hnames s hmem).1.nonempty]
    exact (htrimmed _ hmem).back

end SheetBuild.Path

namespace SheetBuild

open SheetBuild.Text (IsTrimmed)

/-! ## Records -/

/-- The fields that a source file has. -/
def SourceFile.fields (f : SourceFile) : Record.Fields :=
  [("path", .value (.text f.path)), ("content", .bytes f.content),
    ("content_hash", .value (.text f.contentHash)), ("target", .value (.ofText? f.target)),
    ("is_entry_candidate", .value (.bool f.entryCandidate))]

/-- Read again, the digest is the same, unless it is empty. -/
theorem SourceFile.hashField_fields (f : SourceFile) : hashField f.fields =
    .ok (if f.contentHash = "" then SheetBuild.contentHash f.content else f.contentHash) := by
  have hhash : Record.lookup f.fields "content_hash" = some (.value (.text f.contentHash)) := rfl
  have hcontent : Record.lookup f.fields "content" = some (.bytes f.content) := rfl
  unfold hashField
  rw [hhash, hcontent]
  by_cases hempty : f.contentHash = ""
  · simp [isAbsent, hempty]
  · simp [isAbsent, hempty, Record.defaulted, hhash, Record.name, Record.located]

/-- A source file that is built from the fields of another has everything of that one but its path,
which is normalized again, and a digest where that one had none. -/
theorem SourceFile.ofFields_fields {f g : SourceFile} : ofFields f.fields = .ok g ↔
    Path.normalize f.path = .ok g.path ∧ f.content = g.content ∧
      (if f.contentHash = "" then SheetBuild.contentHash f.content else f.contentHash) = g.contentHash ∧
      f.target = g.target ∧ f.entryCandidate = g.entryCandidate := by
  have hpath : pathField f.fields = .ok g.path ↔ Path.normalize f.path = .ok g.path := by
    rw [pathField_eq_ok_iff]
    exact ⟨fun ⟨_, hp, h⟩ => by cases hp; exact h, fun h => ⟨f.path, rfl, h⟩⟩
  have hcontent : Record.required f.fields "content" Record.bytes = .ok f.content := rfl
  have htarget : Record.optional f.fields "target" Record.name = .ok f.target := by
    unfold Record.optional Record.defaulted
    cases ht : f.target <;> simp [fields, Record.lookup, ht, Json.Value.ofText?, Record.nullable,
      Record.name, Record.located, Except.map]
  have hcandidate : Record.defaulted f.fields "is_entry_candidate" true Record.flag
      = .ok f.entryCandidate := rfl
  rw [ofFields_eq_ok_iff, hpath, hcontent, hashField_fields, htarget, hcandidate]
  simp only [Except.ok.injEq]

/-- The fields that options have. -/
def CompileOptions.fields (o : CompileOptions) : Record.Fields :=
  [("include_paths", .value (.array (o.includePaths.map .text))),
    ("output_mode", .value (.text o.outputMode.word)), ("source_maps", .value (.bool o.sourceMaps))]

theorem CompileOptions.canonicalPaths_eq_ok_iff {paths ps : List String} :
    canonicalPaths paths = .ok ps ↔
      List.Forall₂ (fun written path => Path.normalize written = .ok path) paths ps := by
  rw [← Project.mapM_eq_ok_iff]
  unfold canonicalPaths
  cases paths.mapM Path.normalize <;> simp

/-- Options that are built from the fields of others have everything of those but their include paths,
each of which is normalized again. -/
theorem CompileOptions.ofFields_fields {o o' : CompileOptions} : ofFields o.fields = .ok o' ↔
    List.Forall₂ (fun written path => Path.normalize written = .ok path) o.includePaths
        o'.includePaths ∧
      o.outputMode = o'.outputMode ∧ o.sourceMaps = o'.sourceMaps := by
  have hpaths : Record.listOf o.fields "include_paths" Record.name = .ok o.includePaths :=
    Record.items_name_eq_ok_iff.2 rfl
  have hmode : Record.defaulted o.fields "output_mode" .expanded OutputMode.ofRaw
      = .ok o.outputMode := by
    simp [Record.defaulted, Record.lookup, fields, OutputMode.ofRaw, Record.located]
  have hmaps : Record.defaulted o.fields "source_maps" false Record.flag = .ok o.sourceMaps := rfl
  rw [ofFields_eq_ok_iff, hpaths, hmode, hmaps, ← canonicalPaths_eq_ok_iff]
  simp only [Except.bind, Except.ok.injEq]

/-- Every include path of options that are accepted is one that is given for some path. -/
theorem CompileOptions.exists_written {fields : Record.Fields} {o : CompileOptions}
    (h : ofFields fields = .ok o) {path : String} (hpath : path ∈ o.includePaths) :
    ∃ written, Path.normalize written = .ok path := by
  obtain ⟨hpaths, -, -⟩ := ofFields_eq_ok_iff.1 h
  obtain ⟨paths, -, hcanonical⟩ := Record.bind_eq_ok_iff.1 hpaths
  obtain ⟨i, hi, rfl⟩ := List.mem_iff_getElem.1 hpath
  have hall := List.forall₂_iff_get.1 (canonicalPaths_eq_ok_iff.1 hcanonical)
  exact ⟨_, hall.2 i (hall.1 ▸ hi) hi⟩

/-- A path that is given is given again where it has no blank at its ends, as it is where no segment
of the path as written has one, and only there.  A source file that is built from the fields of another
has its path, and options that are built from the fields of others have their include paths, exactly
where this holds of the path and of each of the include paths. -/
theorem rebuilt_iff_isTrimmed (written : String) (fields : Record.Fields) :
    (∀ path, Path.normalize written = .ok path →
      (Path.normalize path = .ok path ↔ IsTrimmed path.toList) ∧
        ((∀ s ∈ Path.segments (Path.cleaned written.toList), IsTrimmed s) →
          Path.normalize path = .ok path)) ∧
      (∀ f, SourceFile.ofFields fields = .ok f →
        ((∃ g, SourceFile.ofFields f.fields = .ok g ∧ g.path = f.path) ↔ IsTrimmed f.path.toList)) ∧
      ∀ o, CompileOptions.ofFields fields = .ok o →
        ((∃ o', CompileOptions.ofFields o.fields = .ok o' ∧ o'.includePaths = o.includePaths) ↔
          ∀ path ∈ o.includePaths, IsTrimmed path.toList) := by
  refine ⟨fun path h => ?_, fun f h => ?_, fun o h => ?_⟩
  · have hiff := Path.normalize_again_iff h
    exact ⟨hiff, fun hsegments => hiff.2 (Path.isTrimmed_of_normalize h hsegments)⟩
  · obtain ⟨written, -, hpath⟩ := SourceFile.pathField_eq_ok_iff.1 (SourceFile.ofFields_eq_ok_iff.1 h).1
    rw [← Path.normalize_again_iff hpath]
    constructor
    · rintro ⟨g, hg, hsame⟩
      exact hsame ▸ (SourceFile.ofFields_fields.1 hg).1
    · intro hagain
      let hash := if f.contentHash = "" then SheetBuild.contentHash f.content else f.contentHash
      exact ⟨{ f with contentHash := hash },
        SourceFile.ofFields_fields.2 ⟨hagain, rfl, rfl, rfl, rfl⟩, rfl⟩
  · have hiff : (∀ path ∈ o.includePaths, IsTrimmed path.toList) ↔
        ∀ path ∈ o.includePaths, Path.normalize path = .ok path := by
      refine forall₂_congr fun path hpath => ?_
      obtain ⟨written, hwritten⟩ := CompileOptions.exists_written h hpath
      exact (Path.normalize_again_iff hwritten).symm
    have hself : List.Forall₂ (fun written path => Path.normalize written = .ok path) o.includePaths
        o.includePaths ↔ ∀ path ∈ o.includePaths, Path.normalize path = .ok path := List.forall₂_same
    rw [hiff, ← hself]
    constructor
    · rintro ⟨o', ho', hsame⟩
      exact hsame ▸ (CompileOptions.ofFields_fields.1 ho').1
    · intro hagain
      exact ⟨o, CompileOptions.ofFields_fields.2 ⟨hagain, rfl, rfl⟩, rfl⟩

/-- The file at a path that has a blank behind its first slash. -/
def SourceFile.blankFront : SourceFile := ⟨" a.scss", [], SheetBuild.contentHash [], none, true⟩

/-- The options with such an include path. -/
def CompileOptions.blankFront : CompileOptions where
  includePaths := [" lib"]

/-- The blank comes to the front of the path, where it is not left standing: the file cannot be reported
again under the path that it was given, and the options lose their include path. -/
theorem blankFront_not_rebuilt :
    SourceFile.ofFields [("path", .value (.text "/ a.scss")), ("content", .bytes [])]
        = .ok .blankFront ∧
      CompileOptions.ofFields [("include_paths", .value (.array [.text "/ lib"]))]
        = .ok .blankFront ∧
      Path.normalize " a.scss" = .ok "a.scss" ∧ ¬ Path.normalize " a.scss" = .ok " a.scss" ∧
      (¬ ∃ g, SourceFile.ofFields SourceFile.blankFront.fields = .ok g ∧ g.path = " a.scss") ∧
      ¬ ∃ o, CompileOptions.ofFields CompileOptions.blankFront.fields = .ok o ∧
        o.includePaths = [" lib"] := by
  have hgiven : Path.normalize "/ a.scss" = .ok " a.scss" := by decide
  have hbuilt : SourceFile.ofFields [("path", .value (.text "/ a.scss")), ("content", .bytes [])]
      = .ok .blankFront :=
    SourceFile.ofFields_eq_ok_iff.2
      ⟨SourceFile.pathField_eq_ok_iff.2 ⟨_, rfl, hgiven⟩, rfl, rfl, rfl, rfl⟩
  have hoptions : CompileOptions.ofFields [("include_paths", .value (.array [.text "/ lib"]))]
      = .ok .blankFront :=
    CompileOptions.ofFields_eq_ok_iff.2 ⟨by decide, rfl, rfl⟩
  have hblank : ¬ IsTrimmed " a.scss".toList := fun h => absurd (h.front ' ' rfl) (by decide)
  have hblank' : ¬ IsTrimmed " lib".toList := fun h => absurd (h.front ' ' rfl) (by decide)
  obtain ⟨hpath, hfile, -⟩ := rebuilt_iff_isTrimmed "/ a.scss" _
  obtain ⟨-, -, hpaths⟩ := rebuilt_iff_isTrimmed "/ a.scss" _
  exact ⟨hbuilt, hoptions, by decide, fun hagain => hblank ((hpath _ hgiven).1.1 hagain),
    fun hrebuilt => hblank ((hfile _ hbuilt).1 hrebuilt),
    fun hrebuilt => hblank' ((hpaths _ hoptions).1 hrebuilt _ (List.mem_singleton_self _))⟩

end SheetBuild
