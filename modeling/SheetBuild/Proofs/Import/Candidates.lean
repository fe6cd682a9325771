import SheetBuild.Proofs.Import.Merge
import SheetBuild.Proofs.Import.Preference
import SheetBuild.Proofs.Path.Normal
set_option autoImplicit false

/-!
# Where the candidates lie

Every candidate for a reference is the path of a stylesheet, and occurs once.  Whether it is a path that
a file of the project can have depends on the reference alone.  Behind the root mark one slash is cut
off and no more, so that a reference with another slash there has candidates that count from the root of
the disk.  All others have canonical candidates, which a file can have unless a backslash of the
reference stands in them (`candidates_canonical_iff`).
-/

namespace SheetBuild.Import

open SheetBuild.Path (IsCanonical IsName Extension isRooted)

/-- A reference with the root mark and another slash behind it. -/
def IsTwiceRooted (reference : List Char) : Prop := rootMark ++ ['/'] <+: bare reference

instance (reference : List Char) : Decidable (IsTwiceRooted reference) :=
  inferInstanceAs (Decidable (_ <+: _))

/-! ## Forms -/

namespace Form

theorem isName_append_text (name : List Char) (e : Extension) : IsName (name ++ e.text) := by
  have hlength : 5 ≤ (name ++ e.text).length := by
    cases e <;> simp [Extension.text]
  constructor <;> intro h <;> rw [h] at hlength <;> exact absurd hlength (by decide)

theorem slash_not_mem_text (e : Extension) : '/' ∉ e.text := by cases e <;> decide

/-- A file in a canonical directory has a canonical path. -/
theorem isCanonical_file {d name : List Char} (hd : d = [] ∨ IsCanonical d) (hname : name ≠ [])
    (hslash : '/' ∉ name) (e : Extension) : IsCanonical (Path.join d name ++ e.text) := by
  rw [Path.join_append hname]
  refine Path.isCanonical_join hd (Path.isCanonical_of_isName (isName_append_text name e) ?_)
  simp [hslash, slash_not_mem_text e]

/-- A form is a file in the directory of the path or in the path, called like the path or an index. -/
theorem exists_eq_join (q : List Char) (form : Form) : ∃ d name, form.path q = Path.join d name ∧
    (d = Path.directory q ∨ d = q) ∧ (name = Path.baseName q ∨ name = '_' :: Path.baseName q ∨
      name = "_index".toList ∨ name = "index".toList) := by
  cases form with
  | marked => exact ⟨_, _, rfl, .inl rfl, .inr (.inl rfl)⟩
  | plain => exact ⟨_, _, rfl, .inl rfl, .inl rfl⟩
  | markedIndex => exact ⟨_, _, rfl, .inr rfl, .inr (.inr (.inl rfl))⟩
  | index => exact ⟨_, _, rfl, .inr rfl, .inr (.inr (.inr rfl))⟩
  | markedInside => exact ⟨_, _, rfl, .inr rfl, .inr (.inl rfl)⟩
  | inside => exact ⟨_, _, rfl, .inr rfl, .inl rfl⟩

/-- A canonical path has canonical paths in every form. -/
theorem isCanonical_path {q : List Char} (h : IsCanonical q) (form : Form) (e : Extension) :
    IsCanonical (form.path q ++ e.text) := by
  obtain ⟨hdirectory, hbase⟩ := Path.isCanonical_parts h
  have hslash := Path.slash_not_mem_baseName q
  obtain ⟨d, name, hpath, hd, hname⟩ := form.exists_eq_join q
  have hd' : d = [] ∨ IsCanonical d := by
    rcases hd with rfl | rfl
    · exact hdirectory
    · exact .inr h
  have hname' : name ≠ [] ∧ '/' ∉ name := by
    rcases hname with rfl | rfl | rfl | rfl
    · exact ⟨hbase.nonempty, hslash⟩
    · exact ⟨by simp, by simp [hslash]⟩
    · decide
    · decide
  rw [hpath]
  exact isCanonical_file hd' hname'.1 hname'.2 e

/-- A path that counts from the root does so in every form. -/
theorem isRooted_path {q : List Char} (h : isRooted q = true) (form : Form) :
    isRooted (form.path q) = true := by
  obtain ⟨d, name, hpath, hd, -⟩ := form.exists_eq_join q
  rw [hpath]
  apply Path.isRooted_join
  rcases hd with rfl | rfl
  · exact Path.isRooted_directory h
  · exact h

/-- The forms bring in no backslash. -/
theorem backslash_mem_of_path {q : List Char} {form : Form} {e : Extension}
    (h : '\\' ∈ form.path q ++ e.text) : '\\' ∈ q := by
  have htext : '\\' ∉ e.text := by cases e <;> decide
  obtain ⟨d, name, hpath, hd, hname⟩ := form.exists_eq_join q
  rw [hpath] at h
  rcases Path.mem_of_mem_join (by decide) ((List.mem_append.1 h).resolve_right htext) with hmem | hmem
  · rcases hd with rfl | rfl
    · exact (Path.isPrefix_directory q).subset hmem
    · exact hmem
  · apply (Path.isSuffix_baseName q).subset
    rcases hname with rfl | rfl | rfl | rfl
    · exact hmem
    · exact (List.mem_cons.1 hmem).resolve_left (by decide)
    · exact absurd hmem (by decide)
    · exact absurd hmem (by decide)

end Form

/-! ## Places -/

namespace Search

variable {stem base : List Char} {form : Form} {e : Extension} {p : String}

theorem placeIn?_eq_some (h : placeIn? stem base form e = some p) :
    Path.normal (Path.join base stem) ≠ Path.here ∧
      (Path.segments (Path.normal (Path.join base stem))).head? ≠ some Path.up ∧
      p.toList = form.path (Path.normal (Path.join base stem)) ++ e.text := by
  unfold placeIn? at h
  simp only at h
  split at h
  · exact absurd h (by simp)
  · rename_i hinside
    rw [← Option.some.inj h, String.toList_ofList]
    exact ⟨(not_or.1 hinside).1, (not_or.1 hinside).2, rfl⟩

/-- Below a directory of the project a stem is looked for at canonical paths, unless it counts from the
root itself. -/
theorem isCanonical_of_placeIn? (h : placeIn? stem base form e = some p)
    (hbase : base = [] ∨ IsCanonical base) : IsCanonical p.toList ↔ isRooted stem = false := by
  obtain ⟨hhere, hup, hp⟩ := placeIn?_eq_some h
  have hroot : isRooted base = false := by
    rcases hbase with rfl | hbase
    · rfl
    · exact Path.not_isRooted_of_isCanonical hbase
  have hjoin := Path.isRooted_join_of_not hroot stem
  rw [hp]
  constructor
  · -- a slash in front stays through normal form and form
    intro hcanonical
    rw [← Bool.not_eq_true, ← hjoin]
    intro hrooted
    have hpath := Path.isRooted_append (form.isRooted_path (Path.isRooted_normal hrooted)) e.text
    rw [Path.not_isRooted_of_isCanonical hcanonical] at hpath
    exact absurd hpath (by simp)
  · intro hstem
    exact form.isCanonical_path (Path.isCanonical_normal (hjoin.trans hstem) hhere hup) e

theorem backslash_of_placeIn? (h : placeIn? stem base form e = some p) (hmem : '\\' ∈ p.toList) :
    '\\' ∈ base ∨ '\\' ∈ stem := by
  obtain ⟨-, -, hp⟩ := placeIn?_eq_some h
  rw [hp] at hmem
  exact Path.mem_of_mem_join (by decide)
    (Path.mem_of_mem_normal (by decide) (by decide) (Form.backslash_mem_of_path hmem))

/-! ## Searches -/

variable {importer reference : List Char} {includePaths : List (List Char)} {s : Search}

theorem IsFor.isRooted_stem_iff (h : s.IsFor importer reference includePaths) :
    isRooted s.stem = true ↔ IsTwiceRooted reference := by
  have hrooted (cs : List Char) : isRooted cs = true ↔ ['/'] <+: cs := by
    cases cs <;> simp [isRooted, eq_comm]
  unfold IsTwiceRooted
  cases h with
  | marked h => rw [h, List.prefix_append_right_inj, hrooted]
  | rooted h hstem => simp [h, List.replicate_succ, rootMark, isRooted, hstem]
  | relative hmark hslash =>
    refine iff_of_false (by simpa [isRooted] using hslash) fun htwice => hmark ?_
    exact (List.prefix_append _ _).trans htwice

/-- The directories of a search are the root, that of the importing file and the include paths. -/
theorem IsFor.of_mem_bases (h : s.IsFor importer reference includePaths) {b : List Char}
    (hb : b ∈ s.bases) : b = [] ∨ b = Path.directory importer ∨ b ∈ includePaths := by
  cases h with
  | marked => exact .inl (List.mem_singleton.1 hb)
  | rooted => exact .inl (List.mem_singleton.1 hb)
  | relative => exact .inr (List.mem_cons.1 hb)

theorem IsFor.stem_sublist (h : s.IsFor importer reference includePaths) :
    s.stem.Sublist reference := by
  have hbare : (bare reference).Sublist reference := by
    refine List.Sublist.trans ?_ (Text.trim_sublist reference)
    unfold bare Path.splitExtension
    split
    · exact List.take_sublist _ _
    · exact List.Sublist.refl _
  cases h with
  | marked h =>
    rw [h] at hbare
    exact (List.sublist_append_right _ _).trans hbare
  | rooted h =>
    rw [h] at hbare
    exact (List.sublist_append_right _ _).trans hbare
  | relative => exact hbare

end Search

/-! ## Candidates -/

/-- A candidate is where the search looks below one of its directories. -/
theorem exists_placeIn?_of_mem_candidates {importer reference : String} {includePaths : List String}
    {s : Search} (hs : s.IsFor importer.toList reference.toList (includePaths.map String.toList))
    {p : String} (hp : p ∈ candidates importer reference includePaths) :
    ∃ base ∈ s.bases, ∃ form e, Search.placeIn? s.stem base form e = some p := by
  obtain ⟨c, hc⟩ := (mem_candidates_iff hs).1 hp
  obtain ⟨base, hbase, hplace⟩ := Option.bind_eq_some_iff.1 hc
  exact ⟨base, List.mem_of_getElem? hbase, c.form, c.extension, hplace⟩

/-- Candidates are distinct paths of stylesheets.  Those of a reference with the root mark and another
slash behind it are not canonical, all others are.  A candidate is a path that a file can have where it is
canonical and has no backslash, and a backslash it has comes from the reference. -/
theorem candidates_canonical_iff {importer : String} (reference : String) {includePaths : List String}
    (himporter : ∃ written, Path.normalize written = .ok importer)
    (hinclude : ∀ b ∈ includePaths, ∃ written, Path.normalize written = .ok b) :
    (candidates importer reference includePaths).Nodup ∧
      ∀ p ∈ candidates importer reference includePaths,
        (∃ (stem : List Char) (e : Extension), p.toList = stem ++ e.text) ∧
        (IsCanonical p.toList ↔ ¬ IsTwiceRooted reference.toList) ∧
        ((∃ written, Path.normalize written = .ok p) ↔
          ¬ IsTwiceRooted reference.toList ∧ '\\' ∉ p.toList) ∧
        ('\\' ∈ p.toList → '\\' ∈ reference.toList) := by
  obtain ⟨s, hall⟩ := Search.exists_isFor importer.toList reference.toList
    (includePaths.map String.toList)
  have hs := (hall s).2 rfl
  have hnodup : (candidates importer reference includePaths).Nodup := by
    rw [candidates_eq hs, ← Graph.merge_nil]
    exact Graph.nodup_merge List.nodup_nil _
  refine ⟨hnodup, fun p hp => ⟨exists_extension_of_mem_candidates hp, ?_⟩⟩
  obtain ⟨base, hmem, form, e, hplace⟩ := exists_placeIn?_of_mem_candidates hs hp
  have hbase : (base = [] ∨ IsCanonical base) ∧ '\\' ∉ base := by
    rcases hs.of_mem_bases hmem with rfl | rfl | hincluded
    · exact ⟨.inl rfl, List.not_mem_nil⟩
    · obtain ⟨hcanonical, hslash⟩ := Path.exists_normalize_eq_ok_iff.1 himporter
      exact ⟨(Path.isCanonical_parts hcanonical).1, fun h => hslash ((Path.isPrefix_directory _).subset h)⟩
    · obtain ⟨b, hb, rfl⟩ := List.mem_map.1 hincluded
      obtain ⟨hcanonical, hslash⟩ := Path.exists_normalize_eq_ok_iff.1 (hinclude b hb)
      exact ⟨.inr hcanonical, hslash⟩
  have hcanonical : IsCanonical p.toList ↔ ¬ IsTwiceRooted reference.toList := by
    rw [Search.isCanonical_of_placeIn? hplace hbase.1, ← hs.isRooted_stem_iff, Bool.not_eq_true]
  refine ⟨hcanonical, ?_, fun hslash => ?_⟩
  · rw [Path.exists_normalize_eq_ok_iff, hcanonical]
  · have hstem := (Search.backslash_of_placeIn? hplace hslash).resolve_left hbase.2
    exact hs.stem_sublist.subset hstem

/-- A reference with the root mark and two slashes: what is looked for is at no path that a file can
have. -/
theorem candidates_twice_rooted :
    (∃ written, Path.normalize written = .ok "a.scss") ∧
      "/_x.scss" ∈ candidates "a.scss" "\x7b\x7d//x" [] ∧
      ¬ ∃ written, Path.normalize written = .ok "/_x.scss" := by
  have himporter : ∃ written, Path.normalize written = .ok "a.scss" := ⟨"a.scss", by decide⟩
  have hmem : "/_x.scss" ∈ candidates "a.scss" "\x7b\x7d//x" [] := by decide
  have hinclude : ∀ b ∈ ([] : List String), ∃ written, Path.normalize written = .ok b := by simp
  obtain ⟨-, hall⟩ := candidates_canonical_iff "\x7b\x7d//x" himporter hinclude
  obtain ⟨-, -, hiff, -⟩ := hall _ hmem
  refine ⟨himporter, hmem, fun hfile => ?_⟩
  exact (hiff.1 hfile).1 (by decide)

end SheetBuild.Import
