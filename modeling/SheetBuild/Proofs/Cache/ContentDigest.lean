import SheetBuild.Proofs.Cache.KeyMaterial
import SheetBuild.Proofs.Cache.Shelves
import SheetBuild.Proofs.Record.Accepted
set_option autoImplicit false

/-!
# Which digest a file carries

A file that is built from fields without a digest carries the digest of its content where the content is
given as bytes, and none where it is given as text.  So the digests, and with them the keys, tell two
files of different contents apart as soon as one of them was given as bytes; two that were given as texts
are one file to every key (`keptApart_iff`).
-/

namespace SheetBuild

open SheetBuild.Cache (key keyMaterial keyMaterial_eq_iff pathAndDigest)
open SheetBuild.Digest (CollisionFree)

namespace SourceFile

/-- A file that is built from fields in which the digest is absent or empty. -/
structure BuiltUnlabelled (fields : Record.Fields) (f : SourceFile) : Prop where
  built : ofFields fields = .ok f
  absent : isAbsent (Record.lookup fields "content_hash") = true

/-- The content is given as bytes. -/
def GivesBytes (fields : Record.Fields) : Prop :=
  ∃ content, Record.lookup fields "content" = some (.bytes content)

/-- Keys tell two files apart, as entries and as the dependencies at one place of two lists, as long as
digests tell apart what the keys are taken of. -/
structure KeptApart (f g : SourceFile) : Prop where
  entries : ∀ ds ds' o o', CollisionFree [keyMaterial f ds o, keyMaterial g ds' o'] →
    key f ds o ≠ key g ds' o'
  dependencies : ∀ e e' before before' after after' o o', before.length = before'.length →
    CollisionFree [keyMaterial e (before ++ f :: after) o, keyMaterial e' (before' ++ g :: after') o'] →
    key e (before ++ f :: after) o ≠ key e' (before' ++ g :: after') o'

variable {fields fields' : Record.Fields} {f g : SourceFile}

/-! ## The digest of a file -/

/-- No digest is empty. -/
theorem contentHash_ne_empty (content : Bytes) : SheetBuild.contentHash content ≠ "" := by
  intro h
  have hdigest := Digest.isDigest_sha256Hex content
  rw [show Digest.sha256Hex content = "" from h] at hdigest
  exact absurd hdigest (by decide)

/-- A content is given as bytes, and is these bytes under their digest, or as text, and is the encoding
of this text without a digest. -/
theorem BuiltUnlabelled.given (h : BuiltUnlabelled fields f) :
    Record.lookup fields "content" = some (.bytes f.content) ∧
        f.contentHash = SheetBuild.contentHash f.content ∨
      ∃ s, Record.lookup fields "content" = some (.value (.text s)) ∧
        f.content = Text.Utf8.encode s.toList ∧ f.contentHash = "" := by
  obtain ⟨-, hcontent, hhash, -, -⟩ := ofFields_eq_ok_iff.1 h.built
  obtain ⟨r, hr, hread⟩ := Record.required_eq_ok_iff.1 hcontent
  unfold hashField at hhash
  rw [hr, h.absent] at hhash
  rcases Record.bytes_eq_ok_iff.1 hread with rfl | ⟨s, rfl, hs⟩
  · exact .inl ⟨hr, (Except.ok.inj hhash).symm⟩
  · refine .inr ⟨s, hr, hs, ?_⟩
    -- the digest is the one that is given, and none is given but perhaps the empty one
    have habsent := h.absent
    rcases Record.defaulted_eq_ok_iff.1 hhash with ⟨-, hempty⟩ | ⟨r', hr', htext⟩
    · exact hempty.symm
    · rw [Record.name_eq_ok_iff] at htext
      rw [hr', htext] at habsent
      exact of_decide_eq_true habsent

/-- The digest of a file is that of its content where this is given as bytes, and only there. -/
theorem BuiltUnlabelled.contentHash_eq_iff (h : BuiltUnlabelled fields f) :
    f.contentHash = SheetBuild.contentHash f.content ↔ GivesBytes fields := by
  rcases h.given with ⟨hbytes, hdigest⟩ | ⟨s, htext, -, hempty⟩
  · exact ⟨fun _ => ⟨_, hbytes⟩, fun _ => hdigest⟩
  · refine ⟨fun hdigest => ?_, fun ⟨content, hbytes⟩ => ?_⟩
    · exact absurd (hdigest.symm.trans hempty) (contentHash_ne_empty _)
    · rw [htext] at hbytes
      exact absurd hbytes (by simp)

/-- Where the content is given as text, there is no digest. -/
theorem BuiltUnlabelled.contentHash_eq_empty (h : BuiltUnlabelled fields f)
    (htext : ¬ GivesBytes fields) : f.contentHash = "" := by
  rcases h.given with ⟨hbytes, -⟩ | ⟨-, -, -, hempty⟩
  · exact absurd ⟨_, hbytes⟩ htext
  · exact hempty

/-- Digests tell two contents apart, unless both are given as texts. -/
theorem contentHash_ne_iff (hf : BuiltUnlabelled fields f) (hg : BuiltUnlabelled fields' g)
    (hfree : CollisionFree [f.content, g.content]) (hne : f.content ≠ g.content) :
    f.contentHash ≠ g.contentHash ↔ GivesBytes fields ∨ GivesBytes fields' := by
  by_cases hbytes : GivesBytes fields <;> by_cases hbytes' : GivesBytes fields'
  · simp only [hbytes, true_or, iff_true]
    rw [hf.contentHash_eq_iff.2 hbytes, hg.contentHash_eq_iff.2 hbytes']
    exact fun hsame => hne (hfree _ (by simp) _ (by simp) hsame)
  · simp only [hbytes, true_or, iff_true]
    rw [hf.contentHash_eq_iff.2 hbytes, hg.contentHash_eq_empty hbytes']
    exact contentHash_ne_empty _
  · simp only [hbytes', or_true, iff_true]
    rw [hf.contentHash_eq_empty hbytes, hg.contentHash_eq_iff.2 hbytes']
    exact (contentHash_ne_empty _).symm
  · simp [hbytes, hbytes', hf.contentHash_eq_empty hbytes, hg.contentHash_eq_empty hbytes']

/-! ## Keys -/

/-- Files of different digests are kept apart, and no other ones. -/
theorem keptApart_iff_contentHash_ne : KeptApart f g ↔ f.contentHash ≠ g.contentHash := by
  constructor
  · intro h hsame
    -- alone, files of one digest have one material, which collides with nothing but itself
    have hmaterial : keyMaterial f [] {} = keyMaterial g [] {} :=
      keyMaterial_eq_iff.2 ⟨hsame, rfl, rfl⟩
    refine h.entries [] [] {} {} ?_ (congrArg Digest.sha256Hex hmaterial)
    rw [hmaterial]
    simp [CollisionFree]
  · intro hne
    constructor
    · intro ds ds' o o' hfree hkey
      have hmaterial := hfree _ (by simp) _ (by simp) hkey
      exact hne (keyMaterial_eq_iff.1 hmaterial).1
    · intro e e' before before' after after' o o' hlength hfree hkey
      have hmaterial := hfree _ (by simp) _ (by simp) hkey
      obtain ⟨-, hfiles, -⟩ := keyMaterial_eq_iff.1 hmaterial
      rw [List.map_append, List.map_append, List.map_cons, List.map_cons] at hfiles
      obtain ⟨-, hrest⟩ := List.append_inj hfiles (by simpa using hlength)
      exact hne (Prod.mk.inj (List.cons.inj hrest).1).2

/-- A file that is built without a digest carries that of its content exactly where the content is given
as bytes.  Two such files of different contents, whose digests differ, have different digests, and are
kept apart by every key that one of them goes into, exactly where one of the contents is given as
bytes; two that are given as texts have one key in each other's place. -/
theorem keptApart_iff (hf : BuiltUnlabelled fields f) (hg : BuiltUnlabelled fields' g)
    (hfree : CollisionFree [f.content, g.content]) :
    (f.contentHash = SheetBuild.contentHash f.content ↔ GivesBytes fields) ∧
      (f.content ≠ g.content →
        (f.contentHash ≠ g.contentHash ↔ GivesBytes fields ∨ GivesBytes fields') ∧
          (KeptApart f g ↔ GivesBytes fields ∨ GivesBytes fields')) ∧
      (¬ (GivesBytes fields ∨ GivesBytes fields') → ∀ ds o, key f ds o = key g ds o) := by
  refine ⟨hf.contentHash_eq_iff, fun hne => ?_, fun htexts ds o => ?_⟩
  · have hiff := contentHash_ne_iff hf hg hfree hne
    exact ⟨hiff, keptApart_iff_contentHash_ne.trans hiff⟩
  · rw [not_or] at htexts
    refine Cache.key_congr ?_ ds o
    rw [hf.contentHash_eq_empty htexts.1, hg.contentHash_eq_empty htexts.2]

/-- The fields of a file whose content is given as text. -/
def textFields (text : String) : Record.Fields :=
  [("path", .value (.text "a.scss")), ("content", .value (.text text))]

/-- The file that is made of them. -/
def ofTextFields (text : String) : SourceFile :=
  ⟨"a.scss", Text.Utf8.encode text.toList, "", none, true⟩

theorem builtUnlabelled_textFields (text : String) :
    BuiltUnlabelled (textFields text) (ofTextFields text) where
  built := by
    have hpath : Path.normalize "a.scss" = .ok "a.scss" := by decide
    exact ofFields_eq_ok_iff.2 ⟨pathField_eq_ok_iff.2 ⟨_, rfl, hpath⟩, rfl, rfl, rfl, rfl⟩
  absent := rfl

theorem not_givesBytes_textFields (text : String) : ¬ GivesBytes (textFields text) := by
  rintro ⟨content, h⟩
  exact absurd (show some (Record.Raw.value (.text text)) = some (.bytes content) from h) (by simp)

/-- Two sheets that are given as texts carry no digest, and one key serves both. -/
theorem not_keptApart_texts :
    (ofTextFields "p").content ≠ (ofTextFields "q").content ∧
      (ofTextFields "p").contentHash ≠ SheetBuild.contentHash (ofTextFields "p").content ∧
      ¬ KeptApart (ofTextFields "p") (ofTextFields "q") ∧
      key (ofTextFields "p") [] {} = key (ofTextFields "q") [] {} := by
  have hne : (ofTextFields "p").content ≠ (ofTextFields "q").content := by decide
  have hfree : CollisionFree [(ofTextFields "p").content, (ofTextFields "q").content] := by
    decide +kernel
  have htext := not_givesBytes_textFields "p"
  have htexts := not_or.2 ⟨htext, not_givesBytes_textFields "q"⟩
  obtain ⟨hdigest, hapart, hkey⟩ :=
    keptApart_iff (builtUnlabelled_textFields "p") (builtUnlabelled_textFields "q") hfree
  exact ⟨hne, mt hdigest.1 htext, mt (hapart hne).2.1 htexts, hkey htexts [] {}⟩

end SourceFile

end SheetBuild
