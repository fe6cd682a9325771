import SheetBuild.Build.Batch
import SheetBuild.Proofs.Cache.KeyMaterial
import SheetBuild.Proofs.Import.Files
set_option autoImplicit false

/-!
# What a batch takes digests of

A digest stands for what it was taken of only as long as no two of the byte sequences at hand share
one.  `Batch.digested` lists the byte sequences of a batch: the contents of its files and the
materials of its keys.  Where they are told apart, and the files carry the digests of their contents,
equal keys mean equal options, equal contents of the entries, and equal paths and contents of what
the entries reach (`Batch.inputs_eq_of_key_eq`).
-/

namespace SheetBuild

/-- A file carries the digest of its content. -/
def SourceFile.Digested (f : SourceFile) : Prop := f.contentHash = SheetBuild.contentHash f.content

/-- Two files hold the same bytes, under the same digest. -/
def SourceFile.Unchanged (f g : SourceFile) : Prop :=
  f.content = g.content ∧ f.contentHash = g.contentHash

/-- Where the digests were taken of the contents, the bytes decide. -/
theorem SourceFile.unchanged_of_content_eq {f g : SourceFile} (hf : f.Digested) (hg : g.Digested)
    (h : f.content = g.content) : f.Unchanged g :=
  ⟨h, by rw [hf, hg, h]⟩

@[simp] theorem SourceFile.digested_ofText (path text : String) : (ofText path text).Digested := rfl

/-- A file of a text, under a digest that is given. -/
def SourceFile.labelled (path text digest : String) : SourceFile :=
  ⟨path, Text.Utf8.encode text.toList, digest, none, true⟩

/-- Every file carries the digest of its content. -/
def FileSet.Digested (files : FileSet) : Prop := ∀ f ∈ files.files, f.Digested

theorem FileSet.Digested.put {files : FileSet} {f : SourceFile} (h : files.Digested)
    (hf : f.Digested) : (files.put f).Digested := by
  intro g hg
  unfold FileSet.put at hg
  split at hg
  · obtain ⟨g', hg', rfl⟩ := List.mem_map.1 hg
    split
    · exact hf
    · exact h g' hg'
  · rcases List.mem_append.1 hg with hg | hg
    · exact h g hg
    · exact List.mem_singleton.1 hg ▸ hf

/-- A set of digested files is digested. -/
theorem FileSet.digested_ofList {fs : List SourceFile} (h : ∀ f ∈ fs, f.Digested) :
    (ofList fs).Digested := by
  have hfold : ∀ (fs : List SourceFile) (files : FileSet), (∀ f ∈ fs, f.Digested) →
      files.Digested → (fs.foldl FileSet.put files).Digested := by
    intro fs
    induction fs with
    | nil => exact fun _ _ hfiles => hfiles
    | cons f fs ih =>
      intro files hfs hfiles
      exact ih _ (fun g hg => hfs g (List.mem_cons_of_mem _ hg))
        (hfiles.put (hfs f List.mem_cons_self))
  exact hfold fs .empty h fun f hf => absurd hf List.not_mem_nil

namespace Build.Batch

open SheetBuild.Cache (keyMaterial pathAndDigest)

/-- The imports of a batch are those of its files. -/
theorem graph_eq (b : Batch) : b.graph = .ofFiles b.files b.options.includePaths := rfl

/-- The files at the paths of a closure. -/
def filesAt (b : Batch) (closure : List String) : List SourceFile := closure.filterMap b.files.get?

/-- The byte sequences that a batch takes digests of: the contents of its files, and the materials of
the keys of its entries. -/
def digested (b : Batch) : List Bytes :=
  b.files.files.map (·.content) ++ (b.files.files.filter (·.isEntryFor b.target)).filterMap fun f =>
    (b.graph.closure [] f.path).1.toOption.map fun c => keyMaterial f (b.filesAt c) b.options

theorem mem_entries {b : Batch} {f : SourceFile} :
    f ∈ b.entries ↔ f ∈ b.files.files ∧ f.isEntryFor b.target := by
  rw [entries, List.mem_mergeSort, List.mem_filter]

theorem mem_of_mem_entries {b : Batch} {f : SourceFile} (h : f ∈ b.entries) :
    f ∈ b.files.files := (mem_entries.1 h).1

theorem content_mem_digested {b : Batch} {f : SourceFile} (h : f ∈ b.files.files) :
    f.content ∈ b.digested :=
  List.mem_append_left _ (List.mem_map.2 ⟨f, h, rfl⟩)

/-- The material of the key of an entry is among what is digested, whatever was asked before. -/
theorem keyMaterial_mem_digested {b : Batch} {f : SourceFile} {c : List String}
    (hf : f ∈ b.entries) (hc : b.graph.Walk f.path c) :
    keyMaterial f (b.filesAt c) b.options ∈ b.digested := by
  refine List.mem_append_right _
    (List.mem_filterMap.2 ⟨f, List.mem_filter.2 (mem_entries.1 hf), ?_⟩)
  rw [(Import.Graph.closure_eq_ok_iff .nothing).2 hc]
  rfl

/-- The files of a closure stand at its paths. -/
theorem map_path_filesAt {b : Batch} {p : String} {c : List String} (hc : b.graph.Walk p c) :
    (b.filesAt c).map (·.path) = c := by
  have hall : ∀ q ∈ c, ∃ f, b.files.get? q = some f := fun q hq => hc.exists_file hq
  clear hc
  unfold filesAt
  induction c with
  | nil => rfl
  | cons q c ih =>
    obtain ⟨f, hf⟩ := hall q List.mem_cons_self
    rw [List.filterMap_cons_some hf, List.map_cons, (FileSet.mem_of_get? hf).2,
      ih fun r hr => hall r (List.mem_cons_of_mem _ hr)]

/-- Two batches hold the same bytes at each of some paths, under the same digest. -/
def AgreeAt (b₁ b₂ : Batch) (ps : List String) : Prop :=
  ∀ q ∈ ps, ∃ g₁ g₂, b₁.files.get? q = some g₁ ∧ b₂.files.get? q = some g₂ ∧ g₁.Unchanged g₂

/-- Two digests that are equal were taken of one content. -/
theorem unchanged_of_contentHash_eq {b₁ b₂ : Batch} {f₁ f₂ : SourceFile}
    (hdig₁ : b₁.files.Digested) (hdig₂ : b₂.files.Digested)
    (hcf : Digest.CollisionFree (b₁.digested ++ b₂.digested)) (hf₁ : f₁ ∈ b₁.files.files)
    (hf₂ : f₂ ∈ b₂.files.files) (h : f₁.contentHash = f₂.contentHash) : f₁.Unchanged f₂ := by
  have hdigest : SheetBuild.contentHash f₁.content = SheetBuild.contentHash f₂.content := by
    rw [← hdig₁ f₁ hf₁, ← hdig₂ f₂ hf₂, h]
  have hcontent : f₁.content = f₂.content :=
    hcf _ (List.mem_append_left _ (content_mem_digested hf₁)) _
      (List.mem_append_right _ (content_mem_digested hf₂)) hdigest
  exact SourceFile.unchanged_of_content_eq (hdig₁ f₁ hf₁) (hdig₂ f₂ hf₂) hcontent

/-- Equal paths and digests of two closures were taken of equal files. -/
theorem exists_files_of_pathAndDigest_eq {b₁ b₂ : Batch} {p : String} {c : List String}
    (hc : b₁.graph.Walk p c)
    (h : (b₁.filesAt c).map pathAndDigest = (b₂.filesAt c).map pathAndDigest) :
    ∀ q ∈ c, ∃ g₁ g₂, b₁.files.get? q = some g₁ ∧ b₂.files.get? q = some g₂ ∧
      g₁.contentHash = g₂.contentHash := by
  intro q hq
  obtain ⟨g₁, hg₁⟩ := hc.exists_file hq
  have hmem : pathAndDigest g₁ ∈ (b₁.filesAt c).map pathAndDigest :=
    List.mem_map.2 ⟨g₁, List.mem_filterMap.2 ⟨q, hq, hg₁⟩, rfl⟩
  rw [h] at hmem
  obtain ⟨g₂, hg₂, heq⟩ := List.mem_map.1 hmem
  obtain ⟨q', -, hq'⟩ := List.mem_filterMap.1 hg₂
  obtain ⟨hpath, hdigest⟩ := Prod.mk.inj heq
  have hat : b₂.files.get? q = some g₂ := by
    rw [← (FileSet.mem_of_get? hg₁).2, ← hpath]
    exact FileSet.get?_of_mem (FileSet.mem_of_get? hq').1
  exact ⟨g₁, g₂, hg₁, hat, hdigest.symm⟩

/-- Closures with equal paths and digests of their files are the same. -/
theorem closure_eq_of_pathAndDigest_eq {b₁ b₂ : Batch} {p₁ p₂ : String} {c₁ c₂ : List String}
    (hc₁ : b₁.graph.Walk p₁ c₁) (hc₂ : b₂.graph.Walk p₂ c₂)
    (h : (b₁.filesAt c₁).map pathAndDigest = (b₂.filesAt c₂).map pathAndDigest) : c₁ = c₂ := by
  have hfirst : ∀ fs : List SourceFile, fs.map (·.path) = (fs.map pathAndDigest).map (·.1) :=
    fun fs => by rw [List.map_map]; rfl
  rw [← map_path_filesAt hc₁, ← map_path_filesAt hc₂, hfirst, h, ← hfirst]

/-- Equal keys were made of closures with the same paths in the same order. -/
theorem closure_eq_of_key_eq {b₁ b₂ : Batch} {f₁ f₂ : SourceFile} {c₁ c₂ : List String}
    (hcf : Digest.CollisionFree (b₁.digested ++ b₂.digested))
    (hf₁ : f₁ ∈ b₁.entries) (hf₂ : f₂ ∈ b₂.entries)
    (hc₁ : b₁.graph.Walk f₁.path c₁) (hc₂ : b₂.graph.Walk f₂.path c₂)
    (hkey : b₁.key f₁ c₁ = b₂.key f₂ c₂) : c₁ = c₂ := by
  have hmaterial := hcf _ (List.mem_append_left _ (keyMaterial_mem_digested hf₁ hc₁)) _
    (List.mem_append_right _ (keyMaterial_mem_digested hf₂ hc₂)) hkey
  exact closure_eq_of_pathAndDigest_eq hc₁ hc₂ (Cache.keyMaterial_eq_iff.1 hmaterial).2.1

/-- Equal keys were made of equal options, of entries with the same bytes, and of closures with the
same paths in the same order and the same bytes at each of them. -/
theorem inputs_eq_of_key_eq {b₁ b₂ : Batch} {f₁ f₂ : SourceFile} {c₁ c₂ : List String}
    (hdig₁ : b₁.files.Digested) (hdig₂ : b₂.files.Digested)
    (hcf : Digest.CollisionFree (b₁.digested ++ b₂.digested))
    (hf₁ : f₁ ∈ b₁.entries) (hf₂ : f₂ ∈ b₂.entries)
    (hc₁ : b₁.graph.Walk f₁.path c₁) (hc₂ : b₂.graph.Walk f₂.path c₂)
    (hkey : b₁.key f₁ c₁ = b₂.key f₂ c₂) :
    b₁.options = b₂.options ∧ c₁ = c₂ ∧ f₁.Unchanged f₂ ∧ AgreeAt b₁ b₂ c₁ := by
  have hmaterial := hcf _ (List.mem_append_left _ (keyMaterial_mem_digested hf₁ hc₁)) _
    (List.mem_append_right _ (keyMaterial_mem_digested hf₂ hc₂)) hkey
  obtain ⟨hentry, hfiles, hoptions⟩ := Cache.keyMaterial_eq_iff.1 hmaterial
  obtain rfl := closure_eq_of_pathAndDigest_eq hc₁ hc₂ hfiles
  refine ⟨hoptions, rfl, ?_, ?_⟩
  · exact unchanged_of_contentHash_eq hdig₁ hdig₂ hcf (mem_of_mem_entries hf₁)
      (mem_of_mem_entries hf₂) hentry
  · intro q hq
    obtain ⟨g₁, g₂, hg₁, hg₂, hdigest⟩ := exists_files_of_pathAndDigest_eq hc₁ hfiles q hq
    exact ⟨g₁, g₂, hg₁, hg₂, unchanged_of_contentHash_eq hdig₁ hdig₂ hcf
      (FileSet.mem_of_get? hg₁).1 (FileSet.mem_of_get? hg₂).1 hdigest⟩

end Build.Batch

end SheetBuild
