import SheetBuild.Proofs.Build.Outcomes
import SheetBuild.Proofs.Disk.Layout
set_option autoImplicit false

/-!
# What is written for a batch

The artifacts of a batch are written one after the other below a directory.  In an empty directory
that keeps every output exactly where all of them can be encoded, no two of them want the same file, and
none wants the name of a directory that another one lies in (`intact_iff_pairwise_apart`).  The last two
depend on the paths of the entries alone: two entries that differ in the extension come to one
stylesheet, and an entry may lie in a directory that is called like the stylesheet of another
(`intact_iff_no_clash`).
-/

namespace SheetBuild.Path

/-! ## Stems -/

/-- A path without its stylesheet extension. -/
def stem (cs : List Char) : List Char := (splitExtension cs).1

theorem exists_eq_stem_append (cs : List Char) : ∃ extension, '/' ∉ extension ∧ '\x00' ∉ extension ∧
    cs = stem cs ++ extension := by
  cases hs : splitExtension cs with
  | mk front found =>
    cases found with
    | none =>
      refine ⟨[], by simp, by simp, ?_⟩
      unfold splitExtension at hs
      split at hs
      · simp at hs
      · simpa [stem, splitExtension, *] using (Prod.mk.inj hs).1
    | some e =>
      refine ⟨e.text, by cases e <;> decide, by cases e <;> decide, ?_⟩
      rw [stem, hs]
      exact splitExtension_eq_some hs

/-- Where a path lies: the directory, and the name there without the stylesheet extension. -/
structure Spot (cs : List Char) (directory : List Segment) (name : Segment) : Prop where
  names : ∀ s ∈ directory, IsName s
  beside : (segments cs).dropLast = directory
  append : ∀ more, '/' ∉ more → segments (stem cs ++ more) = directory ++ [name ++ more]

theorem exists_spot {cs : List Char} (h : IsCanonical cs) : ∃ directory name, Spot cs directory name := by
  obtain ⟨directory, name, -, happend⟩ := exists_segments_append (stem cs)
  obtain ⟨extension, hslash, -, hcs⟩ := exists_eq_stem_append cs
  have hsegments : segments cs = directory ++ [name ++ extension] := by
    conv_lhs => rw [hcs]
    exact happend extension hslash
  refine ⟨directory, name, ?_, ?_, happend⟩
  · intro s hs
    exact h s (hsegments ▸ List.mem_append_left _ hs)
  · rw [hsegments, List.dropLast_concat]

namespace Spot

variable {cs cs' more : List Char} {directory directory' : List Segment} {name name' : Segment}

/-- The stem of a path is what its directory and its name come to. -/
theorem stem_eq (h : Spot cs directory name) : stem cs = joinSegments (directory ++ [name]) := by
  rw [← joinSegments_segments (stem cs)]
  have happend := h.append [] (by simp)
  rw [List.append_nil, List.append_nil] at happend
  rw [happend]

/-- A path with another extension of two characters or more is canonical too. -/
theorem isCanonical (h : Spot cs directory name) (hslash : '/' ∉ more) (hlong : 2 < more.length) :
    IsCanonical (stem cs ++ more) := by
  intro s hs
  rw [h.append more hslash] at hs
  rcases List.mem_append.1 hs with hs | hs
  · exact h.names s hs
  · obtain rfl := List.mem_singleton.1 hs
    refine ⟨?_, ?_, ?_⟩ <;>
    · intro heq
      have hlength := congrArg List.length heq
      simp only [List.length_append, List.length_nil, here, up, List.length_cons] at hlength
      omega

end Spot

end SheetBuild.Path

namespace SheetBuild.Disk.Place

/-- The place in a directory of a name with an ending. -/
def site (directory : List Path.Segment) (name ending : Path.Segment) : Place :=
  (directory ++ [name ++ ending]).map String.ofList

theorem mapLast_concat (f : String → String) (p : Place) (name : String) :
    mapLast f (p ++ [name]) = p ++ [f name] := by
  induction p with
  | nil => rfl
  | cons n ns ih =>
    cases ns with
    | nil => rfl
    | cons m ms =>
      rw [List.cons_append, List.cons_append, mapLast, ← List.cons_append, ih]
      · rfl
      · simp

/-- The source map of a stylesheet is called like it, with one more ending. -/
theorem mapName_ofList (name : List Char) :
    Build.Artifact.mapName (String.ofList (name ++ ".css".toList))
      = String.ofList (name ++ ".css.map".toList) := by
  rw [Build.Artifact.mapName, ← String.ofList_toList (s := ".map"), ← String.ofList_append,
    List.append_assoc]
  rfl

/-- A source map lies beside its stylesheet. -/
theorem mapLast_site (out : Place) (directory : List Path.Segment) (name : Path.Segment) :
    mapLast Build.Artifact.mapName (out ++ site directory name ".css".toList)
      = out ++ site directory name ".css.map".toList := by
  simp only [site, List.map_append, List.map_singleton, ← List.append_assoc, mapLast_concat,
    mapName_ofList]

theorem dropLast_site (directory : List Path.Segment) (name ending : Path.Segment) :
    (site directory name ending).dropLast = directory.map String.ofList := by
  rw [site, List.map_append, List.map_singleton, List.dropLast_concat]

end SheetBuild.Disk.Place

namespace SheetBuild.Path.Spot

open SheetBuild.Disk (Place)

variable {cs more : List Char} {directory : List Segment} {name : Segment}

theorem names_eq (h : Spot cs directory name) (hslash : '/' ∉ more) (hlong : 2 < more.length) :
    Place.names (stem cs ++ more) = Place.site directory name more := by
  rw [Place.names_of_isCanonical (h.isCanonical hslash hlong), h.append more hslash, Place.site]

theorem plain_site (h : Spot cs directory name) (hslash : '/' ∉ more) (hlong : 2 < more.length) :
    (Place.site directory name more).Plain where
  nonempty := by simp [Place.site]
  up_not_mem := by
    rw [Place.site, ← h.append more hslash]
    exact Place.up_not_mem_of_isName (h.isCanonical hslash hlong)

theorem join_outputPath (h : Spot cs directory name) (out : Place) :
    Place.join out (String.ofList (outputPath cs))
      = out ++ Place.site directory name ".css".toList := by
  have hcanonical : IsCanonical (stem cs ++ ".css".toList) :=
    h.isCanonical (by decide) (by decide)
  rw [← h.names_eq (by decide) (by decide), Place.names_of_isCanonical hcanonical]
  rw [Place.join_of_isCanonical out (by rw [String.toList_ofList]; exact hcanonical),
    String.toList_ofList]
  rfl

/-- The disk can hold a place when it can hold the path that it is named for. -/
theorem nameable_site (h : Spot cs directory name) (hslash : '/' ∉ more) (hnull : '\x00' ∉ more) :
    (Place.site directory name more).all Place.isNameable = true ↔
      Place.isNameable (String.ofList cs) = true := by
  obtain ⟨extension, -, hnull', hcs⟩ := exists_eq_stem_append cs
  have hstem : '\x00' ∈ stem cs ++ more ↔ '\x00' ∈ cs := by
    conv_rhs => rw [hcs]
    simp [hnull, hnull']
  rw [Place.site, ← h.append more hslash, List.all_map, List.all_eq_true]
  simp only [Function.comp_apply, Place.isNameable, String.toList_ofList, Bool.not_eq_true',
    List.contains_eq_mem, decide_eq_false_iff_not]
  rw [← hstem, ← exists_mem_segments_iff (by decide)]
  simp only [not_exists, not_and]

end SheetBuild.Path.Spot

namespace SheetBuild.Build

open SheetBuild.Cache (Store)
open SheetBuild.Compile (Compiler)
open SheetBuild.Disk (Place Tree)
open SheetBuild.Path (IsCanonical Segment Spot)
open SheetBuild.Text (Loose)

namespace Artifact

/-! ## Files of an artifact -/

/-- The bytes of a text that can be encoded. -/
def bytesOf : Loose → Bytes
  | .whole s => Text.Utf8.encode s.toList
  | .broken _ => []

/-- The files of an artifact below the directory that it is written to, with what they hold. -/
def layout (a : Artifact) : List (Place × Bytes) := (a.files []).map fun f => (f.1, bytesOf f.2)

/-- The texts that an artifact comes to can be encoded. -/
def Encodable (a : Artifact) : Prop := ∀ f ∈ a.files [], f.2.isWhole = true

/-- The files of an artifact stand beside each other, at the same places below every directory. -/
structure Grouped (a : Artifact) : Prop where
  files : ∀ out, a.files out = (a.files []).map fun f => (out ++ f.1, f.2)
  plain : ∀ f ∈ a.layout, f.1.Plain
  beside : ∀ f ∈ a.layout, ∀ g ∈ a.layout, f.1.dropLast = g.1.dropLast

/-- All artifacts are written below a directory, to distinct files, and each file holds in the end the
text that was meant for it. -/
def Intact (out : Place) (t : Tree) (as : List Artifact) : Prop :=
  ∃ t', writeAll out t as = (t', none) ∧
    (∀ a ∈ as, ∀ f ∈ a.files out, ∃ content, f.2.encode = .ok content ∧ t'.read f.1 = .ok content) ∧
    (written out as).Nodup

theorem encode_eq_ok_iff {text : Loose} {content : Bytes} :
    text.encode = .ok content ↔ text.isWhole = true ∧ bytesOf text = content := by
  cases text <;> simp [Loose.encode, Loose.isWhole, bytesOf]

variable {t : Tree} {out : Place} {done todo : List (Place × Bytes)} {a : Artifact}
  {as : List Artifact}

/-- The places that are written to, from the layouts. -/
theorem written_eq (h : ∀ a ∈ as, a.Grouped) :
    written out as = (as.flatMap layout).map fun f => out ++ f.1 := by
  rw [written, List.map_flatMap]
  refine List.flatMap_congr fun a ha => ?_
  rw [(h a ha).files out, layout, List.map_map, List.map_map]
  rfl

/-- Files of one directory that is there are written one after the other. -/
theorem writeFiles_of_laid {directory : Place} {fs : List (Place × Loose)}
    (h : t.Laid out done (fs.map (fun f => (f.1, bytesOf f.2)) ++ todo))
    (hwhole : ∀ f ∈ fs, f.2.isWhole = true)
    (hdirectory : t.LeadsToDirectory (out ++ directory)) (hbeside : ∀ f ∈ fs, f.1.dropLast = directory)
    (hplain : ∀ f ∈ fs, f.1.Plain ∧ f.1.all Place.isNameable = true)
    (hapart : (fs.map (fun f => (f.1, bytesOf f.2)) ++ todo).Pairwise fun f g => f.1.Apart g.1) :
    ∃ t', writeFiles t (fs.map fun f => (out ++ f.1, f.2)) = (t', none) ∧
      t'.Laid out ((fs.map fun f => (f.1, bytesOf f.2)).reverse ++ done) todo := by
  induction fs generalizing t done with
  | nil => exact ⟨t, rfl, h⟩
  | cons f fs ih =>
    rw [List.map_cons, List.cons_append, List.pairwise_cons] at hapart
    obtain ⟨hf, hname⟩ := hplain f List.mem_cons_self
    obtain ⟨t₁, hwrite, hlaid, hkept⟩ :=
      h.write hf hname hapart.1 (by rwa [hbeside f List.mem_cons_self])
    have hencode : f.2.encode = .ok (bytesOf f.2) :=
      encode_eq_ok_iff.2 ⟨hwhole f List.mem_cons_self, rfl⟩
    obtain ⟨t', hrest, hlaid'⟩ := ih hlaid (fun g hg => hwhole g (List.mem_cons_of_mem _ hg))
      (hkept _ hdirectory)
      (fun g hg => hbeside g (List.mem_cons_of_mem _ hg))
      (fun g hg => hplain g (List.mem_cons_of_mem _ hg)) hapart.2
    refine ⟨t', ?_, ?_⟩
    · rw [List.map_cons, writeFiles, hencode]
      simp only [hwrite]
      exact hrest
    · rw [List.map_cons, List.reverse_cons, List.append_assoc]
      exact hlaid'

/-- An artifact is written, and its files stay out of the way of those that are apart from them. -/
theorem write_of_laid (ha : a.Grouped) (hwhole : a.Encodable)
    (hname : ∀ f ∈ a.layout, f.1.all Place.isNameable = true)
    (h : t.Laid out done (a.layout ++ todo))
    (hapart : (a.layout ++ todo).Pairwise fun f g => f.1.Apart g.1) :
    ∃ t', a.write out t = (t', none) ∧ t'.Laid out (a.layout.reverse ++ done) todo := by
  have hfiles := ha.files out
  unfold write
  cases hfs : a.files [] with
  | nil =>
    rw [hfs] at hfiles
    have hlayout : a.layout = [] := by rw [layout, hfs, List.map_nil]
    rw [hlayout] at h ⊢
    rw [hfiles]
    exact ⟨t, rfl, h⟩
  | cons f rest =>
    have hlayout : a.layout = (f :: rest).map fun f => (f.1, bytesOf f.2) := by
      rw [layout, hfs]
    have hmem : ∀ g ∈ f :: rest, (g.1, bytesOf g.2) ∈ a.layout := by
      intro g hg
      rw [hlayout]
      exact List.mem_map_of_mem hg
    have hfirst := hmem f List.mem_cons_self
    obtain ⟨t₁, hmade, hlaid, hdirectory⟩ := h.make (List.mem_append_left _ hfirst)
      (ha.plain _ hfirst) (hname _ hfirst) (by
        intro g hg
        rcases List.mem_append.1 hg with hg | hg
        · exact .inl (ha.beside g hg _ hfirst)
        · exact .inr ((List.pairwise_append.1 hapart).2.2 _ hfirst g hg))
    rw [hlayout] at hlaid hapart ⊢
    obtain ⟨t', hwritten, hlaid'⟩ := writeFiles_of_laid hlaid (hfs ▸ hwhole) hdirectory
      (fun g hg => ha.beside _ (hmem g hg) _ hfirst)
      (fun g hg => ⟨ha.plain _ (hmem g hg), hname _ (hmem g hg)⟩) hapart
    refine ⟨t', ?_, hlaid'⟩
    rw [hfiles, hfs, List.map_cons]
    simp only [hmade]
    exact hwritten

/-- Artifacts whose files are apart are all written. -/
theorem writeAll_of_laid (hgrouped : ∀ a ∈ as, a.Grouped) (hwhole : ∀ a ∈ as, a.Encodable)
    (hname : ∀ f ∈ as.flatMap layout, f.1.all Place.isNameable = true)
    (h : t.Laid out done (as.flatMap layout))
    (hapart : (as.flatMap layout).Pairwise fun f g => f.1.Apart g.1) :
    ∃ t', writeAll out t as = (t', none) ∧ t'.Laid out ((as.flatMap layout).reverse ++ done) [] := by
  induction as generalizing t done with
  | nil => exact ⟨t, rfl, h⟩
  | cons a as ih =>
    rw [List.flatMap_cons] at hname h hapart
    obtain ⟨ha, hrest⟩ := List.forall_mem_cons.1 hgrouped
    obtain ⟨hfirst, hothers⟩ := List.forall_mem_cons.1 hwhole
    obtain ⟨hnamed, hnamedRest⟩ := List.forall_mem_append.1 hname
    obtain ⟨t₁, hwrite, hlaid⟩ := write_of_laid ha hfirst hnamed h hapart
    obtain ⟨t', hwritten, hlaid'⟩ :=
      ih hrest hothers hnamedRest hlaid (List.pairwise_append.1 hapart).2.1
    refine ⟨t', ?_, ?_⟩
    · rw [writeAll]
      simp only [hwrite]
      exact hwritten
    · rw [List.flatMap_cons, List.reverse_append, List.append_assoc]
      exact hlaid'

/-- Artifacts are written without loss into an empty directory exactly when their texts can be encoded,
the disk can hold the names of their files, and no file is another one or on the way to it. -/
theorem intact_iff_pairwise_apart (hbare : t.Bare out) (hgrouped : ∀ a ∈ as, a.Grouped) :
    Intact out t as ↔ (∀ a ∈ as, a.Encodable) ∧
      (∀ f ∈ as.flatMap layout, f.1.all Place.isNameable = true) ∧
      (as.flatMap layout).Pairwise fun f g => f.1.Apart g.1 := by
  constructor
  · rintro ⟨t', -, hread, hnodup⟩
    have hfile : ∀ a ∈ as, ∀ g ∈ a.files [],
        g.2.isWhole = true ∧ t'.read (out ++ g.1) = .ok (bytesOf g.2) := by
      intro a ha g hg
      obtain ⟨content, hencode, hcontent⟩ := hread a ha (out ++ g.1, g.2) (by
        rw [(hgrouped a ha).files out]
        exact List.mem_map.2 ⟨g, hg, rfl⟩)
      obtain ⟨hwhole, rfl⟩ := encode_eq_ok_iff.1 hencode
      exact ⟨hwhole, hcontent⟩
    have hheld : ∀ f ∈ as.flatMap layout, t'.read (out ++ f.1) = .ok f.2 := by
      intro f hf
      obtain ⟨a, ha, hfa⟩ := List.mem_flatMap.1 hf
      obtain ⟨g, hg, rfl⟩ := List.mem_map.1 hfa
      exact (hfile a ha g hg).2
    refine ⟨fun a ha g hg => (hfile a ha g hg).1, fun f hf => ?_, ?_⟩
    · have hlocated := (Tree.read_eq_ok_iff.1 (hheld f hf)).1
      have hnames := (Tree.locate_eq_ok_iff.1 hlocated).1
      rw [List.all_append, Bool.and_eq_true] at hnames
      exact hnames.2
    · rw [written_eq hgrouped, List.Nodup, List.pairwise_map] at hnodup
      refine hnodup.imp_of_mem fun hf hg hne => ?_
      exact .of_append (Tree.apart_of_read (hheld _ hf) (hheld _ hg) hne)
  · rintro ⟨hwhole, hname, hapart⟩
    have hplain : ∀ f ∈ as.flatMap layout, f.1.Plain := by
      intro f hf
      obtain ⟨a, ha, hfa⟩ := List.mem_flatMap.1 hf
      exact (hgrouped a ha).plain f hfa
    obtain ⟨t', hwritten, hlaid⟩ := writeAll_of_laid hgrouped hwhole hname (hbare.laid hplain) hapart
    refine ⟨t', hwritten, ?_, ?_⟩
    · intro a ha f hf
      rw [(hgrouped a ha).files out] at hf
      obtain ⟨g, hg, rfl⟩ := List.mem_map.1 hf
      refine ⟨bytesOf g.2, encode_eq_ok_iff.2 ⟨hwhole a ha g hg, rfl⟩,
        hlaid.written (g.1, bytesOf g.2) ?_⟩
      rw [List.append_nil, List.mem_reverse]
      exact List.mem_flatMap.2 ⟨a, ha, List.mem_map.2 ⟨g, hg, rfl⟩⟩
    · rw [written_eq hgrouped, List.Nodup, List.pairwise_map]
      refine hapart.imp fun {f g} h heq => ?_
      exact h.not_above (List.append_cancel_left heq ▸ List.prefix_rfl)

/-! ## Artifacts of entries -/

/-- What stands behind the stem of a stylesheet, and of its source map. -/
def endings : List (List Char) := [".css".toList, ".css.map".toList]

/-- The files of an artifact are called like its entry, apart from the ending. -/
structure Settled (a : Artifact) (directory : List Segment) (name : Segment) : Prop where
  spot : Spot a.path.toList directory name
  files : ∀ out, a.files out = (a.files []).map fun f => (out ++ f.1, f.2)
  called : ∀ f ∈ a.layout, ∃ ending ∈ endings, f.1 = Place.site directory name ending
  first : a.isCompiled = true → ∃ f ∈ a.layout, f.1 = Place.site directory name ".css".toList
  apart : a.layout.Pairwise fun f g => f.1.Apart g.1

theorem not_mem_of_mem_endings {ending : List Char} (h : ending ∈ endings) :
    '/' ∉ ending ∧ '\x00' ∉ ending ∧ 2 < ending.length := by
  revert ending
  decide

/-- The endings tell files of one entry from each other. -/
theorem eq_of_append_ending {n n' ending ending' : List Char} (h : ending ∈ endings)
    (h' : ending' ∈ endings) (heq : n ++ ending = n' ++ ending') : n = n' ∧ ending = ending' := by
  have hlast := congrArg List.getLast? heq
  simp only [endings, List.mem_cons, List.not_mem_nil, or_false] at h h'
  rcases h with rfl | rfl <;> rcases h' with rfl | rfl
  · exact ⟨List.append_cancel_right heq, rfl⟩
  · simp [List.getLast?_append] at hlast
  · simp [List.getLast?_append] at hlast
  · exact ⟨List.append_cancel_right heq, rfl⟩

theorem site_prefix_iff {directory directory' : List Segment} {name name' ending ending' : Segment} :
    Place.site directory name ending <+: Place.site directory' name' ending' ↔
      (directory = directory' ∧ name ++ ending = name' ++ ending') ∨
        Place.site directory name ending <+: directory'.map String.ofList := by
  have hinjective : Function.Injective (List.map String.ofList) :=
    List.map_injective_iff.2 fun a b h => String.ofList_injective h
  have hconcat : ∀ d n e, Place.site d n e = d.map String.ofList ++ [String.ofList (n ++ e)] := by
    intro d n e
    rw [Place.site, List.map_append, List.map_singleton]
  rw [hconcat directory' name' ending', List.prefix_concat_iff, ← hconcat]
  refine or_congr_left ?_
  rw [Place.site, Place.site, hinjective.eq_iff]
  constructor
  · intro h
    obtain ⟨hdirectory, hname⟩ := List.append_inj' h rfl
    exact ⟨hdirectory, List.singleton_inj.1 hname⟩
  · rintro ⟨rfl, heq⟩
    rw [heq]

/-- Files of entries are apart unless they are one, or one of them is called like a directory of the
other entry. -/
theorem apart_site_iff {directory directory' : List Segment} {name name' ending ending' : Segment}
    (h : ending ∈ endings) (h' : ending' ∈ endings) :
    (Place.site directory name ending).Apart (Place.site directory' name' ending') ↔
      ¬ (directory = directory' ∧ name = name' ∧ ending = ending') ∧
        ¬ Place.site directory name ending <+: directory'.map String.ofList ∧
        ¬ Place.site directory' name' ending' <+: directory.map String.ofList := by
  constructor
  · rintro ⟨hp, hp'⟩
    rw [site_prefix_iff, not_or] at hp hp'
    refine ⟨?_, hp.2, hp'.2⟩
    rintro ⟨rfl, rfl, rfl⟩
    exact hp.1 ⟨rfl, rfl⟩
  · rintro ⟨hne, hp, hp'⟩
    constructor
    · rw [site_prefix_iff, not_or]
      refine ⟨fun ⟨hdirectory, heq⟩ => hne ⟨hdirectory, ?_⟩, hp⟩
      exact eq_of_append_ending h h' heq
    · rw [site_prefix_iff, not_or]
      refine ⟨fun ⟨hdirectory, heq⟩ => hne ⟨hdirectory.symm, ?_⟩, hp'⟩
      exact eq_of_append_ending h h' heq.symm

/-- A stylesheet and its map are apart. -/
theorem apart_site_map (directory : List Segment) (name : Segment) :
    (Place.site directory name ".css".toList).Apart
      (Place.site directory name ".css.map".toList) := by
  have hshort : ∀ ending, ¬ Place.site directory name ending <+: directory.map String.ofList := by
    intro ending hp
    have hlength := hp.length_le
    simp only [Place.site, List.length_map, List.length_append, List.length_cons,
      List.length_nil] at hlength
    omega
  rw [apart_site_iff (by decide) (by decide)]
  exact ⟨fun h => absurd h.2.2 (by decide), hshort _, hshort _⟩

/-- The files of a stylesheet whose entry has a canonical path. -/
theorem files_compiled {path : String} {directory : List Segment} {name : Segment}
    (h : Spot path.toList directory name) (out : Place) (text : Loose) (sourceMap : Option Loose)
    (watched : List Loose) :
    (compiled path (String.ofList (Path.outputPath path.toList)) text sourceMap watched).files out
      = (out ++ Place.site directory name ".css".toList, text) ::
        sourceMap.toList.map fun m => (out ++ Place.site directory name ".css.map".toList, m) := by
  simp only [files, h.join_outputPath, Place.mapLast_site]
  cases sourceMap with
  | none => rfl
  | some m => rfl

/-- The artifact of an entry whose path is canonical. -/
theorem exists_settled {u : UnitResult} (h : IsCanonical u.path.toList) {a : Artifact}
    (ha : ofUnit u = .ok a) : ∃ directory name, a.Settled directory name := by
  obtain ⟨directory, name, hspot⟩ := Path.exists_spot h
  refine ⟨directory, name, ?_⟩
  unfold ofUnit at ha
  split at ha
  · exact absurd ha (by simp)
  · split at ha
    · obtain rfl := Except.ok.inj ha
      exact ⟨hspot, fun out => rfl, by simp [layout, files], by simp [isCompiled],
        by simp [layout, files]⟩
    · rename_i text _
      obtain rfl := Except.ok.inj ha
      have hfiles := fun out =>
        files_compiled hspot out text u.entry.sourceMap u.entry.dependencies
      refine ⟨hspot, fun out => ?_, ?_, fun _ => ?_, ?_⟩
      · rw [hfiles, hfiles]
        simp
      · rw [layout, hfiles]
        cases u.entry.sourceMap with
        | none => simp [endings]
        | some m => simp [endings]
      · rw [layout, hfiles]
        exact ⟨_, List.mem_cons_self, rfl⟩
      · rw [layout, hfiles]
        cases u.entry.sourceMap with
        | none => simp
        | some m => simpa using apart_site_map directory name

theorem exists_unit_of_mem {us : List UnitResult} (h : ofBatch ⟨us⟩ = .ok as) (ha : a ∈ as) :
    ∃ u ∈ us, ofUnit u = .ok a := by
  unfold ofBatch at h
  induction us generalizing as with
  | nil =>
    obtain rfl := Except.ok.inj h
    exact absurd ha List.not_mem_nil
  | cons u us ih =>
    rw [List.mapM_cons] at h
    cases hu : ofUnit u with
    | error e =>
      rw [hu] at h
      exact absurd h (by simp [bind, Except.bind])
    | ok b =>
      cases hus : us.mapM ofUnit with
      | error e =>
        rw [hu, hus] at h
        exact absurd h (by simp [bind, Except.bind])
      | ok bs =>
        rw [hu, hus] at h
        obtain rfl := Except.ok.inj h
        rcases List.mem_cons.1 ha with rfl | ha
        · exact ⟨u, List.mem_cons_self, hu⟩
        · obtain ⟨v, hv, hav⟩ := ih hus ha
          exact ⟨v, List.mem_cons_of_mem _ hv, hav⟩

/-- A file of an artifact is called like a directory that the entry of another lies in. -/
def Blocks (a b : Artifact) : Prop :=
  ∃ f ∈ a.layout, f.1 <+: (Place.names b.path.toList).dropLast

/-- Artifacts that cannot both be kept: their entries differ in the extension at most, or one is in the
way of the other. -/
def Clash (a b : Artifact) : Prop :=
  Path.stem a.path.toList = Path.stem b.path.toList ∨ a.Blocks b ∨ b.Blocks a

namespace Settled

variable {b : Artifact} {directory directory' : List Segment} {name name' : Segment}

theorem grouped (h : a.Settled directory name) : a.Grouped where
  files := h.files
  plain := by
    intro f hf
    obtain ⟨ending, hending, heq⟩ := h.called f hf
    obtain ⟨hslash, -, hlong⟩ := not_mem_of_mem_endings hending
    exact heq ▸ h.spot.plain_site hslash hlong
  beside := by
    intro f hf g hg
    obtain ⟨ending, -, heq⟩ := h.called f hf
    obtain ⟨ending', -, heq'⟩ := h.called g hg
    rw [heq, heq', Place.dropLast_site, Place.dropLast_site]

/-- The disk can hold the files of a stylesheet when it can hold the path of the entry. -/
theorem nameable_iff (h : a.Settled directory name) :
    (∀ f ∈ a.layout, f.1.all Place.isNameable = true) ↔
      (a.isCompiled = true → Place.isNameable a.path = true) := by
  have hsite : ∀ ending ∈ endings, (Place.site directory name ending).all Place.isNameable = true ↔
      Place.isNameable a.path = true := by
    intro ending hending
    obtain ⟨hslash, hnull, -⟩ := not_mem_of_mem_endings hending
    rw [h.spot.nameable_site hslash hnull, String.ofList_toList]
  constructor
  · intro hnames hcompiled
    obtain ⟨f, hf, heq⟩ := h.first hcompiled
    exact (hsite _ (by decide)).1 (heq ▸ hnames f hf)
  · intro hname f hf
    obtain ⟨ending, hending, heq⟩ := h.called f hf
    rw [heq, hsite ending hending]
    refine hname ?_
    cases a with
    | compiled => rfl
    | failed => exact absurd hf List.not_mem_nil

theorem blocks_iff (h : b.Settled directory' name') (hcanonical : IsCanonical b.path.toList) :
    a.Blocks b ↔ ∃ f ∈ a.layout, f.1 <+: directory'.map String.ofList := by
  rw [Blocks, Place.names_of_isCanonical hcanonical, ← List.map_dropLast, h.spot.beside]

/-- The files of two stylesheets are apart exactly when these do not clash. -/
theorem apart_iff (ha : a.Settled directory name) (hb : b.Settled directory' name')
    (hca : IsCanonical a.path.toList) (hcb : IsCanonical b.path.toList)
    (hcompiled : a.isCompiled = true) (hcompiled' : b.isCompiled = true) :
    (∀ f ∈ a.layout, ∀ g ∈ b.layout, f.1.Apart g.1) ↔ ¬ a.Clash b := by
  rw [Clash, hb.blocks_iff hcb, ha.blocks_iff hca]
  obtain ⟨f₁, hf₁, heq₁⟩ := ha.first hcompiled
  obtain ⟨g₁, hg₁, heq₁'⟩ := hb.first hcompiled'
  constructor
  · intro hapart hclash
    rcases hclash with hstem | ⟨f, hf, hp⟩ | ⟨g, hg, hp⟩
    · have hsame := ha.spot.append ".css".toList (by decide)
      rw [hstem, hb.spot.append _ (by decide)] at hsame
      refine (hapart f₁ hf₁ g₁ hg₁).not_above ?_
      rw [heq₁, heq₁', Place.site, Place.site, hsame]
    · refine (hapart f hf g₁ hg₁).not_above (hp.trans ?_)
      rw [heq₁', ← Place.dropLast_site directory' name' ".css".toList]
      exact List.dropLast_prefix _
    · refine (hapart f₁ hf₁ g hg).not_below (hp.trans ?_)
      rw [heq₁, ← Place.dropLast_site directory name ".css".toList]
      exact List.dropLast_prefix _
  · intro hclash f hf g hg
    simp only [not_or, not_exists, not_and] at hclash
    obtain ⟨hstem, hblocks, hblocks'⟩ := hclash
    obtain ⟨ending, hending, heq⟩ := ha.called f hf
    obtain ⟨ending', hending', heq'⟩ := hb.called g hg
    have hp := hblocks f hf
    have hp' := hblocks' g hg
    rw [heq] at hp ⊢
    rw [heq'] at hp' ⊢
    rw [apart_site_iff hending hending']
    refine ⟨?_, hp, hp'⟩
    rintro ⟨rfl, rfl, -⟩
    exact hstem (ha.spot.stem_eq.trans hb.spot.stem_eq.symm)

end Settled

/-- The artifacts of entries with canonical paths are written without loss into an empty directory
exactly when their texts can be encoded, the disk can hold the names of the stylesheets, and no two of
these clash. -/
theorem intact_iff_pairwise_clash (hbare : t.Bare out)
    (hsettled : ∀ a ∈ as, IsCanonical a.path.toList ∧ ∃ directory name, a.Settled directory name) :
    Intact out t as ↔ (∀ a ∈ as, a.Encodable) ∧
      (∀ a ∈ as, a.isCompiled = true → Place.isNameable a.path = true) ∧
      (as.filter (·.isCompiled)).Pairwise fun a b => ¬ a.Clash b := by
  have hgrouped : ∀ a ∈ as, a.Grouped := by
    intro a ha
    obtain ⟨-, directory, name, h⟩ := hsettled a ha
    exact h.grouped
  rw [intact_iff_pairwise_apart hbare hgrouped]
  refine and_congr_right fun _ => and_congr ?_ ?_
  · simp only [List.mem_flatMap, forall_exists_index, and_imp]
    rw [forall_comm]
    refine forall_congr' fun a => ?_
    constructor
    · intro hall ha
      obtain ⟨-, directory, name, h⟩ := hsettled a ha
      exact h.nameable_iff.1 fun f hf => hall f ha hf
    · intro hname f ha
      obtain ⟨-, directory, name, h⟩ := hsettled a ha
      exact h.nameable_iff.2 (hname ha) f
  · -- an artifact without files is apart from every other
    have hnone : ∀ a : Artifact, a.isCompiled = false → a.layout = [] := by
      intro a ha
      cases a with
      | compiled => exact absurd ha (by simp [isCompiled])
      | failed => rfl
    have happ : ∀ a ∈ as, ∀ b ∈ as, (∀ f ∈ a.layout, ∀ g ∈ b.layout, f.1.Apart g.1) ↔
        (a.isCompiled = true → b.isCompiled = true → ¬ a.Clash b) := by
      intro a ha b hb
      obtain ⟨hca, _, _, hsa⟩ := hsettled a ha
      obtain ⟨hcb, _, _, hsb⟩ := hsettled b hb
      cases hcompiled : a.isCompiled with
      | false => simp [hnone a hcompiled]
      | true =>
        cases hcompiled' : b.isCompiled with
        | false => simp [hnone b hcompiled']
        | true =>
          rw [hsa.apart_iff hsb hca hcb hcompiled hcompiled']
          simp
    rw [List.pairwise_flatMap, List.pairwise_filter]
    constructor
    · rintro ⟨-, h⟩
      exact h.imp_of_mem fun ha hb hapart => (happ _ ha _ hb).1 hapart
    · intro h
      refine ⟨fun a ha => ?_, h.imp_of_mem fun ha hb hclash => (happ _ ha _ hb).2 hclash⟩
      obtain ⟨-, directory, name, hs⟩ := hsettled a ha
      exact hs.apart

end Artifact

/-! ## Whole batches -/

namespace Batch

/-- The path of the unit that a decision is about. -/
def Decision.path : Decision → String
  | .decided r => r.path
  | .pending p => p.file.path

theorem Compiles.path {b : Batch} {compiler : Compiler} {s s' : Progress} {p : Pending}
    {u : UnitResult} {made : List Call} (h : b.Compiles compiler p s u made s') :
    u.path = p.file.path := by
  cases h <;> rfl

/-- A batch has one result for each entry, in their order. -/
theorem map_path_execute {b : Batch} {compiler : Compiler} {s s' : Store} {us : List UnitResult}
    {calls : List Call} (h : b.execute compiler s = (.ok (us, calls), s')) :
    us.map (·.path) = b.entries.map (·.path) := by
  have hdecides : ∀ t ∈ b.tasks, ∀ s d s', True → b.Decides s t d s' →
      True ∧ t.file.path = d.path := by
    rintro t - s d s' - hd
    cases hd <;> exact ⟨trivial, rfl⟩
  have hfirst := b.decideTasks_invariant hdecides (s := s) trivial
  rw [execute_eq] at h
  cases hd : b.decideTasks s b.tasks with
  | mk answer s₁ =>
    rw [hd] at h hfirst
    cases answer with
    | error e => exact absurd (Prod.mk.inj h).1 (by simp)
    | ok ds =>
      have hcompiles : ∀ p, Decision.pending p ∈ ds → ∀ s u s', True →
          b.compile compiler s p = (.ok u, s') → True ∧ u.path = p.file.path := by
        intro p _ s u s' _ heq
        obtain ⟨made, hc⟩ := compiles_of_compile heq
        exact ⟨trivial, hc.path⟩
      have hsecond := b.finish_invariant compiler (Q := fun p u => u.path = p.file.path) hcompiles
        (s := ⟨s₁, [], false⟩) trivial
      simp only at h
      cases hf : b.finish compiler ⟨s₁, [], false⟩ ds with
      | mk answer s₂ =>
        rw [hf] at h hsecond
        cases answer with
        | error e => exact absurd (Prod.mk.inj h).1 (by simp)
        | ok results =>
          obtain ⟨rfl, -⟩ := Prod.mk.inj (Except.ok.inj (Prod.mk.inj h).1)
          have hdecided : b.tasks.map (·.file.path) = ds.map (·.path) := by
            rw [← List.forall₂_eq_eq_eq, List.forall₂_map_left_iff, List.forall₂_map_right_iff]
            exact hfirst.2
          have hfinished : ds.map (·.path) = results.map (·.path) := by
            rw [← List.forall₂_eq_eq_eq, List.forall₂_map_left_iff, List.forall₂_map_right_iff]
            refine hsecond.2.imp fun d u hdu => ?_
            cases d with
            | decided r => exact congrArg UnitResult.path hdu.symm
            | pending p => exact hdu.symm
          rw [← hfinished, ← hdecided, ← b.map_file_tasks, List.map_map]
          rfl

end Batch

/-- The results of a batch are those of its entries. -/
theorem exists_entry_of_run {c : Context} {compiler : Compiler} {s : Store} {files : FileSet}
    {target : Option String} {report : Report}
    (h : run c compiler s files.files target = .ok report) :
    ∀ u ∈ report.result.results, ∃ f ∈ files.files, f.path = u.path ∧ f.isPartial = false := by
  intro u hu
  cases hclosed : c.closed with
  | true => simp [run, hclosed] at h
  | false =>
    rw [run_files hclosed] at h
    cases hexecuted : (Batch.ofFiles c.options target files).execute compiler s with
    | mk answer s' =>
      rw [hexecuted] at h
      cases answer with
      | error e => cases e <;> exact absurd h (by simp [Context.report])
      | ok executed =>
        obtain ⟨us, calls⟩ := executed
        obtain rfl := Except.ok.inj h
        have hmem := List.mem_map_of_mem (f := (·.path)) hu
        rw [Batch.map_path_execute hexecuted] at hmem
        obtain ⟨f, hf, hpath⟩ := List.mem_map.1 hmem
        obtain ⟨hfiles, -, -, hpartial⟩ := Batch.mem_entries_ofFiles.1 hf
        exact ⟨f, hfiles, hpath, hpartial⟩

/-- A batch over files with canonical paths has an artifact for each entry.  Writing them into an empty
directory keeps every stylesheet and every source map, each in a file of its own, exactly when no half of
a surrogate pair stands in them, the disk can hold the names of those that succeeded, no two of them
differ in the extension alone, and none has a file that is called like a directory which another one
lies in. -/
theorem intact_iff_no_clash {c : Context} {compiler : Compiler} {s : Store} (files : FileSet)
    {target : Option String} {report : Report} {t : Tree} {out : Place}
    (hpaths : ∀ f ∈ files.files, ∃ written, Path.normalize written = .ok f.path)
    (hrun : run c compiler s files.files target = .ok report) (hbare : t.Bare out) :
    ∃ as, Artifact.ofBatch report.result = .ok as ∧
      (Artifact.Intact out t as ↔ (∀ a ∈ as, a.Encodable) ∧
        (∀ a ∈ as, a.isCompiled = true → Place.isNameable a.path = true) ∧
          (as.filter (·.isCompiled)).Pairwise fun a b => ¬ a.Clash b) := by
  have hentry := exists_entry_of_run hrun
  have hpartial : ∀ u ∈ report.result.results, Path.isPartial u.path.toList = false := by
    intro u hu
    obtain ⟨f, -, hpath, hf⟩ := hentry u hu
    rw [← hpath]
    exact hf
  obtain ⟨as, has, -⟩ := Artifact.exists_ofBatch hpartial
  refine ⟨as, has, Artifact.intact_iff_pairwise_clash hbare fun a ha => ?_⟩
  obtain ⟨u, hu, hau⟩ := Artifact.exists_unit_of_mem has ha
  obtain ⟨f, hf, hpath, -⟩ := hentry u hu
  obtain ⟨written, hwritten⟩ := hpaths f hf
  have hcanonical := Path.isCanonical_of_normalize hwritten
  rw [hpath] at hcanonical
  obtain ⟨a', ha', hpath', -⟩ := Artifact.exists_ofUnit (hpartial u hu)
  obtain rfl : a = a' := Except.ok.inj (hau.symm.trans ha')
  exact ⟨hpath' ▸ hcanonical, Artifact.exists_settled hcanonical hau⟩

/-! ## Two spellings of one sheet -/

/-- Two sheets that differ in the spelling of the language. -/
def spellings : FileSet := .ofList [.labelled "a.scss" "b" "1", .labelled "a.sass" "b" "2"]

/-- A compiler that gives every sheet its path. -/
def pathAsText : Compiler := fun f _ => .finish (.ok ⟨f.path, none⟩)

/-- A disk with one directory. -/
def oneDirectory : Tree := ⟨[(["out"], .directory)]⟩

theorem bare_oneDirectory : oneDirectory.Bare ["out"] where
  located := by decide
  directory := by decide
  empty := by
    intro p hp
    obtain ⟨n, ns, rfl⟩ := Place.isBelow_iff.1 hp
    simp [Tree.node?, oneDirectory, Place.resolve, Place.push, Place.up, List.lookup_cons]

theorem entries_spellings : (Batch.ofFiles {} none spellings).entries
    = [.labelled "a.sass" "b" "2", .labelled "a.scss" "b" "1"] :=
  Batch.entries_eq_of_perm_of_pairwise (by decide +kernel) (by decide +kernel)

/-- Both sheets succeed, and one of the stylesheets is lost. -/
theorem not_intact_spellings : ∃ report as, run {} pathAsText {} spellings.files none = .ok report ∧
    Artifact.ofBatch report.result = .ok as ∧ as.all (·.isCompiled) = true ∧
    ¬ Artifact.Intact ["out"] oneDirectory as := by
  have hpaths : ∀ f ∈ spellings.files, ∃ written, Path.normalize written = .ok f.path := by
    have hfixed : ∀ f ∈ spellings.files, Path.normalize f.path = .ok f.path := by decide +kernel
    exact fun f hf => ⟨f.path, hfixed f hf⟩
  have hartifacts : (run {} pathAsText {} spellings.files none).toOption.map
      (fun r => Artifact.ofBatch r.result)
      = some (.ok [.compiled "a.sass" "a.css" "a.sass" none [],
        .compiled "a.scss" "a.css" "a.scss" none []]) := by
    rw [run_files rfl, Batch.execute_eq, Batch.tasks, entries_spellings]
    decide +kernel
  cases hrun : run {} pathAsText {} spellings.files none with
  | error e =>
    rw [hrun] at hartifacts
    exact absurd hartifacts (by simp [Except.toOption])
  | ok report =>
    rw [hrun] at hartifacts
    obtain ⟨as, has, hintact⟩ := intact_iff_no_clash spellings hpaths hrun bare_oneDirectory
    obtain rfl := Except.ok.inj (has.symm.trans (Option.some.inj hartifacts))
    refine ⟨report, _, rfl, has, rfl, fun h => ?_⟩
    have hclash := (hintact.1 h).2.2
    simp only [Artifact.isCompiled, List.filter_cons_of_pos, List.pairwise_cons] at hclash
    exact hclash.1 _ List.mem_cons_self (.inl (by decide))

end SheetBuild.Build
