import Mathlib.Data.List.Infix
import SheetBuild.Proofs.Cache.Request
import SheetBuild.Proofs.Cache.Shelves
set_option autoImplicit false

/-!
# Whatever stands at the place of a document

A store that has nothing in memory reads what stands at the place of a key, which may be anything:
no file, a file of any bytes, a directory, or nothing since a file stands in the place of a
directory on the way.  It gives an entry exactly where the bytes are a document; otherwise the entry
is missing, and is computed and stored like any other one.  Where there is room for a document
(`Room`), it takes the place of what stood there (`lookup_of_any_document`).
-/

namespace SheetBuild.Cache

open SheetBuild.Disk (Node Place Tree)

variable {t : Tree} {d : Place} {key : String} {s : Store} {e : Entry}

/-! ## What is read -/

/-- At the place of a key stands a file whose bytes are a text, and this is what is read from the
text. -/
def ReadsAs (t : Tree) (d : Place) (key : String) (answer : Except DocumentError Entry) : Prop :=
  ∃ bytes cs, t.find? (documentPlace d key) = some (.file bytes) ∧
    Text.Utf8.decode? bytes = some cs ∧
    deserialize (String.ofList (Text.unifyNewlines cs)) = answer

theorem ofBytes_eq_entry_iff {bytes : Bytes} :
    Content.ofBytes bytes = .entry e ↔ ∃ cs, Text.Utf8.decode? bytes = some cs ∧
      deserialize (String.ofList (Text.unifyNewlines cs)) = .ok e := by
  unfold Content.ofBytes
  cases Text.Utf8.decode? bytes with
  | none => simp
  | some cs =>
    simp only [Option.some.injEq, exists_eq_left']
    split <;> simp_all

theorem ofBytes_eq_tooDeep_iff {bytes : Bytes} {deep : Json.TooDeep} :
    Content.ofBytes bytes = .tooDeep deep ↔ ∃ cs, Text.Utf8.decode? bytes = some cs ∧
      deserialize (String.ofList (Text.unifyNewlines cs)) = .error (.notRead (.tooDeep deep)) := by
  unfold Content.ofBytes
  cases Text.Utf8.decode? bytes with
  | none => simp
  | some cs =>
    simp only [Option.some.injEq, exists_eq_left']
    split <;> simp_all

namespace Store

/-- What is persisted under a key is what the file at its place holds. -/
theorem persisted_eq_iff (hd : s.directory = some d) (hdigest : isDigest key = true)
    {content : Content} (hreadable : content ≠ .unreadable) :
    s.persisted key = some content ↔
      ∃ bytes, s.disk.find? (documentPlace d key) = some (.file bytes) ∧
        Content.ofBytes bytes = content := by
  simp only [persisted, hd, hdigest, if_true]
  cases s.disk.find? (documentPlace d key) with
  | none => simp
  | some n =>
    cases n with
    | directory => simp [hreadable.symm]
    | file bytes => simp

theorem persisted_eq_entry_iff (hd : s.directory = some d) (hdigest : isDigest key = true) :
    s.persisted key = some (.entry e) ↔ ReadsAs s.disk d key (.ok e) := by
  simp only [persisted_eq_iff hd hdigest (by simp : Content.entry e ≠ .unreadable),
    ofBytes_eq_entry_iff, ReadsAs, exists_and_left]

theorem persisted_eq_tooDeep_iff (hd : s.directory = some d) (hdigest : isDigest key = true)
    {deep : Json.TooDeep} :
    s.persisted key = some (.tooDeep deep)
      ↔ ReadsAs s.disk d key (.error (.notRead (.tooDeep deep))) := by
  simp only [persisted_eq_iff hd hdigest (by simp : Content.tooDeep deep ≠ .unreadable),
    ofBytes_eq_tooDeep_iff, ReadsAs, exists_and_left]

/-- A key that is not in memory has the entry that is persisted. -/
theorem lookup_eq_some_iff (hmemory : s.memory.find? key = none) :
    (s.lookup key).1 = .ok (some e) ↔ s.persisted key = some (.entry e) := by
  unfold lookup
  rw [hmemory]
  simp only
  split <;> simp_all

theorem lookup_eq_error_iff (hmemory : s.memory.find? key = none) {deep : Json.TooDeep} :
    (s.lookup key).1 = .error deep ↔ s.persisted key = some (.tooDeep deep) := by
  unfold lookup
  rw [hmemory]
  simp only
  split <;> simp_all

/-- A key is missing where it is not in memory and nothing that can be read is persisted. -/
theorem lookup_eq_none_iff :
    (s.lookup key).1 = .ok none ↔ s.memory.find? key = none ∧
      (s.persisted key = none ∨ s.persisted key = some .unreadable) := by
  unfold lookup
  cases s.memory.find? key with
  | some e => simp
  | none =>
    simp only
    split <;> simp_all

/-- A lookup that finds nothing leaves a warning at most. -/
theorem memory_of_lookup_eq_none (h : (s.lookup key).1 = .ok none) :
    (s.lookup key).2.memory = s.memory := by
  obtain ⟨hmemory, hnone | hunreadable⟩ := lookup_eq_none_iff.1 h
  · rw [lookup, hmemory, hnone]
  · rw [lookup, hmemory, hunreadable]
    rfl

/-- What was missing is still missing. -/
theorem lookup_again_eq_none (h : (s.lookup key).1 = .ok none) :
    ((s.lookup key).2.lookup key).1 = .ok none := by
  rw [lookup_eq_none_iff, persisted_lookup, memory_of_lookup_eq_none h]
  exact lookup_eq_none_iff.1 h

end Store

/-! ## What is written -/

/-- There is room for the document of a key: no file stands on the way to it, no directory in its
place, and the way does not lead through its place. -/
structure Room (t : Tree) (d : Place) (key : String) : Prop where
  way : t.Passable (shelf d key)
  place : t.node? (documentAt d key) ≠ some .directory
  apart : ∀ q : Place, q <+: shelf d key → q.resolve ≠ documentAt d key

/-- The way to a document does not lead through its place where it never leads up. -/
theorem apart_of_not_mem (hup : Place.up ∉ d) (hdigest : isDigest key = true) :
    ∀ q : Place, q <+: shelf d key → q.resolve ≠ documentAt d key := by
  intro q hq heq
  have hshelf : Place.up ∉ shelf d key := by
    rw [shelf_eq, List.mem_append, List.mem_singleton]
    rintro (hmem | heq)
    · exact hup hmem
    · exact shelfName_ne_up hdigest heq.symm
  rw [Place.resolve_of_not_mem fun hmem => hshelf (hq.subset hmem)] at heq
  have hlength := hq.length_le
  simp [heq, documentAt, shelfAt, Place.resolve_of_not_mem hup, shelf_eq] at hlength

/-- Where there is room, a document is written and found. -/
theorem Room.write (h : Room t d key) (hname : d.all Place.isNameable = true)
    (hdigest : isDigest key = true) (content : Bytes) :
    ∃ t₁ t₂, t.makeDirectories (shelf d key) = (t₁, none) ∧
      t₁.write (documentPlace d key) content = .ok t₂ ∧
      t₂.find? (documentPlace d key) = some (.file content) := by
  have hnames : (shelf d key).all Place.isNameable = true := by
    rw [shelf_eq]
    simp [hname, isNameable_shelfName hdigest]
  obtain ⟨t₁, hmade, hkept⟩ := h.way.make hnames
  obtain ⟨q, hshelf, hdirectory⟩ := Tree.exists_of_makeDirectories hmade
  obtain rfl : q = shelfAt d key := by
    rw [Tree.locate_eq_ok hshelf, shelf_eq, Place.resolve_snoc (shelfName_ne_up hdigest)]
    rfl
  have hplace := locate_documentPlace hdigest hshelf hdirectory
  have hfree : t₁.node? (documentAt d key) ≠ some .directory := by
    rcases hkept (documentAt d key) with heq | ⟨-, q, hq, heq⟩
    · rw [heq]
      exact h.place
    · exact absurd heq.symm (h.apart q hq)
  have hwrite : t₁.write (documentPlace d key) content
      = .ok (t₁.put (documentAt d key) (.file content)) := by
    simp only [Tree.write, hplace, if_neg hfree]
  refine ⟨t₁, _, hmade, hwrite, ?_⟩
  have hkeeps : ∀ r, t₁.node? r = some .directory →
      (t₁.put (documentAt d key) (.file content)).node? r = some .directory := by
    intro r hr
    rwa [Tree.node?_put_of_ne]
    rintro rfl
    exact hfree hr
  rw [Tree.find?, Tree.locate_mono hkeeps hplace]
  exact Tree.node?_put_self t₁ _ (by simp [documentAt])

/-- Where there is room, an entry that is stored is persisted. -/
theorem Room.store (h : Room s.disk d key) (hname : d.all Place.isNameable = true)
    (hdigest : isDigest key = true) (hd : s.directory = some d)
    (hmemory : s.memory.find? key = none) (hshort : e.IsShort) :
    (s.store key e).2.disk.find? (documentPlace d key) = some (.file (contentOf e)) := by
  obtain ⟨t₁, t₂, hmade, hwrite, hfind⟩ := h.write hname hdigest (contentOf e)
  have hdirectory : (s.remember key e).directory = some d := hd
  have hpersist : (s.remember key e).persist d key e
      = (none, { s.remember key e with disk := t₂ }) :=
    Store.persist_of_written hdigest hmade hshort hwrite
  unfold Store.store
  rw [hmemory, if_neg (by simp)]
  simp only [hdirectory, hpersist]
  exact hfind

/-- In a store with nothing in memory, nothing in flight and a directory that the disk can hold, a
digest is looked up whatever stands at its place.  The lookup fails only on brackets beyond the
depth that is read; it gives an entry, which is a stylesheet or a failure and not both, exactly
where a document stands there; and otherwise it leaves the memory alone.  An entry that is missing
is computed and stored, and where there is room for its document, every store that is opened on the
disk afterwards gives that entry; halves of a surrogate pair, if there are any side by side in its texts,
are joined then. -/
theorem lookup_of_any_document (hdigest : isDigest key = true)
    (hname : d.all Place.isNameable = true) (hd : s.directory = some d)
    (hmemory : s.memory.entries = []) (hidle : s.inFlight = []) :
    (∀ deep, (s.lookup key).1 = .error deep
      ↔ ReadsAs s.disk d key (.error (.notRead (.tooDeep deep)))) ∧
    (∀ e, (s.lookup key).1 = .ok (some e) ↔ ReadsAs s.disk d key (.ok e)) ∧
    (∀ e, (s.lookup key).1 = .ok (some e) → e.css?.isSome = !e.diagnostic?.isSome) ∧
    ((s.lookup key).1 = .ok none →
      (s.lookup key).2.memory = s.memory ∧
      ∀ (ε : Type) (e : Entry), e.IsShort → ∃ s',
        (s.lookup key).2.getOrCompute key (fun store => ((.ok e : Except ε Entry), store))
          = (.ok ⟨e, true⟩, s') ∧
        (Room s.disk d key → ∀ limit s₂, Store.new (some d) limit s'.disk = .ok s₂ →
          (s₂.lookup key).1 = .ok (some e.joined) ∧
            (e.IsApart → (s₂.lookup key).1 = .ok (some e)))) := by
  have hforgotten : s.memory.find? key = none := by simp [Memory.find?, hmemory]
  refine ⟨fun deep => ?_, fun e => ?_, fun e _ => e.css?_isSome_eq_not_diagnostic?_isSome, ?_⟩
  · rw [Store.lookup_eq_error_iff hforgotten, Store.persisted_eq_tooDeep_iff hd hdigest]
  · rw [Store.lookup_eq_some_iff hforgotten, Store.persisted_eq_entry_iff hd hdigest]
  · intro hmissing
    have hmissing' := Store.lookup_again_eq_none hmissing
    have hmemory₁ := Store.memory_of_lookup_eq_none hmissing
    have hmemory₂ := Store.memory_of_lookup_eq_none hmissing'
    obtain ⟨hdirectory₁, hdisk₁, -⟩ := Store.lookup_spares s key
    obtain ⟨hdirectory₂, hdisk₂, -⟩ := Store.lookup_spares (s.lookup key).2 key
    refine ⟨hmemory₁, fun ε e hshort => ?_⟩
    have hidle₁ : (s.lookup key).2.inFlight = [] := by rw [Store.inFlight_lookup, hidle]
    generalize (s.lookup key).2 = s₁ at *
    rw [Store.getOrCompute_of_free (by simp [hidle₁])]
    cases hlook : s₁.lookup key with
    | mk answer s₂ =>
      rw [hlook] at hmissing' hmemory₂ hdirectory₂ hdisk₂
      obtain rfl : answer = .ok none := hmissing'
      have hhome : s₂.directory = some d := hdirectory₂.trans (hdirectory₁.trans hd)
      have hstored : s₂.store key e = (none, (s₂.store key e).2) := by
        refine Prod.ext (Store.store_eq_none fun d' hd' => ⟨?_, hshort⟩) rfl
        rwa [← Option.some.inj (hhome.symm.trans hd')]
      simp only
      rw [hstored]
      refine ⟨_, rfl, fun hroom limit s₃ hnew => ?_⟩
      have hroom₂ : Room s₂.disk d key := by
        rw [hdisk₂, hdisk₁]
        exact hroom
      have hwritten := hroom₂.store hname hdigest hhome
        (by rw [hmemory₂, hmemory₁, hforgotten]) hshort
      obtain ⟨hentries, hdirectory, hdisk, -⟩ := Store.new_eq_ok hnew
      have hforgotten₃ : s₃.memory.find? key = none := by simp [Memory.find?, hentries]
      have hread : (s₃.lookup key).1 = .ok (some e.joined) := by
        rw [Store.lookup_eq_some_iff hforgotten₃,
          Store.persisted_eq_iff hdirectory hdigest (by simp), hdisk]
        exact ⟨_, hwritten, ofBytes_contentOf hshort⟩
      exact ⟨hread, fun hapart => by rw [hread, hapart.joined_eq]⟩

/-! ## A file that is no text -/

/-- The key of a sheet. -/
def spoiledKey : String := "0123456789abcdef"

/-- A store with nothing in memory, and a file that is no text in the place of a document. -/
def spoiled : Store where
  directory := some ["cache"]
  disk := ⟨[(["cache"], .directory), (["cache", "01"], .directory),
    (["cache", "01", spoiledKey ++ documentExtension], .file [0xFF])]⟩

/-- The file is taken for a missing entry, and its place by the entry that is computed then. -/
theorem lookup_spoiled :
    (spoiled.lookup spoiledKey).1 = .ok none ∧ ∃ s',
      (spoiled.lookup spoiledKey).2.getOrCompute spoiledKey
          (fun store => ((.ok ⟨.css "x", none, []⟩ : Except Empty Entry), store))
        = (.ok ⟨⟨.css "x", none, []⟩, true⟩, s') ∧
      ∀ s₂, Store.new (some ["cache"]) none s'.disk = .ok s₂ →
        (s₂.lookup spoiledKey).1 = .ok (some ⟨.css "x", none, []⟩) := by
  have hdigest : isDigest spoiledKey = true := by decide
  have hmissing : (spoiled.lookup spoiledKey).1 = .ok none := by decide +kernel
  have hway : ∀ q ∈ (shelf ["cache"] spoiledKey).inits, spoiled.disk.node? (Place.resolve q)
      = some .directory := by
    decide +kernel
  have hroom : Room spoiled.disk ["cache"] spoiledKey := by
    refine ⟨fun q hq content hfile => ?_, by decide +kernel, apart_of_not_mem (by decide) hdigest⟩
    rw [hway q ((List.mem_inits _ _).2 hq)] at hfile
    exact absurd hfile (by simp)
  obtain ⟨-, -, -, hcomputed⟩ :=
    lookup_of_any_document (s := spoiled) hdigest (by decide) rfl rfl rfl
  obtain ⟨-, hcomputed⟩ := hcomputed hmissing
  obtain ⟨s', hanswer, hlater⟩ := hcomputed Empty ⟨.css "x", none, []⟩
    fun d hd => absurd hd (by simp [Entry.diagnostic?])
  exact ⟨hmissing, s', hanswer, fun s₂ hnew => (hlater hroom none s₂ hnew).1⟩

end SheetBuild.Cache
