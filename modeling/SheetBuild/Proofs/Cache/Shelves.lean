import Mathlib.Logic.Function.Basic
import SheetBuild.Cache.Store
import SheetBuild.Digest.Sha256
import SheetBuild.Proofs.Cache.Document
import SheetBuild.Proofs.Cache.KeyMaterial
import SheetBuild.Proofs.Disk.Renewal
import SheetBuild.Proofs.Disk.Replacing
set_option autoImplicit false

/-!
# Where documents stand

A key that is a digest names one place below the directory of the store, and different keys name
different places (`documentAt_injective`).  Once the directory can be made, and nothing is in the way
below it, every document that is written is found again, and those that were there are found as before
(`Shelved.write`).  Where no other file stands below the directory, it can be removed with all of them and
made again (`Stocked.remove`).
-/

namespace SheetBuild

open SheetBuild.Disk (Node Place Tree)

/-! ## Digests as names -/

namespace Digest

theorem isKeyDigit_hexDigit {n : Nat} (h : n < 16) : Cache.isKeyDigit (hexDigit n) = true := by
  revert n
  decide

theorem length_hex (bs : Bytes) : (hex bs).length = 2 * bs.length := by
  induction bs with
  | nil => rfl
  | cons b bs ih =>
    simp only [hex, List.flatMap_cons, List.length_append, List.length_cons, List.length_nil] at ih ⊢
    omega

theorem isKeyDigit_of_mem_hex {bs : Bytes} {c : Char} (h : c ∈ hex bs) :
    Cache.isKeyDigit c = true := by
  obtain ⟨b, -, hc⟩ := List.mem_flatMap.1 h
  have hb : b.toNat < 256 := b.toNat_lt
  rcases List.mem_cons.1 hc with rfl | hc
  · exact isKeyDigit_hexDigit (by omega)
  · obtain rfl := List.mem_singleton.1 hc
    exact isKeyDigit_hexDigit (by omega)

theorem length_sha256 (message : Bytes) : (sha256 message).length = 32 := rfl

/-- What is taken of a byte sequence may name a file. -/
theorem isDigest_sha256Hex (message : Bytes) : Cache.isDigest (sha256Hex message) = true := by
  have hlength : (hex (sha256 message)).length = 64 := by
    rw [length_hex, length_sha256]
  have hlast : (hex (sha256 message)).getLast? ≠ some '\n' := by
    intro h
    exact absurd (isKeyDigit_of_mem_hex (List.mem_of_getLast? h)) (by decide)
  simp only [Cache.isDigest, sha256Hex, String.toList_ofList, if_neg hlast, hlength,
    Bool.and_eq_true, decide_eq_true_eq, List.all_eq_true]
  exact ⟨⟨by omega, by omega⟩, fun c hc => isKeyDigit_of_mem_hex hc⟩

end Digest

namespace Cache

variable {t t' : Tree} {d : Place} {key other : String}

/-- A digest is of digits, up to a line feed. -/
theorem digit_of_mem (h : isDigest key = true) {c : Char} (hc : c ∈ key.toList) :
    isKeyDigit c = true ∨ c = '\n' := by
  simp only [isDigest, Bool.and_eq_true, List.all_eq_true] at h
  obtain ⟨-, hall⟩ := h
  split at hall
  · rename_i hlast
    obtain ⟨front, hfront⟩ := List.getLast?_eq_some_iff.1 hlast
    rw [hfront] at hall hc
    rw [List.dropLast_concat] at hall
    rcases List.mem_append.1 hc with hc | hc
    · exact .inl (hall c hc)
    · exact .inr (List.mem_singleton.1 hc)
  · exact .inl (hall c hc)

theorem not_mem_of_isDigest (h : isDigest key = true) {c : Char}
    (hc : isKeyDigit c = false) (hfeed : c ≠ '\n') : c ∉ key.toList := by
  intro hmem
  rcases digit_of_mem h hmem with hdigit | rfl
  · rw [hc] at hdigit
    exact absurd hdigit (by simp)
  · exact hfeed rfl

/-- The name of the directory that the document of a key is in. -/
def shelfName (key : String) : String := String.ofList (key.toList.take 2)

/-- Where the directory of the document of a key is. -/
def shelfAt (d : Place) (key : String) : Place := d.resolve ++ [shelfName key]

/-- Where the document of a key is. -/
def documentAt (d : Place) (key : String) : Place := shelfAt d key ++ [key ++ documentExtension]

theorem shelf_eq (d : Place) (key : String) : shelf d key = d ++ [shelfName key] := rfl

theorem shelfName_ne_up (h : isDigest key = true) : shelfName key ≠ Place.up := by
  intro heq
  have hdot : '.' ∈ (shelfName key).toList := by
    rw [heq]
    decide
  rw [shelfName, String.toList_ofList] at hdot
  exact not_mem_of_isDigest h (by decide) (by decide) (List.mem_of_mem_take hdot)

theorem isNameable_shelfName (h : isDigest key = true) :
    Place.isNameable (shelfName key) = true := by
  simp only [Place.isNameable, shelfName, String.toList_ofList, Bool.not_eq_true',
    List.contains_eq_mem, decide_eq_false_iff_not]
  intro hmem
  exact not_mem_of_isDigest h (by decide) (by decide) (List.mem_of_mem_take hmem)

theorem toList_documentName (key : String) :
    (key ++ documentExtension).toList = key.toList ++ ['.', 'j', 's', 'o', 'n'] := by
  rw [String.toList_append]
  rfl

theorem documentName_ne_up (key : String) : key ++ documentExtension ≠ Place.up := by
  intro heq
  have hlength := congrArg (fun s => s.toList.length) heq
  simp only [toList_documentName, List.length_append] at hlength
  exact absurd hlength (by simp [Place.up])

theorem isNameable_documentName (h : isDigest key = true) :
    Place.isNameable (key ++ documentExtension) = true := by
  have hnull := not_mem_of_isDigest h (c := '\x00') (by decide) (by decide)
  have hextension : '\x00' ∉ documentExtension.toList := by decide
  simp [Place.isNameable, hnull, hextension]

theorem documentAt_injective (h : documentAt d key = documentAt d other) : key = other := by
  have hlast := List.append_inj_right' h rfl
  have hnames := congrArg String.toList (List.singleton_inj.1 hlast)
  rw [toList_documentName, toList_documentName] at hnames
  exact String.toList_injective (List.append_cancel_right hnames)

theorem documentAt_ne_shelfAt : documentAt d key ≠ shelfAt d other := by
  intro heq
  have hlength := congrArg List.length heq
  simp [documentAt, shelfAt] at hlength

theorem resolve_documentPlace (h : isDigest key = true) :
    (documentPlace d key).resolve = documentAt d key := by
  rw [documentPlace, shelf_eq, Place.resolve_snoc (documentName_ne_up key),
    Place.resolve_snoc (shelfName_ne_up h)]
  rfl

/-- What is found under a key stands at the place of the key. -/
theorem node?_of_find? (hdigest : isDigest key = true) {n : Node}
    (h : t.find? (documentPlace d key) = some n) : t.node? (documentAt d key) = some n := by
  unfold Tree.find? at h
  cases hl : t.locate (documentPlace d key) with
  | error e =>
    rw [hl] at h
    exact absurd h (by simp)
  | ok q =>
    rw [hl] at h
    rwa [Tree.locate_eq_ok hl, resolve_documentPlace hdigest] at h

/-- A directory for a key leads to the place of the key. -/
theorem locate_documentPlace (hdigest : isDigest key = true)
    (hshelf : t.locate (shelf d key) = .ok (shelfAt d key))
    (hdirectory : t.node? (shelfAt d key) = some .directory) :
    t.locate (documentPlace d key) = .ok (documentAt d key) :=
  (Tree.locate_snoc (documentName_ne_up key) (isNameable_documentName hdigest)).2
    ⟨shelfAt d key, hshelf, hdirectory, rfl⟩

/-! ## Temporary places -/

theorem toList_temporaryName (key : String) (n : Nat) :
    (temporaryName key n).toList
      = key.toList ++ (documentExtension.toList ++ (Nat.toDigits 10 n ++ ['.', 't', 'm', 'p'])) := by
  rw [temporaryName]
  simp only [String.toList_append, String.toList_ofList, List.append_assoc]
  rfl

theorem temporaryName_injective (key : String) : Function.Injective (temporaryName key) := by
  intro m n h
  have hnames := congrArg String.toList h
  rw [toList_temporaryName, toList_temporaryName] at hnames
  have hdigits := List.append_cancel_left (List.append_cancel_left hnames)
  exact toDigits_injective (List.append_cancel_right hdigits)

theorem temporaryName_ne_up (key : String) (n : Nat) : temporaryName key n ≠ Place.up := by
  intro heq
  have hlength := congrArg (fun s => s.toList.length) heq
  have hup : Place.up.toList.length = 2 := rfl
  simp only [toList_temporaryName, List.length_append, hup, List.length_cons] at hlength
  omega

theorem isNameable_temporaryName (h : isDigest key = true) (n : Nat) :
    Place.isNameable (temporaryName key n) = true := by
  have hnull := not_mem_of_isDigest h (c := '\x00') (by decide) (by decide)
  have hextension : '\x00' ∉ documentExtension.toList := by decide
  have hdigits : '\x00' ∉ Nat.toDigits 10 n := fun hmem =>
    absurd (Nat.isDigit_of_mem_toDigits (by decide) (by decide) hmem) (by decide)
  simp [Place.isNameable, toList_temporaryName, hnull, hextension, hdigits]

/-- Nothing stands at the temporary place of a document. -/
theorem find?_temporaryPlace (t : Tree) (d : Place) (key : String) :
    t.find? (temporaryPlace t d key) = none := by
  simp only [temporaryPlace]
  cases hfind : (List.range (t.nodes.length + 1)).find?
      fun n => !t.contains (shelf d key ++ [temporaryName key n]) with
  | some n =>
    have hfree := List.find?_some hfind
    simpa [Tree.contains] using hfree
  | none =>
    obtain ⟨n, hn, hfree⟩ := t.exists_free (shelf d key) (temporaryName_injective key)
      (temporaryName_ne_up key)
    have hused := List.find?_eq_none.1 hfind n (List.mem_range.2 hn)
    simp [Tree.contains, hfree] at hused

/-- By way of its temporary place, a document is written as if it were written at once. -/
theorem replace_temporaryPlace (t : Tree) (d : Place) (hdigest : isDigest key = true)
    (content : Bytes) :
    t.replace (temporaryPlace t d key) (documentPlace d key) content =
      match t.write (documentPlace d key) content with
      | .error e => (t, some e)
      | .ok t' => (t', none) :=
  Tree.replace_eq_write (temporaryName_ne_up key _) (isNameable_temporaryName hdigest _)
    (isNameable_documentName hdigest) (find?_temporaryPlace t d key) content

/-- What persisting an entry comes to: the directories for its document are made and it is written, or
something is in the way. -/
inductive Store.Persists (s : Store) (d : Place) (key : String) (e : Entry) :
    Option StoreError × Store → Prop where
  | unnamed (undigested : isDigest key = false) : Persists s d key e (none, s.warn .memoryOnly)
  | unnameable {t : Tree} (digest : isDigest key = true)
    (made : s.disk.makeDirectories (shelf d key) = (t, some .unnameable)) :
    Persists s d key e (some .unnameable, { s with disk := t })
  | unmade {t : Tree} {f : Disk.FileError} (digest : isDigest key = true)
    (made : s.disk.makeDirectories (shelf d key) = (t, some f)) (other : f ≠ .unnameable) :
    Persists s d key e (none, { s with disk := t }.warn .memoryOnly)
  | unwritten {t : Tree} (digest : isDigest key = true)
    (made : s.disk.makeDirectories (shelf d key) = (t, none)) (long : ¬ e.IsShort) :
    Persists s d key e (some (.unwritten .longInteger), { s with disk := t })
  | blocked {t : Tree} {f : Disk.FileError} (digest : isDigest key = true)
    (made : s.disk.makeDirectories (shelf d key) = (t, none)) (short : e.IsShort)
    (write : t.write (documentPlace d key) (contentOf e) = .error f) :
    Persists s d key e (none, { s with disk := t }.warn .memoryOnly)
  | written {t t' : Tree} (digest : isDigest key = true)
    (made : s.disk.makeDirectories (shelf d key) = (t, none)) (short : e.IsShort)
    (write : t.write (documentPlace d key) (contentOf e) = .ok t') :
    Persists s d key e (none, { s with disk := t' })

theorem Store.persists (s : Store) (d : Place) (key : String) (e : Entry) :
    s.Persists d key e (s.persist d key e) := by
  unfold Store.persist
  cases hdigest : isDigest key with
  | false => exact .unnamed hdigest
  | true =>
    rw [if_pos rfl]
    split
    · exact .unnameable hdigest ‹_›
    · rename_i failure hother hmade
      exact .unmade hdigest hmade hother
    · rename_i t hmade
      by_cases hshort : e.IsShort
      · simp only [serialize_of_isShort hshort, replace_temporaryPlace t d hdigest]
        have hcontent : Text.Utf8.encode (textOf e).toList = contentOf e := rfl
        rw [hcontent]
        cases hwrite : t.write (documentPlace d key) (contentOf e) with
        | error f => exact .blocked hdigest hmade hshort hwrite
        | ok t' => exact .written hdigest hmade hshort hwrite
      · simp only [serialize_of_not_isShort hshort]
        exact .unwritten hdigest hmade hshort

/-- Persisting leaves the directory and the memory alone. -/
theorem Store.persist_spares (s : Store) (d : Place) (key : String) (e : Entry) :
    (s.persist d key e).2.directory = s.directory ∧ (s.persist d key e).2.memory = s.memory := by
  have h := s.persists d key e
  generalize s.persist d key e = persisted at h
  cases h <;> exact ⟨rfl, rfl⟩

theorem Store.directory_store (s : Store) (key : String) (e : Entry) :
    (s.store key e).2.directory = s.directory := by
  unfold Store.store
  split
  · rfl
  · simp only
    split
    · rfl
    · exact (persist_spares _ _ key e).1

theorem Store.directory_of_store {s s' : Store} {e : Entry} {failure : Option StoreError}
    (kept : s.store key e = (failure, s')) : s'.directory = s.directory := by
  rw [← directory_store s key e, kept]

/-- An entry with a number that is too long leaves nothing but the directories for its document. -/
theorem Store.persist_of_long {s : Store} {e : Entry} (hdigest : isDigest key = true)
    (hmade : s.disk.makeDirectories (shelf d key) = (t, none)) (hlong : ¬ e.IsShort) :
    s.persist d key e = (some (.unwritten .longInteger), { s with disk := t }) := by
  simp only [Store.persist, hdigest, if_true, hmade, serialize_of_not_isShort hlong]

/-- Where nothing is in the way, the document of an entry is written. -/
theorem Store.persist_of_written {s : Store} {e : Entry} (hdigest : isDigest key = true)
    (hmade : s.disk.makeDirectories (shelf d key) = (t, none)) (hshort : e.IsShort)
    (hwrite : t.write (documentPlace d key) (contentOf e) = .ok t') :
    s.persist d key e = (none, { s with disk := t' }) := by
  have hcontent : Text.Utf8.encode (textOf e).toList = contentOf e := rfl
  simp only [Store.persist, hdigest, if_true, hmade, serialize_of_isShort hshort,
    replace_temporaryPlace t d hdigest, hcontent, hwrite]

theorem isNameable_shelf (hdigest : isDigest key = true) :
    (shelf d key).all Place.isNameable = d.all Place.isNameable := by
  simp [shelf_eq, isNameable_shelfName hdigest]

/-- An entry is not stored exactly where it is not in memory yet, its key is a digest, and the directory
is one that no file can have, or else the directories for the document can be made and the entry has a
number that is too long. -/
theorem Store.store_eq_some_iff {s : Store} {e : Entry} {failure : StoreError} :
    (s.store key e).1 = some failure ↔
      s.memory.find? key ≠ some e ∧ isDigest key = true ∧ ∃ d, s.directory = some d ∧
        ((failure = .unnameable ∧ d.all Place.isNameable = false) ∨
          failure = .unwritten .longInteger ∧ ¬ e.IsShort ∧
            ∃ t, s.disk.makeDirectories (shelf d key) = (t, none)) := by
  unfold Store.store
  by_cases hm : s.memory.find? key = some e
  · simp [hm]
  simp only [if_neg hm]
  have hdirectory : (s.remember key e).directory = s.directory := rfl
  have hdisk : (s.remember key e).disk = s.disk := rfl
  cases hd : s.directory with
  | none => simp [hdirectory, hd]
  | some d =>
    simp only [hdirectory, hd, Option.some.injEq, exists_eq_left', ne_eq, hm, not_false_eq_true,
      true_and]
    have h := (s.remember key e).persists d key e
    generalize (s.remember key e).persist d key e = persisted at h
    have hnamed : ∀ {f}, isDigest key = true → (s.disk.makeDirectories (shelf d key)).2 = f →
        (f = some .unnameable ↔ d.all Place.isNameable = false) := by
      rintro f hdigest rfl
      rw [Tree.makeDirectories_eq_unnameable_iff, isNameable_shelf hdigest]
    cases h with
    | unnamed undigested => simp [undigested]
    | unnameable digest made =>
      rw [hdisk] at made
      have hunnamed := (hnamed digest (congrArg Prod.snd made)).1 rfl
      simp [digest, made, hunnamed, eq_comm]
    | unmade digest made other =>
      rw [hdisk] at made
      have hname := hnamed digest (congrArg Prod.snd made)
      simp only [Option.some.injEq, other, false_iff] at hname
      simp [digest, made, hname]
    | unwritten digest made long =>
      rw [hdisk] at made
      have hname := hnamed digest (congrArg Prod.snd made)
      simp only [reduceCtorEq, false_iff] at hname
      simp [digest, made, hname, long, eq_comm]
    | blocked digest made short =>
      rw [hdisk] at made
      have hname := hnamed digest (congrArg Prod.snd made)
      simp only [reduceCtorEq, false_iff] at hname
      simp [digest, made, hname, short]
    | written digest made short =>
      rw [hdisk] at made
      have hname := hnamed digest (congrArg Prod.snd made)
      simp only [reduceCtorEq, false_iff] at hname
      simp [digest, made, hname, short]

/-- An entry is stored where there is no directory, and where a file can have the name of the directory
and the entry has no long numbers. -/
theorem Store.store_eq_none {s : Store} {e : Entry}
    (h : ∀ d, s.directory = some d → d.all Place.isNameable = true ∧ e.IsShort) :
    (s.store key e).1 = none := by
  cases hstored : (s.store key e).1 with
  | none => rfl
  | some failure =>
    obtain ⟨-, -, d, hd, ⟨-, hname⟩ | ⟨-, hlong, -⟩⟩ := store_eq_some_iff.1 hstored
    · rw [(h d hd).1] at hname
      exact absurd hname (by simp)
    · exact absurd (h d hd).2 hlong

theorem isBelow_documentAt (d : Place) (key : String) :
    Place.isBelow (documentAt d key) d.resolve = true :=
  Place.isBelow_iff.2 ⟨shelfName key, [key ++ documentExtension], by simp [documentAt, shelfAt]⟩

/-! ## Shelves -/

/-- A directory can be made, and is empty then. -/
def Vacant (t : Tree) (d : Place) : Prop :=
  ∃ t', t.makeDirectories d = (t', none) ∧ ∀ p, Place.isBelow p d.resolve = true → t'.node? p = none

/-- No file stands below a directory. -/
def Blank (t : Tree) (d : Place) : Prop :=
  ∀ p, Place.isBelow p d.resolve = true → ∀ content, t.node? p ≠ some (.file content)

/-- A directory can be made, and then the documents of some keys stand below it, and nothing is in the
way of the others. -/
structure Shelved (t : Tree) (d : Place) (docs : String → Option Bytes) : Prop where
  ready : ∃ t', t.makeDirectories d = (t', none) ∧ ∀ key, isDigest key = true →
    (t'.node? (shelfAt d key) = none ∨ t'.node? (shelfAt d key) = some .directory) ∧
      t'.node? (documentAt d key) = (docs key).map .file
  placed : ∀ key, isDigest key = true → docs key ≠ none →
    t.locate (documentPlace d key) = .ok (documentAt d key)

/-- Where there is nothing at all, one directory can be made. -/
theorem vacant_empty {name : String} (hup : name ≠ Place.up) (hname : Place.isNameable name = true) :
    Vacant {} [name] := by
  have hmade : Tree.makeDirectories {} [name] = (⟨[([name], .directory)]⟩, none) := by
    simp [Tree.makeDirectories, Tree.makeFrom, Tree.ensureDirectory, Tree.makeDirectory, Tree.locate,
      Tree.follow, Tree.node?, Tree.put, hname, hup]
  refine ⟨_, hmade, fun p hp => ?_⟩
  obtain ⟨first, rest, rfl⟩ := Place.isBelow_iff.1 hp
  simp [Tree.node?, Place.resolve, Place.push, hup, List.lookup_cons]

theorem Vacant.shelved (h : Vacant t d) : Shelved t d fun _ => none where
  ready := by
    obtain ⟨t', hmade, hnone⟩ := h
    refine ⟨t', hmade, fun key _ => ⟨.inl (hnone _ ?_), hnone _ (isBelow_documentAt d key)⟩⟩
    exact Place.isBelow_iff.2 ⟨_, [], rfl⟩
  placed := fun _ _ h => absurd rfl h

variable {docs docs' : String → Option Bytes}

/-- Only the documents of digests count. -/
theorem Shelved.congr (h : Shelved t d docs)
    (heq : ∀ key, isDigest key = true → docs' key = docs key) : Shelved t d docs' where
  ready := by
    obtain ⟨t', hmade, hnodes⟩ := h.ready
    refine ⟨t', hmade, fun key hdigest => ?_⟩
    rw [heq key hdigest]
    exact hnodes key hdigest
  placed key hdigest hne := h.placed key hdigest (heq key hdigest ▸ hne)

/-- What stands at the place of a digest is its document. -/
theorem Shelved.file (h : Shelved t d docs) (hdigest : isDigest key = true) {content : Bytes}
    (hfile : t.node? (documentAt d key) = some (.file content)) : docs key = some content := by
  obtain ⟨t', hmade, hnodes⟩ := h.ready
  have hstill := (Tree.growsTo_of_makeDirectories hmade).file_iff.2 hfile
  rw [(hnodes key hdigest).2] at hstill
  simpa using hstill

/-- The documents are found, and nothing else is. -/
theorem Shelved.find? (h : Shelved t d docs) (hdigest : isDigest key = true) :
    t.find? (documentPlace d key) = (docs key).map .file := by
  obtain ⟨t', hmade, hnodes⟩ := h.ready
  have hgrows := Tree.growsTo_of_makeDirectories hmade
  obtain ⟨-, hnode⟩ := hnodes key hdigest
  cases hdocs : docs key with
  | some content =>
    rw [hdocs] at hnode
    rw [Tree.find?, h.placed key hdigest (by simp [hdocs])]
    exact hgrows.file_iff.1 hnode
  | none =>
    rw [hdocs] at hnode
    cases hfind : t.find? (documentPlace d key) with
    | none => rfl
    | some n =>
      rcases hgrows (documentAt d key) with heq | ⟨hnone, -⟩
      · rw [hnode, node?_of_find? hdigest hfind] at heq
        exact absurd heq (by simp)
      · rw [node?_of_find? hdigest hfind] at hnone
        exact absurd hnone (by simp)

/-- The directory of a document can be made, and the documents stand as before. -/
theorem Shelved.makeShelf (h : Shelved t d docs) (hdigest : isDigest key = true) :
    ∃ t', t.makeDirectories (shelf d key) = (t', none) ∧ Shelved t' d docs ∧
      t'.locate (documentPlace d key) = .ok (documentAt d key) := by
  obtain ⟨t₁, hmade, hnodes⟩ := h.ready
  obtain ⟨q, hlocate, hdirectory⟩ := Tree.exists_of_makeDirectories hmade
  obtain rfl : q = d.resolve := Tree.locate_eq_ok hlocate
  have hshelf : t₁.locate (shelf d key) = .ok (shelfAt d key) :=
    (Tree.locate_snoc (shelfName_ne_up hdigest) (isNameable_shelfName hdigest)).2
      ⟨_, hlocate, hdirectory, rfl⟩
  obtain ⟨t₂, hensured⟩ : ∃ t₂, t₁.ensureDirectory (shelf d key) = .ok t₂ := by
    rcases (hnodes key hdigest).1 with hnone | hthere
    · exact ⟨_, Tree.ensureDirectory_of_none hshelf hnone⟩
    · exact ⟨_, Tree.ensureDirectory_of_directory hshelf hthere⟩
  have hmade₂ : t.makeDirectories (shelf d key) = (t₂, none) := by
    rw [shelf_eq, Tree.makeDirectories_snoc hmade (isNameable_shelfName hdigest), ← shelf_eq,
      hensured]
  have hgrows₁ := Tree.growsTo_of_makeDirectories hmade
  have hgrows₂ : t₁.GrowsTo t₂ := Tree.growsTo_ensureDirectory hensured
  have hshelf₂ : t₂.locate (shelf d key) = .ok (shelfAt d key) :=
    Tree.locate_mono (fun r => hgrows₂.directory) hshelf
  have hdirectory₂ : t₂.node? (shelfAt d key) = some .directory := by
    obtain ⟨q, hq, hnode⟩ := Tree.exists_of_ensureDirectory hensured
    rw [hshelf₂] at hq
    exact Except.ok.inj hq ▸ hnode
  refine ⟨t₂, hmade₂, ⟨⟨t₂, ?_, ?_⟩, ?_⟩, locate_documentPlace hdigest hshelf₂ hdirectory₂⟩
  · exact Tree.makeDirectories_of_directory
      (Tree.locate_mono (fun r => hgrows₂.directory) hlocate) (hgrows₂.directory hdirectory)
  · intro other hother
    obtain ⟨hshelves, hdocs⟩ := hnodes other hother
    refine ⟨?_, by rwa [Tree.node?_ensureDirectory hensured hshelf documentAt_ne_shelfAt]⟩
    rcases hgrows₂ (shelfAt d other) with heq | ⟨-, hnew⟩
    · rwa [heq]
    · exact .inr hnew
  · intro other hother hsome
    exact Tree.locate_mono (fun r hr => hgrows₂.directory (hgrows₁.directory hr))
      (h.placed other hother hsome)

/-- A document whose directory is there can be written, and is one of the documents then. -/
theorem Shelved.put (h : Shelved t d docs) (hdigest : isDigest key = true)
    (hplace : t.locate (documentPlace d key) = .ok (documentAt d key)) (content : Bytes) :
    t.write (documentPlace d key) content = .ok (t.put (documentAt d key) (.file content)) ∧
      Shelved (t.put (documentAt d key) (.file content)) d
        (Function.update docs key (some content)) := by
  obtain ⟨t', hmade, hnodes⟩ := h.ready
  obtain ⟨_, hshelf, -, -⟩ :=
    (Tree.locate_snoc (documentName_ne_up key) (isNameable_documentName hdigest)).1 hplace
  obtain ⟨q, hlocate, hdirectory, -⟩ :=
    (Tree.locate_snoc (shelfName_ne_up hdigest) (isNameable_shelfName hdigest)).1 hshelf
  rw [Tree.makeDirectories_of_directory hlocate hdirectory] at hmade
  obtain rfl := (Prod.mk.inj hmade).1
  have hfile : t.node? (documentAt d key) ≠ some .directory := by
    rw [(hnodes key hdigest).2]
    cases docs key <;> simp
  have hne : documentAt d key ≠ [] := by simp [documentAt]
  have hkeeps : ∀ r, t.node? r = some .directory →
      (t.put (documentAt d key) (.file content)).node? r = some .directory := by
    intro r hr
    rwa [Tree.node?_put_of_ne]
    rintro rfl
    exact hfile hr
  refine ⟨by simp only [Tree.write, hplace, if_neg hfile],
    ⟨t.put (documentAt d key) (.file content), ?_, ?_⟩, ?_⟩
  · exact Tree.makeDirectories_of_directory (Tree.locate_mono hkeeps hlocate)
      (hkeeps q hdirectory)
  · intro other hother
    obtain ⟨hshelves, hdocs⟩ := hnodes other hother
    rw [Tree.node?_put_of_ne _ _ documentAt_ne_shelfAt.symm]
    refine ⟨hshelves, ?_⟩
    by_cases hsame : other = key
    · subst hsame
      rw [Tree.node?_put_self _ _ hne, Function.update_self]
      rfl
    · rw [Tree.node?_put_of_ne _ _ fun heq => hsame (documentAt_injective heq), hdocs,
        Function.update_of_ne hsame]
  · intro other hother hsome
    by_cases hsame : other = key
    · subst hsame
      exact Tree.locate_mono hkeeps hplace
    · rw [Function.update_of_ne hsame] at hsome
      exact Tree.locate_mono hkeeps (h.placed other hother hsome)

/-- A document can be written with the directories on the way to it. -/
theorem Shelved.write (h : Shelved t d docs) (hdigest : isDigest key = true) (content : Bytes) :
    ∃ t₁ t₂, t.makeDirectories (shelf d key) = (t₁, none) ∧
      t₁.write (documentPlace d key) content = .ok t₂ ∧
      Shelved t₂ d (Function.update docs key (some content)) := by
  obtain ⟨t₁, hmade, hshelved, hplace⟩ := h.makeShelf hdigest
  obtain ⟨hwrite, hshelved'⟩ := hshelved.put hdigest hplace content
  exact ⟨t₁, _, hmade, hwrite, hshelved'⟩

/-! ## Directories of documents -/

/-- The documents of some keys stand below a directory and no other file does, and the directory can be
removed and made again. -/
structure Stocked (t : Tree) (d : Place) (docs : String → Option Bytes) : Prop where
  shelved : Shelved t d docs
  renewable : ∃ b, Tree.Bare b d ∧ t.Admits b
  tidy : ∀ p content, Place.isBelow p d.resolve = true → t.node? p = some (.file content) →
    ∃ key, isDigest key = true ∧ p = documentAt d key

/-- A directory that can be made, and is empty then, has no documents. -/
theorem Vacant.stocked (h : Vacant t d) : Stocked t d fun _ => none where
  shelved := h.shelved
  renewable := by
    obtain ⟨t', hmade, hnone⟩ := h
    obtain ⟨q, hlocate, hdirectory⟩ := Tree.exists_of_makeDirectories hmade
    obtain rfl := Tree.locate_eq_ok hlocate
    exact ⟨t', ⟨hlocate, hdirectory, hnone⟩, (Tree.growsTo_of_makeDirectories hmade).admits⟩
  tidy p content hbelow hfile := by
    obtain ⟨t', hmade, hnone⟩ := h
    have hstill := (Tree.growsTo_of_makeDirectories hmade).file_iff.2 hfile
    rw [hnone p hbelow] at hstill
    exact absurd hstill (by simp)

namespace Stocked

theorem congr (h : Stocked t d docs) (heq : ∀ key, isDigest key = true → docs' key = docs key) :
    Stocked t d docs' :=
  ⟨h.shelved.congr heq, h.renewable, h.tidy⟩

/-- A document can be written with the directories on the way to it. -/
theorem write (h : Stocked t d docs) (hdigest : isDigest key = true) (content : Bytes) :
    ∃ t₁ t₂, t.makeDirectories (shelf d key) = (t₁, none) ∧
      t₁.write (documentPlace d key) content = .ok t₂ ∧
      Stocked t₂ d (Function.update docs key (some content)) := by
  obtain ⟨t₁, t₂, hmade, hwrite, hshelved⟩ := h.shelved.write hdigest content
  have hgrows := Tree.growsTo_of_makeDirectories hmade
  have hput : t₂ = t₁.put (documentAt d key) (.file content) := by
    rw [(Tree.exists_of_write hwrite).2, resolve_documentPlace hdigest]
  refine ⟨t₁, t₂, hmade, hwrite, hshelved, ?_, ?_⟩
  · obtain ⟨b, hbare, hadmits⟩ := h.renewable
    rw [hput]
    refine ⟨b, hbare, (hadmits.growsTo hgrows).put ?_ _⟩
    rw [hbare.empty _ (isBelow_documentAt d key)]
    simp
  · intro p content' hbelow hfile
    by_cases hsame : p = documentAt d key
    · exact ⟨key, hdigest, hsame⟩
    · rw [hput, Tree.node?_put_of_ne _ _ hsame] at hfile
      exact h.tidy p content' hbelow (hgrows.file_iff.1 hfile)

/-- The directory of a document can be made. -/
theorem makeShelf (h : Stocked t d docs) (hdigest : isDigest key = true) :
    ∃ t', t.makeDirectories (shelf d key) = (t', none) ∧ Stocked t' d docs := by
  obtain ⟨t', hmade, hshelved, -⟩ := h.shelved.makeShelf hdigest
  have hgrows := Tree.growsTo_of_makeDirectories hmade
  refine ⟨t', hmade, hshelved, ?_, ?_⟩
  · obtain ⟨b, hbare, hadmits⟩ := h.renewable
    exact ⟨b, hbare, hadmits.growsTo hgrows⟩
  · exact fun p content hbelow hfile => h.tidy p content hbelow (hgrows.file_iff.1 hfile)

/-- The directory can be removed with all documents, and is made again when it is needed. -/
theorem remove (h : Stocked t d docs) (hd : t.contains d = true) :
    ∃ t', t.removeDirectory d = (t', none) ∧ Stocked t' d fun _ => none := by
  obtain ⟨b, hbare, hadmits⟩ := h.renewable
  refine ⟨_, Tree.removeDirectory_of_bare hbare hadmits hd, Vacant.stocked ?_⟩
  have hadmits' := (hadmits.drop (·.isBelow d.resolve)).drop (· = d.resolve)
  obtain ⟨t', hmade, hbelow⟩ := hbare.make hadmits'
  refine ⟨t', hmade, fun p hp => ?_⟩
  have hroot : p ≠ [] := by
    rintro rfl
    simp [Place.isBelow] at hp
  rw [hbelow p hp, Tree.node?_drop _ _ hroot, Tree.node?_drop _ _ hroot, if_pos hp, ite_self]

/-- Where the directory is not there, no document is. -/
theorem nothing (h : Stocked t d docs) (hd : t.contains d = false) : Stocked t d fun _ => none := by
  refine h.congr fun key hdigest => ?_
  by_contra hne
  have hplaced := h.shelved.placed key hdigest fun hnone => hne hnone.symm
  obtain ⟨-, q, hshelf, -⟩ := Tree.exists_of_locate_concat hplaced
  obtain ⟨-, q, hlocate, hdirectory⟩ := Tree.exists_of_locate_concat hshelf
  simp [Tree.contains, Tree.find?, hlocate, hdirectory] at hd

end Stocked

end Cache

end SheetBuild
