import SheetBuild.Proofs.Cache.Request
import SheetBuild.Proofs.Cache.Shelves
set_option autoImplicit false

/-!
# Where the entries of a store come from

Every entry that a store gives under a key was stored under that key: lookups bring in none that was
not in memory or in a document, a document is read as the entry that it was written for, where no halves
of a surrogate pair in it belong together, and it stands at a place that no other key has.  So what holds
of all entries that are stored under their keys holds of all that are found (`Store.Only`), also where
others are pushed out of memory, and where the disk cannot be written.
-/

namespace SheetBuild.Cache.Store

open SheetBuild.Disk (Place Tree)

variable {s s' : Store} {P : String → Entry → Prop} {key : String} {e : Entry}

/-- Every entry of a store, in memory or in a document, has a property together with its key. -/
structure Only (P : String → Entry → Prop) (s : Store) : Prop where
  memory : ∀ x ∈ s.memory.entries, P x.1 x.2
  disk : ∀ d, s.directory = some d → ∀ key, isDigest key = true → ∀ content e,
    s.disk.node? (documentAt d key) = some (.file content) → Content.ofBytes content = .entry e →
    P key e

/-- A store that is opened where no documents are has no entries. -/
theorem only_of_new {directory : Option Place} {limit : Option Int} {disk : Tree}
    (hblank : ∀ d, directory = some d → Blank disk d)
    (h : Store.new directory limit disk = .ok s) : Only P s := by
  obtain ⟨hmemory, hdirectory, hdisk, -⟩ := new_eq_ok h
  constructor
  · simp [hmemory]
  · intro d hd key _ content e hfile
    rw [hdirectory] at hd
    rw [hdisk] at hfile
    have hbelow : Place.isBelow (documentAt d key) d.resolve = true :=
      Place.isBelow_iff.2 ⟨shelfName key, [key ++ documentExtension],
        by simp [documentAt, shelfAt]⟩
    exact absurd hfile (hblank d hd _ hbelow content)

theorem Only.reopen (h : Only P s) (limit : Option Int) : Only P (s.reopen limit) := by
  unfold Store.reopen
  split
  · rename_i hnew
    obtain ⟨hmemory, hdirectory, hdisk, -⟩ := new_eq_ok hnew
    exact ⟨by simp [hmemory], by rw [hdirectory, hdisk]; exact h.disk⟩
  · exact h

theorem Only.claim (h : Only P s) (key : String) : Only P (s.claim key) := ⟨h.memory, h.disk⟩

/-- What is read under a key was stored under it. -/
theorem Only.persisted (h : Only P s) (hp : s.persisted key = some (.entry e)) : P key e := by
  unfold Store.persisted at hp
  split at hp
  · exact absurd hp (by simp)
  · rename_i d hd
    split at hp
    · rename_i hdigest
      split at hp
      · exact absurd hp (by simp)
      · exact absurd hp (by simp)
      · rename_i content hfind
        exact h.disk d hd key hdigest content e (node?_of_find? hdigest hfind) (Option.some.inj hp)
    · exact absurd hp (by simp)

/-- A lookup gives an entry that was stored, and brings no other in. -/
theorem Only.lookup (h : Only P s) {answer : Except Json.TooDeep (Option Entry)}
    (hlook : s.lookup key = (answer, s')) :
    Only P s' ∧ ∀ e, answer = .ok (some e) → P key e := by
  unfold Store.lookup at hlook
  split at hlook
  · rename_i e hm
    obtain ⟨rfl, rfl⟩ := Prod.mk.inj hlook
    refine ⟨⟨fun x hx => h.memory x (Memory.mem_entries_touch hx), h.disk⟩, ?_⟩
    intro e' he'
    obtain rfl := Option.some.inj (Except.ok.inj he')
    exact h.memory _ (Memory.mem_of_find? hm)
  · split at hlook
    · obtain ⟨rfl, rfl⟩ := Prod.mk.inj hlook
      exact ⟨h, fun e he => absurd he (by simp)⟩
    · obtain ⟨rfl, rfl⟩ := Prod.mk.inj hlook
      exact ⟨⟨h.memory, h.disk⟩, fun e he => absurd he (by simp)⟩
    · rename_i e hp
      obtain ⟨rfl, rfl⟩ := Prod.mk.inj hlook
      refine ⟨⟨?_, h.disk⟩, ?_⟩
      · intro x hx
        rcases Memory.mem_entries_insert hx with rfl | ⟨hx, -⟩
        · exact h.persisted hp
        · exact h.memory x hx
      · intro e' he'
        obtain rfl := Option.some.inj (Except.ok.inj he')
        exact h.persisted hp
    · obtain ⟨rfl, rfl⟩ := Prod.mk.inj hlook
      exact ⟨h, fun e he => absurd he (by simp)⟩

/-- Making directories leaves the documents as they are. -/
theorem Only.grown (h : Only P s) {t : Tree} (hgrows : s.disk.GrowsTo t) :
    Only P { s with disk := t } where
  memory := h.memory
  disk := by
    intro d hd key hdigest content e hfile
    exact h.disk d hd key hdigest content e (hgrows.file_iff.1 hfile)

/-- A document is written for its key only. -/
theorem Only.written (h : Only P s) {d : Place} (hd : s.directory = some d)
    (hdigest : isDigest key = true) (hlegible : e.IsLegible) (he : P key e) :
    Only P { s with disk := s.disk.put (documentAt d key) (.file (contentOf e)) } where
  memory := h.memory
  disk := by
    intro d' hd' other hother content e' hfile hread
    obtain rfl : d' = d := Option.some.inj (hd'.symm.trans hd)
    by_cases hsame : other = key
    · subst hsame
      rw [Tree.node?_put_self _ _ (by simp [documentAt])] at hfile
      obtain rfl := Disk.Node.file.inj (Option.some.inj hfile)
      rw [ofBytes_contentOf hlegible.short, hlegible.apart.joined_eq] at hread
      exact Content.entry.inj hread ▸ he
    · rw [Tree.node?_put_of_ne _ _ fun heq => hsame (documentAt_injective heq)] at hfile
      exact h.disk d' hd' other hother content e' hfile hread

theorem Only.persist (h : Only P s) {d : Place} (hd : s.directory = some d) (hapart : e.IsApart)
    (he : P key e) : Only P (s.persist d key e).2 := by
  have hgrown : ∀ {t failure}, s.disk.makeDirectories (shelf d key) = (t, failure) →
      Only P { s with disk := t } :=
    fun hmade => h.grown (Tree.growsTo_of_makeDirectories hmade)
  have hpersists := s.persists d key e
  generalize s.persist d key e = persisted at hpersists
  cases hpersists with
  | unnamed => exact ⟨h.memory, h.disk⟩
  | unnameable _ made => exact hgrown made
  | unmade _ made => exact ⟨(hgrown made).memory, (hgrown made).disk⟩
  | unwritten _ made => exact hgrown made
  | blocked _ made => exact ⟨(hgrown made).memory, (hgrown made).disk⟩
  | written digest made short write =>
    obtain ⟨-, rfl⟩ := Tree.exists_of_write write
    rw [resolve_documentPlace digest]
    exact (hgrown made).written hd digest ⟨short, hapart⟩ he

/-- What is stored has the property when it is stored. -/
theorem Only.store (h : Only P s) (hapart : e.IsApart) (he : P key e) :
    Only P (s.store key e).2 := by
  have hremember : Only P (s.remember key e) := by
    refine ⟨?_, h.disk⟩
    intro x hx
    rcases Memory.mem_entries_insert hx with rfl | ⟨hx, -⟩
    · exact he
    · exact h.memory x hx
  unfold Store.store
  split
  · exact h
  · simp only
    split
    · exact hremember
    · rename_i d hd
      exact hremember.persist hd hapart he

end SheetBuild.Cache.Store
