import SheetBuild.Proofs.Cache.Request
import SheetBuild.Proofs.Cache.Shelves
set_option autoImplicit false

/-!
# Stores and what they hold

What a store holds is a ledger, from keys to entries.  A store without a directory has all of it in
memory; a store with a directory has all of it on disk, one document a key, and a part of it in memory
(`Store.Mirrors`).  So an entry that is pushed out of the memory is read from its document again, and so
is each entry when the store is opened again; when everything has been taken out, the directory is made
again with the next entry.

An entry that is not legible is lost with the memory: with a number that is too long to be written it
has no document, and with halves of a surrogate pair that belong together it has the document of another
entry (`Lasts`).  Where there is no such entry, the store forgets nothing: every lookup gives what the
ledger says (`Store.Keeps`).
-/

namespace SheetBuild.Cache

open SheetBuild.Disk (Place Tree)

/-- The entries that stand under keys. -/
abbrev Ledger : Type := String → Option Entry

namespace Ledger

variable {l l' : Ledger} {key : String} {e : Entry}

/-- The contents of the documents of a ledger. -/
def documents (l : Ledger) (key : String) : Option Bytes := (l key).map contentOf

/-- An entry that is written down has its content as its document. -/
theorem documents_update (l : Ledger) (key : String) (e : Entry) :
    documents (Function.update l key (some e))
      = Function.update l.documents key (some (contentOf e)) := by
  funext other
  simp only [documents, Function.update_apply]
  by_cases hsame : other = key
  · rw [if_pos hsame, if_pos hsame]
    rfl
  · rw [if_neg hsame, if_neg hsame]

end Ledger

/-- An entry lasts under a key: where the store has a directory, it has a document that it is read from
again. -/
def Lasts (home : Option Place) (key : String) (e : Entry) : Prop :=
  home ≠ none → isDigest key = true ∧ e.IsLegible

namespace Store

variable {s s' : Store} {home : Option Place} {d : Place} {l : Ledger} {key other : String}
  {e e' : Entry}

/-- What a store has in memory under a key lasts. -/
def Settled (home : Option Place) (s : Store) (key : String) : Prop :=
  ∀ e, s.memory.find? key = some e → Lasts home key e

/-- A store that holds the entries of a ledger, with or without a directory.  There may be others in
memory, which do not last. -/
structure Mirrors (home : Option Place) (l : Ledger) (s : Store) : Prop where
  located : s.directory = home
  distinct : s.memory.keys.Nodup
  lasting : ∀ key e, l key = some e → Lasts home key e
  /-- what is in memory and lasts stands in the ledger -/
  held : ∀ key e, s.memory.find? key = some e → Lasts home key e → l key = some e
  /-- without a directory, all of the ledger is in memory, and none of it is pushed out -/
  whole : home = none →
    s.memory.limit = none ∧ ∀ key e, l key = some e → s.memory.find? key = some e
  /-- with a directory, all of the ledger is on disk -/
  stocked : ∀ d, home = some d → Stocked s.disk d l.documents

/-- What is in memory after an entry was stored is that entry, or was there before. -/
theorem find?_of_store (hdistinct : s.memory.keys.Nodup)
    (h : (s.store key e).2.memory.find? other = some e') :
    (other = key ∧ e' = e) ∨ (other ≠ key ∧ s.memory.find? other = some e') := by
  unfold Store.store at h
  split at h
  · rename_i hfind
    by_cases hsame : other = key
    · subst hsame
      exact .inl ⟨rfl, Option.some.inj (h.symm.trans hfind)⟩
    · exact .inr ⟨hsame, h⟩
  · refine Memory.find?_of_insert hdistinct ?_
    simp only at h
    split at h
    · exact h
    · rename_i d _
      rwa [(persist_spares (s.remember key e) d key e).2] at h

namespace Mirrors

/-- With a directory, the disk and the memory are all that counts. -/
theorem ofStocked (hlocated : s.directory = some d) (hdistinct : s.memory.keys.Nodup)
    (hlasting : ∀ key e, l key = some e → Lasts (some d) key e)
    (hheld : ∀ key e, s.memory.find? key = some e → Lasts (some d) key e → l key = some e)
    (hstocked : Stocked s.disk d l.documents) : Mirrors (some d) l s :=
  ⟨hlocated, hdistinct, hlasting, hheld, fun hnone => absurd hnone (by simp),
    fun _ hd => Option.some.inj hd ▸ hstocked⟩

/-- A store with nothing in memory, and with an empty directory if it has one, holds nothing. -/
theorem nothing (hlocated : s.directory = home) (hentries : s.memory.entries = [])
    (hunlimited : home = none → s.memory.limit = none)
    (hstocked : ∀ d, home = some d → Stocked s.disk d fun _ => none) :
    Mirrors home (fun _ => none) s where
  located := hlocated
  distinct := by simp [Memory.keys, hentries]
  lasting := fun _ _ he => absurd he (by simp)
  held := fun _ _ he => absurd he (by simp [Memory.find?, hentries])
  whole := fun hnone => ⟨hunlimited hnone, fun _ _ he => absurd he (by simp)⟩
  stocked := hstocked

/-- What is persisted under a key is the document of its entry. -/
theorem persisted (h : Mirrors (some d) l s) (hdigest : isDigest key = true) :
    s.persisted key = (l key).map .entry := by
  rw [Store.persisted, h.located]
  simp only [hdigest, if_true, (h.stocked d rfl).shelved.find? hdigest, Ledger.documents]
  cases hl : l key with
  | none => rfl
  | some e =>
    have hlegible := (h.lasting key e hl (by simp)).2
    simp only [Option.map_some, ofBytes_contentOf hlegible.short, hlegible.apart.joined_eq]

/-- Using an entry that is in memory changes nothing. -/
theorem touch (h : Mirrors home l s) (key : String) :
    Mirrors home l { s with memory := s.memory.touch key } where
  located := h.located
  distinct := Memory.nodup_touch h.distinct key
  lasting := h.lasting
  held other e hfind := h.held other e ((Memory.find?_touch ..).symm.trans hfind)
  whole hnone := by simpa using h.whole hnone
  stocked := h.stocked

theorem warn (h : Mirrors home l s) (w : Warning) : Mirrors home l (s.warn w) :=
  ⟨h.located, h.distinct, h.lasting, h.held, h.whole, h.stocked⟩

theorem claim (h : Mirrors home l s) (key : String) : Mirrors home l (s.claim key) :=
  ⟨h.located, h.distinct, h.lasting, h.held, h.whole, h.stocked⟩

/-- What is on disk may come into memory, where it may push others out. -/
theorem remember (h : Mirrors (some d) l s) (hl : l key = some e) :
    Mirrors (some d) l (s.remember key e) := by
  refine .ofStocked h.located (Memory.nodup_insert h.distinct key e) h.lasting ?_ (h.stocked d rfl)
  intro other e' hfind hlasts
  rcases Memory.find?_of_insert h.distinct hfind with ⟨rfl, rfl⟩ | ⟨-, hfind⟩
  · exact hl
  · exact h.held other e' hfind hlasts

/-- Where nothing is in memory under a key, a lookup gives what the ledger says. -/
theorem lookup_of_forgotten (h : Mirrors home l s) (hm : s.memory.find? key = none) :
    ∃ s', s.lookup key = (.ok (l key), s') ∧ Mirrors home l s' ∧
      ∀ other e, s'.memory.find? other = some e →
        s.memory.find? other = some e ∨ l other = some e := by
  rw [Store.lookup, hm]
  cases home with
  | none =>
    have hnone : l key = none := by
      by_contra hne
      obtain ⟨e, he⟩ := Option.ne_none_iff_exists'.1 hne
      rw [(h.whole rfl).2 key e he] at hm
      exact absurd hm (by simp)
    rw [Store.persisted, h.located, hnone]
    exact ⟨_, rfl, h, fun _ _ => .inl⟩
  | some d =>
    by_cases hdigest : isDigest key = true
    · rw [h.persisted hdigest]
      cases hl : l key with
      | none => exact ⟨_, rfl, h, fun _ _ => .inl⟩
      | some e =>
        refine ⟨_, rfl, h.remember hl, fun other e' hfind => ?_⟩
        rcases Memory.find?_of_insert h.distinct hfind with ⟨rfl, rfl⟩ | ⟨-, hfind⟩
        · exact .inr hl
        · exact .inl hfind
    · have hpersisted : s.persisted key = some .unreadable := by
        simp only [Store.persisted, h.located, if_neg hdigest]
      have hnone : l key = none := by
        by_contra hne
        obtain ⟨e, he⟩ := Option.ne_none_iff_exists'.1 hne
        exact hdigest (h.lasting key e he (by simp)).1
      rw [hpersisted, hnone]
      exact ⟨_, rfl, h.warn _, fun _ _ => .inl⟩

/-- A lookup gives what the ledger says of a key whose entry in memory lasts, if there is one. -/
theorem lookup (h : Mirrors home l s) (key : String) :
    ∃ found s', s.lookup key = (.ok found, s') ∧ Mirrors home l s' ∧
      (s.Settled home key → found = l key) ∧
      ∀ other e, s'.memory.find? other = some e →
        s.memory.find? other = some e ∨ l other = some e := by
  cases hm : s.memory.find? key with
  | some e =>
    rw [Store.lookup, hm]
    refine ⟨_, _, rfl, h.touch key, fun hsettled => ?_, fun other e' hfind => ?_⟩
    · exact (h.held key e hm (hsettled e hm)).symm
    · exact .inl ((Memory.find?_touch ..).symm.trans hfind)
  | none =>
    obtain ⟨s', hlookup, hs', hmemory⟩ := h.lookup_of_forgotten hm
    exact ⟨_, s', hlookup, hs', fun _ => rfl, hmemory⟩

/-- A short entry that is not in memory yet is written to disk, with its halves joined. -/
theorem store_written (h : Mirrors (some d) l s) (hnew : s.memory.find? key ≠ some e)
    (hdigest : isDigest key = true) (hshort : e.IsShort) :
    (s.store key e).1 = none ∧
      Mirrors (some d) (Function.update l key (some e.joined)) (s.store key e).2 := by
  have hlocated : (s.remember key e).directory = some d := h.located
  obtain ⟨t₁, t₂, hmade, hwrite, hwritten⟩ := (h.stocked d rfl).write hdigest (contentOf e)
  rw [← contentOf_joined, ← Ledger.documents_update] at hwritten
  have hpersist : (s.remember key e).persist d key e
      = (none, { s.remember key e with disk := t₂ }) := persist_of_written hdigest hmade hshort hwrite
  unfold Store.store
  simp only [if_neg hnew, hlocated, hpersist]
  refine ⟨trivial, .ofStocked rfl (Memory.nodup_insert h.distinct key e) ?_ ?_ hwritten⟩
  · intro other e' hother
    rw [Function.update_apply] at hother
    split at hother
    · rename_i hsame
      exact hsame ▸ Option.some.inj hother ▸ fun _ => ⟨hdigest, hshort.isLegible_joined⟩
    · exact h.lasting other e' hother
  · intro other e' hfind hlasts
    rcases Memory.find?_of_insert h.distinct hfind with ⟨rfl, rfl⟩ | ⟨hne, hfind⟩
    · rw [Function.update_self, (hlasts (by simp)).2.apart.joined_eq]
    · rw [Function.update_of_ne hne]
      exact h.held other e' hfind hlasts

/-- Storing an entry that lasts writes it down. -/
theorem store (h : Mirrors home l s) (hlasts : Lasts home key e) :
    (s.store key e).1 = none ∧
      Mirrors home (Function.update l key (some e)) (s.store key e).2 := by
  by_cases hm : s.memory.find? key = some e
  · -- an equal entry is in memory, so it stands in the ledger already
    unfold Store.store
    rw [if_pos hm, ← h.held key e hm hlasts, Function.update_eq_self]
    exact ⟨rfl, h⟩
  cases home with
  | some d =>
    obtain ⟨hdigest, hlegible⟩ := hlasts (by simp)
    have hwritten := h.store_written hm hdigest hlegible.short
    rwa [hlegible.apart.joined_eq] at hwritten
  | none =>
    have hlocated : (s.remember key e).directory = none := h.located
    unfold Store.store
    simp only [if_neg hm, hlocated]
    refine ⟨trivial, hlocated, Memory.nodup_insert h.distinct key e, fun _ _ _ hnone => absurd rfl hnone,
      ?_, fun _ => ⟨(h.whole rfl).1, ?_⟩, fun d hd => absurd hd (by simp)⟩
    · intro other e' hfind hlasts'
      rcases Memory.find?_of_insert h.distinct hfind with ⟨rfl, rfl⟩ | ⟨hne, hfind⟩
      · exact Function.update_self ..
      · rw [Function.update_of_ne hne]
        exact h.held other e' hfind hlasts'
    · intro other e' hother
      refine (Memory.find?_insert (h.whole rfl).1 key other e).trans ?_
      rw [Function.update_apply] at hother
      by_cases hsame : other = key
      · rwa [if_pos hsame] at hother ⊢
      · rw [if_neg hsame] at hother ⊢
        exact (h.whole rfl).2 other e' hother

/-- Storing an entry that has no document leaves it in memory only. -/
theorem store_undocumented (h : Mirrors (some d) l s) (hlost : ¬ (isDigest key = true ∧ e.IsShort)) :
    Mirrors (some d) l (s.store key e).2 := by
  unfold Store.store
  by_cases hm : s.memory.find? key = some e
  · rw [if_pos hm]
    exact h
  have hlocated : (s.remember key e).directory = some d := h.located
  simp only [if_neg hm, hlocated]
  have hmade : ∀ t, Stocked t d l.documents →
      Mirrors (some d) l { s.remember key e with disk := t } := by
    intro t ht
    refine .ofStocked hlocated (Memory.nodup_insert h.distinct key e) h.lasting ?_ ht
    intro other e' hfind hlasts
    rcases Memory.find?_of_insert h.distinct hfind with ⟨rfl, rfl⟩ | ⟨-, hfind⟩
    · obtain ⟨hdigest, hlegible⟩ := hlasts (by simp)
      exact absurd ⟨hdigest, hlegible.short⟩ hlost
    · exact h.held other e' hfind hlasts
  by_cases hdigest : isDigest key = true
  · obtain ⟨t, hmake, hstocked⟩ := (h.stocked d rfl).makeShelf hdigest
    have hlong : ¬ e.IsShort := fun hshort => hlost ⟨hdigest, hshort⟩
    have hpersist : (s.remember key e).persist d key e
        = (some (.unwritten .longInteger), { s.remember key e with disk := t }) :=
      persist_of_long hdigest hmake hlong
    rw [hpersist]
    exact hmade t hstocked
  · have hpersist : (s.remember key e).persist d key e
        = (none, (s.remember key e).warn .memoryOnly) := if_neg hdigest
    rw [hpersist]
    exact (hmade s.disk (h.stocked d rfl)).warn _

/-- A short entry is stored. -/
theorem store_of_isShort (h : Mirrors home l s) (hshort : e.IsShort) : (s.store key e).1 = none := by
  cases home with
  | none => exact (h.store fun hnone => absurd rfl hnone).1
  | some d =>
    by_cases hm : s.memory.find? key = some e
    · unfold Store.store
      rw [if_pos hm]
    by_cases hdigest : isDigest key = true
    · exact (h.store_written hm hdigest hshort).1
    · have hlocated : (s.remember key e).directory = some d := h.located
      unfold Store.store
      simp only [if_neg hm, hlocated, Store.persist, if_neg hdigest]

/-- Storing an entry leaves what is held under the other keys as it is. -/
theorem store_others (h : Mirrors home l s) (key : String) (e : Entry) :
    ∃ l', Mirrors home l' (s.store key e).2 ∧ ∀ other, other ≠ key → l' other = l other := by
  by_cases hlasts : Lasts home key e
  · exact ⟨_, (h.store hlasts).2, fun other hne => Function.update_of_ne hne ..⟩
  cases home with
  | none => exact absurd (fun hnone => absurd rfl hnone) hlasts
  | some d =>
    by_cases hwritten : isDigest key = true ∧ e.IsShort
    · by_cases hm : s.memory.find? key = some e
      · refine ⟨l, ?_, fun _ _ => rfl⟩
        unfold Store.store
        rw [if_pos hm]
        exact h
      · exact ⟨_, (h.store_written hm hwritten.1 hwritten.2).2, fun other hne =>
          Function.update_of_ne hne ..⟩
    · exact ⟨l, h.store_undocumented hwritten, fun _ _ => rfl⟩

/-- Taking everything out succeeds and empties the ledger. -/
theorem clear (h : Mirrors home l s) : s.clear.1 = none ∧ Mirrors home (fun _ => none) s.clear.2 := by
  unfold Store.clear
  cases home with
  | none =>
    simp only [h.located]
    exact ⟨trivial, .nothing rfl rfl (fun hnone => (h.whole hnone).1)
      fun d hd => absurd hd (by simp)⟩
  | some d =>
    have hcleared : ∀ t, Stocked t d (fun _ => none) →
        Mirrors (some d) (fun _ => none) { s with memory := s.memory.clear, disk := t } :=
      fun t ht => .nothing h.located rfl (fun hnone => absurd hnone (by simp))
        fun _ hd => Option.some.inj hd ▸ ht
    simp only [h.located]
    cases hd : s.disk.contains d with
    | true =>
      obtain ⟨t', hremoved, hstocked⟩ := (h.stocked d rfl).remove hd
      simp only [hremoved, if_true]
      exact ⟨trivial, h.located ▸ hcleared t' hstocked⟩
    | false =>
      simp only [Bool.false_eq_true, if_false]
      exact ⟨trivial, h.located ▸ hcleared s.disk ((h.stocked d rfl).nothing hd)⟩

/-- What is on disk is still there when the store is opened again. -/
theorem reopen (h : Mirrors (some d) l s) (limit : Option Int) :
    Mirrors (some d) l (s.reopen limit) := by
  unfold Store.reopen
  cases hnew : Store.new s.directory limit s.disk with
  | error f => exact h
  | ok s' =>
    obtain ⟨hentries, hdirectory, hdisk, -⟩ := new_eq_ok hnew
    refine .ofStocked (hdirectory.trans h.located) (by simp [Memory.keys, hentries]) h.lasting ?_
      (hdisk ▸ h.stocked d rfl)
    exact fun key e hfind => absurd hfind (by simp [Memory.find?, hentries])

end Mirrors

/-! ## Stores that forget nothing -/

/-- A store at rest that keeps the entries of a ledger, since all that it has in memory lasts. -/
structure Keeps (s : Store) (l : Ledger) : Prop extends Mirrors s.directory l s where
  idle : s.inFlight = []
  settled : ∀ key, s.Settled s.directory key

/-- A new store with an empty directory, or with none, keeps nothing. -/
theorem keeps_nothing {directory : Option Place} {disk : Tree}
    (hvacant : ∀ d, directory = some d → Vacant disk d) :
    Keeps { directory, disk } fun _ => none where
  toMirrors := .nothing rfl rfl (fun _ => rfl) fun d hd => (hvacant d hd).stocked
  idle := rfl
  settled := fun _ _ hfind => absurd hfind (by simp [Memory.find?])

/-- A lookup gives what the ledger says. -/
theorem Keeps.lookup (h : Keeps s l) (key : String) :
    ∃ s', s.lookup key = (.ok (l key), s') ∧ Keeps s' l ∧ s'.directory = s.directory := by
  obtain ⟨found, s', hlookup, hs', hfound, hmemory⟩ := h.toMirrors.lookup key
  have hdirectory := hs'.located
  have hidle := (inFlight_of_lookup hlookup).trans h.idle
  rw [hfound (h.settled key)] at hlookup
  rw [← hdirectory] at hs'
  refine ⟨s', hlookup, ⟨hs', hidle, fun other e hfind => ?_⟩, hdirectory⟩
  rw [hdirectory]
  exact (hmemory other e hfind).elim (h.settled other e) (h.lasting other e)

/-- Storing an entry that lasts writes it down. -/
theorem Keeps.store (h : Keeps s l) (hlasts : Lasts s.directory key e) :
    ∃ s', s.store key e = (none, s') ∧ Keeps s' (Function.update l key (some e)) ∧
      s'.directory = s.directory := by
  obtain ⟨hstored, hs'⟩ := h.toMirrors.store hlasts
  have hdirectory := hs'.located
  rw [← hdirectory] at hs'
  refine ⟨_, Prod.ext hstored rfl, ⟨hs', (inFlight_store s key e).trans h.idle, ?_⟩, hdirectory⟩
  intro other e' hfind
  rw [hdirectory]
  rcases find?_of_store h.distinct hfind with ⟨rfl, rfl⟩ | ⟨-, hfind⟩
  · exact hlasts
  · exact h.settled other e' hfind

/-- What is on disk is still there when the store is opened again. -/
theorem Keeps.reopen (h : Keeps s l) (hd : s.directory ≠ none) : Keeps (s.reopen none) l := by
  obtain ⟨d, hsome⟩ := Option.ne_none_iff_exists'.1 hd
  have hs := h.toMirrors
  rw [hsome] at hs
  have hs' := hs.reopen none
  rw [← hsome] at hs'
  exact ⟨hs', rfl, fun _ _ hfind => absurd hfind (by simp [Store.reopen, Store.new, Memory.find?])⟩

end Store

end SheetBuild.Cache
