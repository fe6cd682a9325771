import SheetBuild.Proofs.Cache.Work
set_option autoImplicit false

/-!
# Requests are balanced

Work on other keys leaves what is held under a key alone (`spares_run`).  Where the directory is one that
files can have, and no number is too long, it leaves no key in flight either (`stranded_eq_nil`).

So a request whose computation fails leaves of it what the work did, and nothing under its own key; one
whose computation comes to an entry leaves the entry to be found (`getOrCompute_balanced`).
-/

namespace SheetBuild.Cache

open SheetBuild.Disk (Place)

variable {ε : Type}

/-! ## What is held under a key -/

namespace Store

variable {s s' s'' : Store} {key other : String} {e : Entry}

/-- From one store to another nothing comes to be held under a key: not in memory, and no file at the
place of its document comes, changes or goes. -/
structure Spares (key : String) (s s' : Store) : Prop where
  directory : s'.directory = s.directory
  memory : s.memory.find? key = none → s'.memory.find? key = none
  document : ∀ d, s.directory = some d → ∀ content,
    s'.disk.node? (documentAt d key) = some (.file content)
      ↔ s.disk.node? (documentAt d key) = some (.file content)

theorem Spares.refl (key : String) (s : Store) : Spares key s s := ⟨rfl, id, fun _ _ _ => .rfl⟩

theorem Spares.trans (h : Spares key s s') (h' : Spares key s' s'') : Spares key s s'' where
  directory := h'.directory.trans h.directory
  memory := h'.memory ∘ h.memory
  document := fun d hd content =>
    (h'.document d (h.directory.trans hd) content).trans (h.document d hd content)

theorem Spares.claim (key other : String) (s : Store) : Spares key s (s.claim other) :=
  ⟨rfl, id, fun _ _ _ => .rfl⟩

theorem Spares.release (key other : String) (s : Store) : Spares key s (s.release other) :=
  ⟨rfl, id, fun _ _ _ => .rfl⟩

theorem Spares.lookup (hne : other ≠ key) (s : Store) : Spares key s (s.lookup other).2 := by
  obtain ⟨hdirectory, hdisk, -⟩ := lookup_spares s other
  refine ⟨hdirectory, find?_lookup_eq_none hne.symm, fun d _ content => ?_⟩
  rw [hdisk]

theorem Spares.remember (hne : other ≠ key) (s : Store) (e : Entry) :
    Spares key s (s.remember other e) :=
  ⟨rfl, Memory.find?_insert_eq_none hne.symm, fun _ _ _ => .rfl⟩

theorem Spares.store (hne : other ≠ key) (s : Store) (e : Entry) :
    Spares key s (s.store other e).2 := by
  unfold Store.store
  split
  · exact .refl key s
  · simp only
    split
    · exact Spares.remember hne s e
    · rename_i d hd
      refine (Spares.remember hne s e).trans ?_
      obtain ⟨hdirectory, hmemory⟩ := persist_spares (s.remember other e) d other e
      refine ⟨hdirectory, fun h => hmemory ▸ h, fun d' hd' content => ?_⟩
      obtain rfl : d = d' := Option.some.inj (hd.symm.trans hd')
      exact node?_persist hne.symm

/-- A request for another key leaves what is held under a key alone, if its computation does. -/
theorem Spares.getOrCompute {compute : Store → Except ε Entry × Store}
    (hcompute : ∀ s, Spares key s (compute s).2) (hne : other ≠ key) (s : Store) :
    Spares key s (s.getOrCompute other compute).2 :=
  related_getOrCompute (R := Spares key) Spares.trans (Spares.lookup hne) (Spares.claim key other)
    hcompute (Spares.store hne) (Spares.release key other) s

/-- A document of the key stands on the disk where no way leads to it, since a directory is missing on
the way.  It comes into reach when that directory is made. -/
def Hides (s : Store) (key : String) : Prop :=
  ∃ d content, isDigest key = true ∧ s.directory = some d ∧
    s.disk.node? (documentAt d key) = some (.file content) ∧
    s.disk.find? (documentPlace d key) = none

/-- A key that is missing stays missing where it is spared, unless its document is out of reach. -/
theorem Spares.missing (h : Spares key s s') (hhides : ¬ s.Hides key)
    (hmissing : (s.lookup key).1 = .ok none) : (s'.lookup key).1 = .ok none := by
  obtain ⟨hmemory, hpersisted⟩ := lookup_eq_none_iff.1 hmissing
  refine lookup_eq_none_iff.2 ⟨h.memory hmemory, ?_⟩
  cases hp : s'.persisted key with
  | none => exact .inl rfl
  | some content =>
    refine .inr (congrArg some (Decidable.byContradiction fun hreadable => ?_))
    obtain ⟨d, bytes, hd', hfile', rfl⟩ := file_of_persisted hreadable hp
    have hdigest : isDigest key = true := by
      refine Decidable.byContradiction fun hno => hreadable ?_
      simpa [persisted, hd', hno] using hp.symm
    have hd : s.directory = some d := h.directory.symm.trans hd'
    have hfile := (h.document d hd bytes).1 hfile'
    cases hfind : s.disk.find? (documentPlace d key) with
    | none => exact hhides ⟨d, bytes, hdigest, hd, hfile, hfind⟩
    | some n =>
      -- what is found is the file, which was read before as well
      obtain rfl : n = .file bytes :=
        Option.some.inj ((node?_of_find? hdigest hfind).symm.trans hfile)
      have hread : s.persisted key = some (.ofBytes bytes) :=
        (persisted_eq_iff hd hdigest hreadable).2 ⟨bytes, hfind, rfl⟩
      rcases hpersisted with hnone | hunreadable
      · simp [hnone] at hread
      · exact hreadable (Option.some.inj (hread.symm.trans hunreadable))

/-- The store is in memory only; or everything on its disk is in a directory, and the path of its own
directory does not lead up. -/
structure Grounded (s : Store) : Prop where
  rooted : ∀ d, s.directory = some d → s.disk.Rooted
  nameable : ∀ d, s.directory = some d → d.all Place.isNameable = true
  straight : ∀ d, s.directory = some d → Place.up ∉ d

/-- Such a store hides no document: what stands on its disk is within reach. -/
theorem Grounded.not_hides (h : s.Grounded) : ¬ s.Hides key := by
  rintro ⟨d, content, hdigest, hd, hfile, hfind⟩
  have hup := h.straight d hd
  have hplace : documentPlace d key = documentAt d key := by
    rw [documentAt, shelfAt, Place.resolve_of_not_mem hup, documentPlace, shelf_eq]
  have hup' : Place.up ∉ documentPlace d key := by
    simp [documentPlace, shelf_eq, hup, (shelfName_ne_up hdigest).symm,
      (documentName_ne_up key).symm]
  have hname : (documentPlace d key).all Place.isNameable = true := by
    simp [documentPlace, shelf_eq, h.nameable d hd, isNameable_shelfName hdigest,
      isNameable_documentName hdigest]
  have hthere : s.disk.node? (documentPlace d key) = some (.file content) := by rw [hplace, hfile]
  rw [(h.rooted d hd).find?_eq hname hup' hthere] at hfind
  exact absurd hfind (by simp)

/-- What is missing is missing on account of the disk and not of what was looked up. -/
theorem lookup_of_missing (h : (s.lookup key).1 = .ok none) :
    (s.lookup key).2 = s ∨ (s.lookup key).2 = s.warn .unreadable := by
  obtain ⟨hmemory, hnone | hunreadable⟩ := lookup_eq_none_iff.1 h
  · exact .inl (by rw [lookup, hmemory, hnone])
  · exact .inr (by rw [lookup, hmemory, hunreadable])

/-- An entry that is stored is in memory from then on, also where it cannot be persisted. -/
theorem find?_store_self (s : Store) (key : String) (e : Entry) :
    (s.store key e).2.memory.find? key = some e := by
  by_cases hmemory : s.memory.find? key = some e
  · rw [Store.store, if_pos hmemory, hmemory]
  · have hkept : (s.store key e).2.memory = s.memory.insert key e := by
      rw [Store.store, if_neg hmemory]
      simp only
      split
      · rfl
      · exact (persist_spares _ _ key e).2
    rw [hkept]
    exact Memory.find?_insert_self s.memory key e

/-- What a lookup finds is in memory from then on. -/
theorem find?_of_lookup (h : (s.lookup key).1 = .ok (some e)) :
    (s.lookup key).2.memory.find? key = some e := by
  unfold Store.lookup at h ⊢
  cases hmemory : s.memory.find? key with
  | some e' =>
    rw [hmemory] at h
    simp only [Except.ok.injEq, Option.some.injEq] at h
    simp only [Memory.find?_touch, hmemory, h]
  | none =>
    rw [hmemory] at h
    simp only at h ⊢
    split at h
    · simp at h
    · simp at h
    · rename_i hp
      simp only [Except.ok.injEq, Option.some.injEq] at h
      subst h
      exact Memory.find?_insert_self s.memory key _
    · simp at h

/-- An entry that is in memory is served without computing. -/
theorem getOrCompute_of_memory (h : s.memory.find? key = some e)
    (compute : Store → Except ε Entry × Store) : (s.getOrCompute key compute).1 = .ok ⟨e, false⟩ := by
  rw [Store.getOrCompute, lookup, h]

/-- The entry that a request comes to by its computation is in memory at its end, also where it cannot
be stored. -/
theorem find?_of_computed {compute : Store → Except ε Entry × Store} (h : s.Computes key)
    (he : (compute ((s.lookup key).2.claim key)).1 = .ok e) :
    (s.getOrCompute key compute).2.memory.find? key = some e := by
  have hkept : ∀ {s' s'' : Store} {e' : Entry} {failure : Option StoreError},
      s'.store key e' = (failure, s'') → s''.memory.find? key = some e' := by
    intro s' s'' e' failure kept
    have hself := find?_store_self s' key e'
    rwa [kept] at hself
  have hends := s.ends key compute
  generalize s.getOrCompute key compute = ended at hends
  cases hends with
  | looked idle => exact absurd h idle
  | failed _ ran => simp [ran] at he
  | unstored _ ran kept =>
    rw [ran] at he
    obtain rfl := Except.ok.inj he
    exact hkept kept
  | @stored _ _ s'' _ ran kept =>
    rw [ran] at he
    obtain rfl := Except.ok.inj he
    have hfind : s''.memory.find? key = _ := hkept kept
    exact hfind

/-- The entry that answers a request is in memory at its end. -/
theorem find?_of_answer {compute : Store → Except ε Entry × Store} {a : Answer}
    (h : (s.getOrCompute key compute).1 = .ok a) :
    (s.getOrCompute key compute).2.memory.find? key = some a.entry := by
  by_cases hc : s.Computes key
  · obtain ⟨e, computed⟩ := a
    refine find?_of_computed hc ?_
    have hends := s.ends key compute
    generalize s.getOrCompute key compute = ended at h hends
    cases hends with
    | looked idle => exact absurd hc idle
    | failed => simp at h
    | unstored => simp at h
    | stored _ ran =>
      simp only [Except.ok.injEq, Answer.mk.injEq] at h
      rw [ran, h.1]
  · rw [getOrCompute_of_not_computes hc] at h ⊢
    refine find?_of_lookup ?_
    revert h
    generalize (s.lookup key).1 = found
    intro h
    match found, h with
    | .ok (some e), rfl => rfl

end Store

/-- Work on other keys leaves what is held under a key alone. -/
theorem Work.spares_run {key : String} {w : Work ε} (h : w.Avoids key) (s : Store) :
    Store.Spares key s (w.run s).2 := by
  induction w generalizing s with
  | finish result => exact .refl key s
  | lookup k resume ih => exact (Store.Spares.lookup h.1 s).trans (ih _ (h.2 _) _)
  | store k e resume ih => exact (Store.Spares.store h.1 s e).trans (ih _ (h.2 _) _)
  | request k inner resume ihInner ihResume =>
    obtain ⟨hne, hinner, hresume⟩ := h
    exact (Store.Spares.getOrCompute (ihInner hinner) hne s).trans (ihResume _ (hresume _) _)

/-! ## Requests -/

namespace Store

variable {s : Store} {key : String} {w : Work ε}

/-- A request that runs work on other keys: the key is in flight meanwhile, which leaves no trace where
the work fails. -/
theorem Computes.getOrCompute_of_failed (h : s.Computes key) (havoids : w.Avoids key) {e : ε}
    (he : (w.run ((s.lookup key).2.claim key)).1 = .error e) :
    s.getOrCompute key w.run = (.error (.failed e), (w.run (s.lookup key).2).2) := by
  have hrun := Work.run_claim havoids (s.lookup key).2
  have hflight := w.inFlight_run (s.lookup key).2
  rw [hrun] at he
  rw [h.getOrCompute, hrun]
  revert he hflight
  generalize w.run (s.lookup key).2 = ran
  obtain ⟨result, s'⟩ := ran
  rintro rfl hflight
  have hstranded : key ∉ w.stranded (s.lookup key).2 := Work.not_mem_stranded havoids (s.lookup key).2
  have herase : (w.stranded (s.lookup key).2 ++ key :: (s.lookup key).2.inFlight).erase key
      = w.stranded (s.lookup key).2 ++ (s.lookup key).2.inFlight := erase_append_cons hstranded
  simp only [release, withFlight, herase, ← hflight]

/-- What is left of a request for a key whose computation failed: what the work did on the store as
the lookup of the key left it, and nothing under the key.  A request for the key computes again, at
once or when other work has been done. -/
structure LeavesNothing (s : Store) (key : String) (w : Work ε) (s' : Store) : Prop where
  work : s' = (w.run (s.lookup key).2).2
  lookup : (s.lookup key).2 = s ∨ (s.lookup key).2 = s.warn .unreadable
  memory : s'.memory.find? key = none
  document : ∀ d, s.directory = some d → ∀ content,
    s'.disk.node? (documentAt d key) = some (.file content)
      ↔ s.disk.node? (documentAt d key) = some (.file content)
  again : ¬ s.Hides key → ∀ later : Work ε, later.Avoids key → (later.run s').2.Computes key

theorem Computes.leavesNothing (h : s.Computes key) (havoids : w.Avoids key) :
    s.LeavesNothing key w (w.run (s.lookup key).2).2 := by
  have hmemory := (lookup_eq_none_iff.1 h.missing).1
  obtain ⟨hdirectory, hdisk, -⟩ := lookup_spares s key
  have hlooked : Spares key s (s.lookup key).2 := by
    refine ⟨hdirectory, fun _ => ?_, fun d _ content => by rw [hdisk]⟩
    rw [memory_of_lookup_eq_none h.missing, hmemory]
  have hspared := hlooked.trans (Work.spares_run havoids _)
  refine ⟨rfl, lookup_of_missing h.missing, hspared.memory hmemory, hspared.document, ?_⟩
  intro hhides later hlater
  refine ⟨(hspared.trans (Work.spares_run hlater _)).missing hhides h.missing, ?_⟩
  rw [Work.inFlight_run, Work.inFlight_run, inFlight_lookup, List.mem_append, List.mem_append]
  rintro (hstranded | hstranded | hflight)
  · exact Work.not_mem_stranded hlater _ hstranded
  · exact Work.not_mem_stranded havoids _ hstranded
  · exact h.free hflight

/-! ## Requests at once -/

/-- Lookups of a key that is missing leave the store as it is, but for warnings. -/
theorem lookups_of_missing (h : (s.lookup key).1 = .ok none) (n : Nat) :
    ∃ m ≤ n, s.lookups key n = { s with warnings := s.warnings ++ List.replicate m .unreadable } := by
  induction n generalizing s with
  | zero => exact ⟨0, Nat.le_refl 0, by simp [lookups]⟩
  | succ n ih =>
    have hmissing := lookup_eq_none_iff.1 h
    rcases lookup_of_missing h with hsame | hwarned
    · obtain ⟨m, hm, heq⟩ := ih h
      exact ⟨m, by omega, by rw [lookups, hsame, heq]⟩
    · have h' : ((s.warn .unreadable).lookup key).1 = .ok none := lookup_eq_none_iff.2 hmissing
      obtain ⟨m, hm, heq⟩ := ih h'
      refine ⟨m + 1, by omega, ?_⟩
      rw [lookups, hwarned, heq]
      simp [warn, List.replicate_succ]

/-- What others get that come upon a request while it computes. -/
def shared : Except (Refusal ε) Answer → Except (Refusal ε) Answer
  | .ok a => .ok ⟨a.entry, false⟩
  | .error (.unstored _) => .error .waiting
  | .error e => .error e

/-- Requests for one key that come at once.  Where the first one computes, the others look the key up
meanwhile and share what comes of it: the computation is made once, and its failure is the failure of
all.  Otherwise all look the key up, one after the other. -/
theorem getOrComputeTogether_eq (s : Store) (key : String) (others : Nat)
    (compute : Store → Except ε Entry × Store) :
    s.getOrComputeTogether key others compute =
      let first := s.getOrCompute key fun s => compute (s.lookups key others)
      if s.Computes key then (first.1 :: List.replicate others (shared first.1), first.2)
      else (List.replicate (others + 1) (answered (s.lookup key).1), s.lookups key (others + 1)) := by
  unfold getOrComputeTogether
  by_cases h : s.Computes key
  · have hends := s.ends key fun s => compute (s.lookups key others)
    generalize s.getOrCompute key (fun s => compute (s.lookups key others)) = ended at hends
    simp only [if_pos h]
    cases hends with
    | looked idle => exact absurd h idle
    | failed => rfl
    | unstored => rfl
    | stored => rfl
  · simp only [getOrCompute_of_not_computes h, if_neg h]
    cases (s.lookup key).1 with
    | error e => rfl
    | ok found => cases found <;> rfl

/-- Requests at once are answered as if they came one after the other, where the first one is answered:
all with its entry, which is served right behind them without computing. -/
theorem getOrComputeTogether_of_answer {others : Nat} {compute : Store → Except ε Entry × Store}
    {a : Answer} (h : s.Computes key)
    (ha : (s.getOrCompute key fun s => compute (s.lookups key others)).1 = .ok a) :
    (s.getOrComputeTogether key others compute).1
        = .ok a :: List.replicate others (.ok ⟨a.entry, false⟩) ∧
      ∀ later : Store → Except ε Entry × Store,
        ((s.getOrComputeTogether key others compute).2.getOrCompute key later).1
          = .ok ⟨a.entry, false⟩ := by
  rw [getOrComputeTogether_eq]
  simp only [if_pos h, ha, shared, true_and]
  exact fun later => getOrCompute_of_memory (find?_of_answer ha) later

/-! ## Requests that strand nothing -/

/-- A request leaves the directory where it is, if its computation does. -/
theorem directory_getOrCompute {compute : Store → Except ε Entry × Store}
    (hcompute : ∀ s, (compute s).2.directory = s.directory) (s : Store) (key : String) :
    (s.getOrCompute key compute).2.directory = s.directory :=
  related_getOrCompute (R := fun s s' => s'.directory = s.directory) (fun h h' => h'.trans h)
    (fun s => (lookup_spares s key).1) (fun _ => rfl) hcompute (directory_store · key) (fun _ => rfl) s

end Store

namespace Work

variable {w : Work ε}

theorem directory_run (w : Work ε) (s : Store) : (w.run s).2.directory = s.directory := by
  induction w generalizing s with
  | finish result => rfl
  | lookup k resume ih => exact (ih _ _).trans (Store.lookup_spares s k).1
  | store k e resume ih => exact (ih _ _).trans (Store.directory_store s k e)
  | request k inner resume ihInner ihResume =>
    exact (ihResume _ _).trans (Store.directory_getOrCompute ihInner s k)

theorem isShort_of_run (h : w.YieldsShort) {s : Store} {e : Entry} (he : (w.run s).1 = .ok e) :
    e.IsShort := by
  induction w generalizing s with
  | finish result => exact h e he
  | lookup k resume ih => exact ih _ (h _) he
  | store k e resume ih => exact ih _ (h _) he
  | request k inner resume _ ihResume => exact ihResume _ (h.2 _) he

/-- The store is in memory only; or files can have the name of its directory, and the work comes to
entries without long numbers throughout. -/
def Suits (w : Work ε) (s : Store) : Prop :=
  ∀ d, s.directory = some d → d.all Place.isNameable = true ∧ w.YieldsShort

theorem Suits.congr {w' : Work ε} {s s' : Store} (h : w.Suits s) (hs : s'.directory = s.directory)
    (hw : w.YieldsShort → w'.YieldsShort) : w'.Suits s' :=
  fun d hd => ⟨(h d (hs ▸ hd)).1, hw (h d (hs ▸ hd)).2⟩

/-- A request for which the work suits the store does not end with an entry that cannot be stored. -/
theorem Suits.ownStranded_eq_nil {s : Store} (h : w.Suits s) (key : String) :
    Store.ownStranded key (s.getOrCompute key w.run).1 = [] := by
  have hran : ∀ {s'}, w.run ((s.lookup key).2.claim key) = s' → s'.2.directory = s.directory := by
    rintro s' rfl
    exact (w.directory_run _).trans (Store.lookup_spares s key).1
  have hends := s.ends key w.run
  generalize s.getOrCompute key w.run = ended at hends
  cases hends with
  | looked =>
    unfold Store.answered
    split <;> rfl
  | failed => rfl
  | @unstored e s' _ failure _ ran kept =>
    have hnone : (s'.store key e).1 = none := Store.store_eq_none fun d hd => by
      obtain ⟨hname, hshort⟩ := h d ((hran ran).symm.trans hd)
      exact ⟨hname, isShort_of_run hshort (by rw [ran])⟩
    rw [kept] at hnone
    exact absurd hnone (by simp)
  | stored => rfl

/-- Work that suits the store leaves nothing in flight. -/
theorem Suits.stranded_eq_nil {s : Store} (h : w.Suits s) : w.stranded s = [] := by
  induction w generalizing s with
  | finish result => rfl
  | lookup k resume ih => exact ih _ (h.congr (Store.lookup_spares s k).1 fun hw => hw _)
  | store k e resume ih => exact ih _ (h.congr (Store.directory_store s k e) fun hw => hw _)
  | request k inner resume ihInner ihResume =>
    have hinner : inner.Suits s := h.congr rfl And.left
    have hclaimed : inner.Suits ((s.lookup k).2.claim k) :=
      h.congr (Store.lookup_spares s k).1 And.left
    have hdirectory := Store.directory_getOrCompute inner.directory_run s k
    simp only [stranded, Store.strandedBy, ihInner hclaimed, hinner.ownStranded_eq_nil,
      ihResume _ (h.congr hdirectory fun hw => hw.2 _), List.append_nil, ite_self]

end Work

namespace Store

variable {s : Store} {key : String} {w : Work ε}

/-- What a request for a key comes to whose computation is work: the answer, and the store that is
left. -/
structure Balanced (s : Store) (key : String) (w : Work ε) (answer : Except (Refusal ε) Answer)
    (s' : Store) : Prop where
  /-- what was in flight is in flight afterwards; besides it the keys of entries that were computed and
  could not be stored are, those of the work before that of the request -/
  inFlight : s'.inFlight = s.strandedBy key w.run w.stranded ++ s.inFlight
  /-- there are none of these where the work suits the store -/
  suited : w.Suits s → s.strandedBy key w.run w.stranded = []
  /-- the request fails with what the work fails with -/
  failed : ∀ e, answer = .error (.failed e) ↔
    s.Computes key ∧ (w.run ((s.lookup key).2.claim key)).1 = .error e
  /-- it is answered with the entry that the work comes to, where that can be stored -/
  computed : ∀ e, answer = .ok ⟨e, true⟩ ↔
    s.Computes key ∧ (w.run ((s.lookup key).2.claim key)).1 = .ok e ∧
      ((w.run ((s.lookup key).2.claim key)).2.store key e).1 = none
  /-- and fails where it cannot -/
  unstored : ∀ failure, answer = .error (.unstored failure) ↔
    s.Computes key ∧ ∃ e, (w.run ((s.lookup key).2.claim key)).1 = .ok e ∧
      ((w.run ((s.lookup key).2.claim key)).2.store key e).1 = some failure
  /-- work that fails leaves nothing of the request -/
  nothing : ∀ e, answer = .error (.failed e) → s.LeavesNothing key w s'
  /-- so that the request computes again, unless a document of the key is out of reach, as none is where
  everything on the disk is in a directory -/
  reached : s.Grounded → ¬ s.Hides key
  /-- an entry that is found or computed is served right behind the request, without computing -/
  again : ∀ e, answer = .ok ⟨e, false⟩ ∨
      s.Computes key ∧ (w.run ((s.lookup key).2.claim key)).1 = .ok e →
    ∀ compute : Store → Except ε Entry × Store, (s'.getOrCompute key compute).1 = .ok ⟨e, false⟩
  /-- the key of an entry that could not be stored is in flight -/
  own : ∀ failure, answer = .error (.unstored failure) → key ∈ s'.inFlight
  /-- a request for a key that is in flight waits where no entry is found -/
  waits : key ∈ s.inFlight → (s.lookup key).1 = .ok none → answer = .error .waiting

/-- Requests are balanced, whatever their computations do on other keys, but for the keys of entries that
could not be stored: those stay in flight, and every request for them waits as soon as the entry is not
found any more. -/
theorem getOrCompute_balanced (havoids : w.Avoids key) (s : Store) :
    s.Balanced key w (s.getOrCompute key w.run).1 (s.getOrCompute key w.run).2 := by
  have hflight := (w.strands.getOrCompute key).inFlight s
  refine ⟨hflight, fun h => ?_, fun e => getOrCompute_eq_failed_iff,
    fun e => getOrCompute_eq_computed_iff, fun failure => getOrCompute_eq_unstored_iff,
    fun e he => ?_, fun h => h.not_hides, fun e he compute => ?_, fun failure hfailure => ?_,
    fun hmem hmissing => ?_⟩
  · have hclaimed : w.Suits ((s.lookup key).2.claim key) := h.congr (lookup_spares s key).1 id
    rw [strandedBy, hclaimed.stranded_eq_nil, h.ownStranded_eq_nil, List.append_nil, ite_self]
  · obtain ⟨h, hran⟩ := getOrCompute_eq_failed_iff.1 he
    rw [h.getOrCompute_of_failed havoids hran]
    exact h.leavesNothing havoids
  · refine getOrCompute_of_memory ?_ compute
    rcases he with he | ⟨h, hran⟩
    · exact find?_of_answer he
    · exact find?_of_computed h hran
  · obtain ⟨h, -⟩ := getOrCompute_eq_unstored_iff.1 hfailure
    rw [hflight, strandedBy, if_pos h, hfailure]
    simp [ownStranded]
  · rw [getOrCompute_of_not_computes fun h => h.free hmem, hmissing]
    rfl

/-- A store on an empty disk. -/
def onEmptyDisk : Store where
  directory := some ["cache"]

/-- Work that looks a sheet up, stores it, requests another one, and then fails. -/
def failingWork : Work String :=
  .lookup "1123456789abcdef" fun _ =>
    .store "1123456789abcdef" ⟨.css "a", none, []⟩ fun _ =>
      .request "2123456789abcdef" (.finish (.ok ⟨.css "b", none, []⟩)) fun _ =>
        .finish (.error "no sheet")

/-- The sheets of the work are without numbers, and files can have the name of the directory. -/
theorem failingWork_suits : failingWork.Suits onEmptyDisk := by
  intro d hd
  obtain rfl : ["cache"] = d := Option.some.inj hd
  refine ⟨by decide, fun _ _ => ⟨?_, fun _ => ?_⟩⟩
  · intro e he
    obtain rfl := Except.ok.inj he
    exact fun d hd => absurd hd (by simp [Entry.diagnostic?])
  · intro e he
    exact absurd he (by simp)

/-- Work that comes to a sheet. -/
def sheetWork : Work String := .finish (.ok ⟨.css "a", none, []⟩)

/-- A store with a directory that no file can have. -/
def inNoDirectory : Store where
  directory := some ["ca\x00che"]

/-- On an empty disk, a request fails as its work does; the sheets that the work stored are all that is
left of it, and the request computes again, also when other work has been done.  In a directory that no
file can have, a request for a sheet fails though the sheet is there, and leaves its key in flight. -/
theorem failingWork_leaves_nothing :
    (failingWork.Avoids "0123456789abcdef" ∧
      (onEmptyDisk.getOrCompute "0123456789abcdef" failingWork.run).1 = .error (.failed "no sheet") ∧
      (onEmptyDisk.getOrCompute "0123456789abcdef" failingWork.run).2.inFlight = [] ∧
      onEmptyDisk.LeavesNothing "0123456789abcdef" failingWork
        (onEmptyDisk.getOrCompute "0123456789abcdef" failingWork.run).2 ∧
      ∀ later : Work String, later.Avoids "0123456789abcdef" →
        (later.run (onEmptyDisk.getOrCompute "0123456789abcdef" failingWork.run).2).2.Computes
          "0123456789abcdef") ∧
    (inNoDirectory.getOrCompute "0123456789abcdef" sheetWork.run).1
        = .error (.unstored .unnameable) ∧
      (inNoDirectory.getOrCompute "0123456789abcdef" sheetWork.run).2.inFlight
        = ["0123456789abcdef"] := by
  refine ⟨?_, ?_⟩
  · have havoids : failingWork.Avoids "0123456789abcdef" := by simp [failingWork, Work.Avoids]
    have hmissing : (onEmptyDisk.lookup "0123456789abcdef").1 = .ok none := by decide +kernel
    have hcomputes : onEmptyDisk.Computes "0123456789abcdef" := ⟨hmissing, by decide⟩
    have hgrounded : onEmptyDisk.Grounded := by
      refine ⟨fun d _ p name n hn => ?_, fun d hd => ?_, fun d hd => ?_⟩
      · simp [onEmptyDisk, Disk.Tree.node?] at hn
      · obtain rfl : ["cache"] = d := Option.some.inj hd
        decide
      · obtain rfl : ["cache"] = d := Option.some.inj hd
        decide
    have hbalanced := getOrCompute_balanced havoids onEmptyDisk
    have hanswer := (hbalanced.failed "no sheet").2 ⟨hcomputes, rfl⟩
    have hnothing := hbalanced.nothing _ hanswer
    have hflight := hbalanced.inFlight
    rw [hbalanced.suited failingWork_suits] at hflight
    exact ⟨havoids, hanswer, hflight, hnothing, hnothing.again (hbalanced.reached hgrounded)⟩
  · have havoids : sheetWork.Avoids "0123456789abcdef" := trivial
    have hmissing : (inNoDirectory.lookup "0123456789abcdef").1 = .ok none := by decide +kernel
    have hcomputes : inNoDirectory.Computes "0123456789abcdef" := ⟨hmissing, by decide⟩
    have hbalanced := getOrCompute_balanced havoids inNoDirectory
    have hstored : (((inNoDirectory.lookup "0123456789abcdef").2.claim "0123456789abcdef").store
        "0123456789abcdef" ⟨.css "a", none, []⟩).1 = some .unnameable := by decide +kernel
    have hanswer := (hbalanced.unstored .unnameable).2 ⟨hcomputes, _, rfl, hstored⟩
    refine ⟨hanswer, ?_⟩
    rw [hbalanced.inFlight, strandedBy, if_pos hcomputes, hanswer]
    rfl

end Store

end SheetBuild.Cache
