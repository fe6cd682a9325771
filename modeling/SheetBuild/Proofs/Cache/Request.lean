import SheetBuild.Cache.Store
import SheetBuild.Proofs.Cache.Recency
set_option autoImplicit false

/-!
# Requests to a store

A request for an entry whose key is not in flight looks the key up, and computes and stores the entry
where it is not there; that the key is in flight meanwhile leaves no trace where the entry could be
stored (`getOrCompute_of_free`).
Neither a lookup nor storing an entry changes which keys are in flight, and a lookup leaves the disk
alone, so what is persisted stays what it was.
-/

namespace SheetBuild.Cache.Store

variable {s : Store} {key other : String} {e : Entry}

@[simp] theorem release_claim (s : Store) (key : String) : (s.claim key).release key = s := by
  simp [claim, release]

/-- The store with other keys in flight. -/
def withFlight (s : Store) (keys : List String) : Store := { s with inFlight := keys }

/-- Looking up does not see which keys are in flight. -/
theorem lookup_withFlight (s : Store) (keys : List String) (key : String) :
    (s.withFlight keys).lookup key = ((s.lookup key).1, (s.lookup key).2.withFlight keys) := by
  unfold lookup
  rw [show (s.withFlight keys).memory = s.memory from rfl,
    show (s.withFlight keys).persisted key = s.persisted key from rfl]
  split
  · rfl
  · split <;> rfl

theorem persist_withFlight (s : Store) (keys : List String) (directory : Disk.Place) (key : String)
    (e : Entry) :
    (s.withFlight keys).persist directory key e
      = ((s.persist directory key e).1, (s.persist directory key e).2.withFlight keys) := by
  unfold persist
  split
  · simp only [withFlight]
    split
    · rfl
    · rfl
    · split
      · rfl
      · split <;> rfl
  · rfl

/-- Storing an entry does not see which keys are in flight. -/
theorem store_withFlight (s : Store) (keys : List String) (key : String) (e : Entry) :
    (s.withFlight keys).store key e
      = ((s.store key e).1, (s.store key e).2.withFlight keys) := by
  unfold store
  by_cases h : s.memory.find? key = some e
  · rw [if_pos h, if_pos (show (s.withFlight keys).memory.find? key = some e from h)]
  · rw [if_neg h, if_neg (show ¬ (s.withFlight keys).memory.find? key = some e from h)]
    cases hd : s.directory with
    | none => simp only [withFlight, remember, hd]
    | some directory =>
      have hpersist := persist_withFlight (s.remember key e) keys directory key e
      simp only [withFlight, remember, hd] at hpersist ⊢
      exact hpersist

theorem store_claim (s : Store) (other key : String) (e : Entry) :
    (s.claim other).store key e = ((s.store key e).1, (s.store key e).2.claim other) := by
  have hclaim : s.claim other = s.withFlight (other :: s.inFlight) := rfl
  rw [hclaim, store_withFlight, claim, inFlight_store]
  rfl

/-- A request for a key that is not in flight. -/
theorem getOrCompute_of_free {ε : Type} (hfree : key ∉ s.inFlight) (result : Except ε Entry) :
    s.getOrCompute key (fun store => (result, store)) =
      match s.lookup key with
      | (.error e, s') => (.error (.tooDeep e), s')
      | (.ok (some e), s') => (.ok ⟨e, false⟩, s')
      | (.ok none, s') =>
        match result with
        | .error e => (.error (.failed e), s')
        | .ok e =>
          match s'.store key e with
          | (some failure, s'') => (.error (.unstored failure), s''.claim key)
          | (none, s'') => (.ok ⟨e, true⟩, s'') := by
  have hflight : key ∉ (s.lookup key).2.inFlight := by rwa [inFlight_lookup]
  unfold getOrCompute
  generalize s.lookup key = looked at hflight ⊢
  obtain ⟨answer, s'⟩ := looked
  cases answer with
  | error e => rfl
  | ok found =>
    cases found with
    | some e => rfl
    | none =>
      have hclear : s'.inFlight.contains key = false := by simpa using hflight
      simp only [hclear]
      cases result with
      | error e => simp
      | ok e =>
        simp only [store_claim]
        generalize s'.store key e = stored
        obtain ⟨failure, s''⟩ := stored
        cases failure <;> simp

@[simp] theorem directory_warn (s : Store) (w : Warning) : (s.warn w).directory = s.directory := rfl

@[simp] theorem disk_warn (s : Store) (w : Warning) : (s.warn w).disk = s.disk := rfl

/-- A lookup changes the memory and the warnings only. -/
theorem lookup_spares (s : Store) (key : String) :
    (s.lookup key).2.directory = s.directory ∧ (s.lookup key).2.disk = s.disk ∧
      (s.lookup key).2.memory.limit = s.memory.limit := by
  unfold lookup
  split
  · exact ⟨rfl, rfl, Memory.limit_touch s.memory key⟩
  · split
    · exact ⟨rfl, rfl, rfl⟩
    · exact ⟨rfl, rfl, rfl⟩
    · exact ⟨rfl, rfl, rfl⟩
    · exact ⟨rfl, rfl, rfl⟩

section

variable {found : Except Json.TooDeep (Option Entry)} {e : Entry} {failure : Option StoreError}
  {s' : Store}

theorem directory_of_lookup (look : s.lookup key = (found, s')) : s'.directory = s.directory := by
  rw [← (lookup_spares s key).1, look]

theorem inFlight_of_lookup (look : s.lookup key = (found, s')) : s'.inFlight = s.inFlight := by
  rw [← inFlight_lookup s key, look]

theorem inFlight_of_store (kept : s.store key e = (failure, s')) : s'.inFlight = s.inFlight := by
  rw [← inFlight_store s key e, kept]

end

/-- What is persisted depends on the directory and the disk. -/
theorem persisted_congr {s s' : Store} (hdirectory : s'.directory = s.directory)
    (hdisk : s'.disk = s.disk) (key : String) : s'.persisted key = s.persisted key := by
  rw [persisted, persisted, hdirectory, hdisk]

/-- A lookup leaves what is persisted as it is. -/
@[simp] theorem persisted_lookup (s : Store) (key other : String) :
    (s.lookup key).2.persisted other = s.persisted other :=
  persisted_congr (lookup_spares s key).1 (lookup_spares s key).2.1 other

/-- A lookup fails only on a document that is too deep. -/
theorem persisted_of_lookup_eq_error {e : Json.TooDeep} {s' : Store}
    (h : s.lookup key = (.error e, s')) : s.persisted key = some (.tooDeep e) ∧ s' = s := by
  unfold lookup at h
  split at h
  · simp at h
  · split at h
    · simp at h
    · simp at h
    · simp at h
    · rename_i hp
      simp only [Prod.mk.injEq, Except.error.injEq] at h
      obtain ⟨rfl, rfl⟩ := h
      exact ⟨hp, rfl⟩

/-- A lookup of one key brings no other into memory. -/
theorem find?_lookup_eq_none (hne : other ≠ key) (h : s.memory.find? other = none) :
    (s.lookup key).2.memory.find? other = none := by
  unfold lookup
  split
  · rwa [Memory.find?_touch]
  · split
    · exact h
    · exact h
    · exact Memory.find?_insert_eq_none hne h
    · exact h

/-- A key that is only on disk, in a document that is too deep, fails the lookup. -/
theorem lookup_of_tooDeep {e : Json.TooDeep} (hmemory : s.memory.find? key = none)
    (hpersisted : s.persisted key = some (.tooDeep e)) : s.lookup key = (.error e, s) := by
  unfold lookup
  rw [hmemory, hpersisted]

/-- A store that is opened again, with an empty memory, on the directory and the disk of another.
Where the limit is refused, the other one stays. -/
def reopen (s : Store) (limit : Option Int) : Store :=
  match Store.new s.directory limit s.disk with
  | .ok s' => s'
  | .error _ => s

/-- A store that is opened holds nothing in memory, and nothing is in flight in it. -/
theorem new_eq_ok {directory : Option Disk.Place} {limit : Option Int} {disk : Disk.Tree}
    (h : Store.new directory limit disk = .ok s) :
    s.memory.entries = [] ∧ s.directory = directory ∧ s.disk = disk ∧ s.inFlight = [] := by
  unfold Store.new at h
  split at h
  · exact Except.ok.inj h ▸ ⟨rfl, rfl, rfl, rfl⟩
  · split at h
    · exact absurd h (by simp)
    · exact Except.ok.inj h ▸ ⟨rfl, rfl, rfl, rfl⟩

/-- Nothing is in memory after everything was taken out. -/
@[simp] theorem find?_clear (s : Store) (key : String) : s.clear.2.memory.find? key = none := by
  unfold clear
  simp only
  split
  · exact Memory.find?_clear ..
  · split <;> exact Memory.find?_clear ..

/-- Taking everything out leaves the keys in flight alone. -/
@[simp] theorem inFlight_clear (s : Store) : s.clear.2.inFlight = s.inFlight := by
  unfold clear
  simp only
  split
  · rfl
  · split <;> rfl

/-- Nothing comes in flight when a store is opened again. -/
theorem mem_inFlight_of_reopen {limit : Option Int} (h : key ∈ (s.reopen limit).inFlight) :
    key ∈ s.inFlight := by
  unfold reopen at h
  split at h
  · rename_i hnew
    rw [(new_eq_ok hnew).2.2.2] at h
    exact absurd h List.not_mem_nil
  · exact h

theorem directory_reopen (s : Store) (limit : Option Int) :
    (s.reopen limit).directory = s.directory := by
  unfold reopen
  split
  · rename_i hnew
    exact (new_eq_ok hnew).2.1
  · rfl

/-- Nothing comes into memory when a store is opened again. -/
theorem find?_of_reopen {limit : Option Int} (h : (s.reopen limit).memory.find? key = some e) :
    s.memory.find? key = some e := by
  unfold reopen at h
  split at h
  · rename_i hnew
    simp [Memory.find?, (new_eq_ok hnew).1] at h
  · exact h

end SheetBuild.Cache.Store
