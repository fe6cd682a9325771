import Mathlib.Data.List.Nodup
import SheetBuild.Cache.Memory
set_option autoImplicit false

/-!
# What using an entry changes

An entry that is used moves to the end of the memory and is found as before (`find?_touch`).  An entry
that comes in is found from then on, and where there is no limit so are all others (`find?_insert`).
With a limit others may go, but none comes in with it (`mem_entries_insert`).
-/

namespace SheetBuild.Cache.Memory

variable {m : Memory} {key other : String} {e : Entry}

theorem mem_of_find? (h : m.find? key = some e) : (key, e) ∈ m.entries := by
  obtain ⟨front, back, heq, -⟩ := List.lookup_eq_some_iff.1 h
  rw [heq]
  exact List.mem_append_right _ List.mem_cons_self

theorem find?_eq_none_iff : m.find? key = none ↔ ∀ x ∈ m.entries, key ≠ x.1 := by
  simp [find?, List.lookup_eq_none_iff]

theorem mem_without {x : String × Entry} : x ∈ m.without key ↔ x ∈ m.entries ∧ x.1 ≠ key := by
  simp [without]

theorem mem_of_mem_evict {limit : Option Limit} {entries : List (String × Entry)}
    {x : String × Entry} (h : x ∈ evict limit entries) : x ∈ entries := by
  cases limit with
  | none => exact h
  | some l => exact List.mem_of_mem_drop h

/-- The entry that comes in is the only one that was not there. -/
theorem mem_entries_insert {x : String × Entry} (h : x ∈ (m.insert key e).entries) :
    x = (key, e) ∨ (x ∈ m.entries ∧ x.1 ≠ key) := by
  rcases List.mem_append.1 (mem_of_mem_evict h) with h | h
  · exact .inr (mem_without.1 h)
  · exact .inl (List.mem_singleton.1 h)

/-- Using an entry brings none in. -/
theorem mem_entries_touch {x : String × Entry} (h : x ∈ (m.touch key).entries) :
    x ∈ m.entries := by
  unfold touch at h
  cases hf : m.find? key with
  | none => rwa [hf] at h
  | some e =>
    rw [hf] at h
    rcases List.mem_append.1 h with h | h
    · exact (mem_without.1 h).1
    · exact List.mem_singleton.1 h ▸ mem_of_find? hf

/-- A key that is not there stays away when another one comes in. -/
theorem find?_insert_eq_none (hne : other ≠ key) (h : m.find? other = none) :
    (m.insert key e).find? other = none := by
  rw [find?_eq_none_iff] at h ⊢
  intro x hx
  rcases mem_entries_insert hx with rfl | ⟨hx, -⟩
  · exact hne
  · exact h x hx

theorem lookup_without (m : Memory) (key other : String) :
    (m.without key).lookup other = if other = key then none else m.find? other := by
  unfold without find?
  induction m.entries with
  | nil => simp
  | cons x entries ih =>
    obtain ⟨k, e⟩ := x
    by_cases hk : k = key
    · subst hk
      rw [List.filter_cons_of_neg (by simp), ih, List.lookup_cons]
      by_cases ho : other = k
      · rw [if_pos ho, if_pos ho]
      · rw [if_neg ho, if_neg ho, beq_false_of_ne ho]
    · rw [List.filter_cons_of_pos (by simpa using hk), List.lookup_cons, List.lookup_cons, ih]
      by_cases ho : other = k
      · subst ho
        simp [hk]
      · rw [beq_false_of_ne ho]

/-- The entries of the other keys with one entry behind them. -/
theorem lookup_without_append (m : Memory) (key other : String) (e : Entry) :
    (m.without key ++ [(key, e)]).lookup other = if other = key then some e else m.find? other := by
  rw [List.lookup_append, lookup_without]
  by_cases ho : other = key
  · subst ho
    simp
  · rw [if_neg ho, if_neg ho, List.lookup_cons, beq_false_of_ne ho]
    simp

/-- Using an entry does not change what is found. -/
@[simp] theorem find?_touch (m : Memory) (key other : String) :
    (m.touch key).find? other = m.find? other := by
  unfold touch
  cases hf : m.find? key with
  | none => rfl
  | some e =>
    refine (lookup_without_append m key other e).trans ?_
    split
    · rename_i ho
      rw [ho, hf]
    · rfl

@[simp] theorem limit_touch (m : Memory) (key : String) : (m.touch key).limit = m.limit := by
  unfold touch
  split <;> rfl

/-! ## Keys that stand once -/

theorem nodup_evict {limit : Option Limit} {entries : List (String × Entry)}
    (h : (entries.map (·.1)).Nodup) : ((evict limit entries).map (·.1)).Nodup := by
  cases limit with
  | none => exact h
  | some l =>
    rw [evict, List.map_drop]
    exact h.sublist (List.drop_sublist ..)

/-- The keys of the other entries with one behind them stand once, if the keys did. -/
theorem nodup_without_append (h : m.keys.Nodup) (key : String) (e : Entry) :
    ((m.without key ++ [(key, e)]).map (·.1)).Nodup := by
  rw [List.map_append, List.nodup_append]
  refine ⟨h.sublist (List.filter_sublist.map _), List.nodup_singleton _, ?_⟩
  intro k hk k' hk'
  obtain ⟨x, hx, rfl⟩ := List.mem_map.1 hk
  obtain rfl := List.mem_singleton.1 hk'
  exact (mem_without.1 hx).2

theorem nodup_insert (h : m.keys.Nodup) (key : String) (e : Entry) : (m.insert key e).keys.Nodup :=
  nodup_evict (nodup_without_append h key e)

theorem nodup_touch (h : m.keys.Nodup) (key : String) : (m.touch key).keys.Nodup := by
  unfold touch
  cases m.find? key with
  | none => exact h
  | some e => exact nodup_without_append h key e

/-- Where the keys stand once, an entry that is there is found. -/
theorem find?_of_mem (h : m.keys.Nodup) (hmem : (key, e) ∈ m.entries) : m.find? key = some e := by
  unfold keys at h
  unfold find?
  generalize m.entries = entries at h hmem
  induction entries with
  | nil => exact absurd hmem List.not_mem_nil
  | cons x entries ih =>
    obtain ⟨k, e'⟩ := x
    obtain ⟨hk, hrest⟩ := List.nodup_cons.1 h
    rcases List.mem_cons.1 hmem with heq | hmem
    · obtain ⟨rfl, rfl⟩ := Prod.mk.inj heq
      simp
    · have hne : key ≠ k := fun heq => hk (heq ▸ List.mem_map_of_mem (f := (·.1)) hmem)
      rw [List.lookup_cons, beq_false_of_ne hne]
      exact ih hrest hmem

/-- What is found after an entry came in is that entry, or was found before. -/
theorem find?_of_insert (h : m.keys.Nodup) {e' : Entry}
    (hfind : (m.insert key e).find? other = some e') :
    (other = key ∧ e' = e) ∨ (other ≠ key ∧ m.find? other = some e') := by
  rcases mem_entries_insert (mem_of_find? hfind) with heq | ⟨hmem, hne⟩
  · exact .inl (Prod.mk.inj heq)
  · exact .inr ⟨hne, find?_of_mem h hmem⟩

/-! ## Memories without a limit -/

/-- Without a limit, what comes in is added to what is found. -/
theorem find?_insert (hlimit : m.limit = none) (key other : String) (e : Entry) :
    (m.insert key e).find? other = if other = key then some e else m.find? other := by
  unfold insert
  rw [hlimit]
  exact lookup_without_append m key other e

/-- What comes in is found, whatever the limit is. -/
theorem find?_insert_self (m : Memory) (key : String) (e : Entry) :
    (m.insert key e).find? key = some e := by
  obtain ⟨rest, hrest⟩ := exists_evict_append m.limit (m.without key) (key, e)
  cases hfind : (m.insert key e).find? key with
  | none =>
    have hlast : (key, e) ∈ (m.insert key e).entries := by
      rw [insert, hrest]
      exact List.mem_append_right _ List.mem_cons_self
    exact absurd rfl (find?_eq_none_iff.1 hfind _ hlast)
  | some e' =>
    rcases mem_entries_insert (mem_of_find? hfind) with heq | ⟨-, hne⟩
    · rw [(Prod.mk.inj heq).2]
    · exact absurd rfl hne

end SheetBuild.Cache.Memory
