import SheetBuild.Entry
set_option autoImplicit false

/-!
# Entries in memory

The entries that a cache keeps in memory, each key once, the least recently used first.  A limit
bounds their number: an entry that comes in may push out the ones that were used longest ago.
-/

namespace SheetBuild.Cache

/-- A bound on the number of entries in memory. -/
structure Limit where
  size : Nat
  size_pos : 0 < size
  deriving DecidableEq, Repr

/-- The limit that a number gives. -/
def Limit.ofInt? (i : Int) : Option Limit :=
  if h : 0 < i.toNat then some ⟨i.toNat, h⟩ else none

/-- Entries by their keys, the least recently used first. -/
structure Memory where
  limit : Option Limit := none
  entries : List (String × Entry) := []
  deriving DecidableEq, Repr

namespace Memory

/-- The entry under a key. -/
def find? (m : Memory) (key : String) : Option Entry := m.entries.lookup key

/-- The keys, the least recently used first. -/
def keys (m : Memory) : List String := m.entries.map (·.1)

/-- The number of entries. -/
def size (m : Memory) : Nat := m.entries.length

/-- The entries of the other keys. -/
def without (m : Memory) (key : String) : List (String × Entry) := m.entries.filter (·.1 ≠ key)

/-- The most recently used entries, as many as the limit allows. -/
def evict (limit : Option Limit) (entries : List (String × Entry)) : List (String × Entry) :=
  match limit with
  | none => entries
  | some l => entries.drop (entries.length - l.size)

/-- Puts an entry under a key as the most recently used one. -/
def insert (m : Memory) (key : String) (e : Entry) : Memory :=
  { m with entries := evict m.limit (m.without key ++ [(key, e)]) }

/-- Makes the entry under a key the most recently used one. -/
def touch (m : Memory) (key : String) : Memory :=
  match m.find? key with
  | none => m
  | some e => { m with entries := m.without key ++ [(key, e)] }

/-- Takes all entries out. -/
def clear (m : Memory) : Memory := { m with entries := [] }

/-- What has just been put is kept, whatever the limit is. -/
theorem exists_evict_append (limit : Option Limit) (entries : List (String × Entry))
    (last : String × Entry) :
    ∃ rest, evict limit (entries ++ [last]) = rest ++ [last] := by
  cases limit with
  | none => exact ⟨entries, rfl⟩
  | some l =>
    have hl := l.size_pos
    refine ⟨entries.drop (entries.length + 1 - l.size), ?_⟩
    simp only [evict, List.length_append, List.length_singleton]
    exact List.drop_append_of_le_length (by omega)

@[simp] theorem find?_clear (m : Memory) (key : String) : m.clear.find? key = none := rfl

end Memory

end SheetBuild.Cache
