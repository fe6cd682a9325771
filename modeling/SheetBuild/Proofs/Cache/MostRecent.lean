import Mathlib.Data.List.Nodup
import SheetBuild.Proofs.Cache.Series
set_option autoImplicit false

/-!
# The most recently used entries

A store without a directory and with a limit on its memory holds the entries whose keys were used last,
as many as the limit allows.  What has been used is told without the store, by a log of the uses since
everything was last taken out (`Usage`), from which nothing is ever dropped: an entry that is found is
used, and so is one that comes in, unless it is held already.  The memory is at any time the front of
the keys of the log, each once and the one used last first (`holds_most_recent`).
-/

namespace SheetBuild.Cache

variable {ε : Type}

/-! ## Lists -/

section Lists

variable {α : Type} [BEq α] [LawfulBEq α]

/-- The first of each of the kept items are the kept ones among the first of each item. -/
theorem eraseDups_filter (keep : α → Bool) :
    ∀ xs : List α, (xs.filter keep).eraseDups = xs.eraseDups.filter keep
  | [] => rfl
  | x :: xs => by
    have hlength : (xs.filter fun y => !y == x).length ≤ xs.length := List.length_filter_le _ _
    have hrest := eraseDups_filter keep (xs.filter fun y => !y == x)
    rw [List.filter_filter] at hrest
    rw [List.eraseDups_cons]
    cases hx : keep x with
    | true =>
      rw [List.filter_cons_of_pos hx, List.filter_cons_of_pos hx, List.eraseDups_cons,
        List.filter_filter, ← hrest]
      simp only [Bool.and_comm]
    | false =>
      have hsame : xs.filter (fun y => keep y && !y == x) = xs.filter keep := by
        refine List.filter_congr fun y _ => ?_
        by_cases hy : y = x
        · subst hy
          simp [hx]
        · simp [hy]
      rw [List.filter_cons_of_neg (by simp [hx]), List.filter_cons_of_neg (by simp [hx]), ← hrest,
        hsame]
termination_by xs => xs.length
decreasing_by simp only [List.length_cons]; omega

/-- The first of each item: the head, and the first of each other one. -/
theorem eraseDups_cons_eq (x : α) (xs : List α) :
    (x :: xs).eraseDups = x :: xs.eraseDups.filter fun y => !y == x := by
  rw [List.eraseDups_cons, eraseDups_filter]

theorem nodup_eraseDups (xs : List α) : xs.eraseDups.Nodup := by
  induction xs with
  | nil => exact List.nodup_nil
  | cons x xs ih =>
    rw [eraseDups_cons_eq]
    exact List.nodup_cons.2 ⟨by simp, ih.filter _⟩

/-- Taking an item out of the front of a list, instead of the list, is not seen in a front that is
shorter by one. -/
theorem take_filter_take (x : α) {xs : List α} (h : xs.Nodup) (n : Nat) :
    ((xs.take (n + 1)).filter fun y => !y == x).take n = (xs.filter fun y => !y == x).take n := by
  induction xs generalizing n with
  | nil => rfl
  | cons y xs ih =>
    obtain ⟨hy, hxs⟩ := List.nodup_cons.1 h
    rw [List.take_succ_cons]
    by_cases heq : y = x
    · -- the item stands first, and nowhere else, so both sides are the front of what is behind it
      subst heq
      have hout : ∀ zs : List α, (∀ z ∈ zs, z ∈ xs) → zs.filter (fun z => !z == y) = zs := by
        intro zs hzs
        refine List.filter_eq_self.2 fun z hz => ?_
        have hne : z ≠ y := fun heq => hy (heq ▸ hzs z hz)
        simp [hne]
      rw [List.filter_cons_of_neg (by simp), List.filter_cons_of_neg (by simp),
        hout _ fun z hz => List.mem_of_mem_take hz, hout _ fun z hz => hz, List.take_take,
        Nat.min_self]
    · rw [List.filter_cons_of_pos (by simp [heq]), List.filter_cons_of_pos (by simp [heq])]
      cases n with
      | zero => rfl
      | succ n => rw [List.take_succ_cons, List.take_succ_cons, ih hxs]

/-- Using an item of the front of a list of different items, or one that is not in it, makes the same
front as using it in the list. -/
theorem take_cons_filter_take (x : α) {xs : List α} (h : xs.Nodup) (n : Nat) :
    (x :: (xs.take n).filter fun y => !y == x).take n
      = (x :: xs.filter fun y => !y == x).take n := by
  cases n with
  | zero => rfl
  | succ n => rw [List.take_succ_cons, List.take_succ_cons, take_filter_take x h]

end Lists

/-! ## Uses -/

/-- A use of a key. -/
inductive Use where
  /-- an entry comes in under the key -/
  | stored (key : String) (e : Entry)
  /-- the entry under the key is found -/
  | found (key : String)
  deriving DecidableEq, Repr

namespace Use

/-- The key that is used. -/
def key : Use → String
  | .stored k _ => k
  | .found k => k

/-- The entry that comes in under a key. -/
def storedUnder? (key : String) : Use → Option Entry
  | .stored k e => if k = key then some e else none
  | .found _ => none

end Use

/-- The uses since everything was last taken out, the latest first. -/
structure Usage where
  uses : List Use := []

namespace Usage

/-- The keys that were used, each once, the one used last first. -/
def keys (u : Usage) : List String := (u.uses.map (·.key)).eraseDups

/-- The entry that came in last under a key. -/
def stored? (u : Usage) (key : String) : Option Entry := u.uses.findSome? (·.storedUnder? key)

/-- The entry under a key that is among a number of those used last. -/
def held? (n : Nat) (u : Usage) (key : String) : Option Entry :=
  if key ∈ u.keys.take n then u.stored? key else none

/-- Notes a use. -/
def add (u : Usage) (x : Use) : Usage := ⟨x :: u.uses⟩

/-- The log after a lookup: a key that is held is used. -/
def look (n : Nat) (u : Usage) (key : String) : Usage :=
  if (u.held? n key).isSome then u.add (.found key) else u

/-- The log after an entry has been stored: it is used unless it is held under its key already. -/
def put (n : Nat) (u : Usage) (key : String) (e : Entry) : Usage :=
  if u.held? n key = some e then u else u.add (.stored key e)

/-- The log after a request, where a number of keys can be held. -/
def after (n : Nat) (u : Usage) : Request ε → Usage
  | .store key e => u.put n key e
  | .lookup key => u.look n key
  | .getOrCompute key result =>
    match u.held? n key, result with
    | some _, _ => u.add (.found key)
    | none, .ok e => u.add (.stored key e)
    | none, .error _ => u
  | .clear => {}

variable {u : Usage} {key other : String} {e : Entry}

theorem nodup_keys (u : Usage) : u.keys.Nodup := nodup_eraseDups _

theorem keys_add (u : Usage) (x : Use) :
    (u.add x).keys = x.key :: u.keys.filter fun k => !k == x.key :=
  eraseDups_cons_eq ..

theorem stored?_add_stored (u : Usage) (key other : String) (e : Entry) :
    (u.add (.stored key e)).stored? other = if key = other then some e else u.stored? other := by
  by_cases h : key = other <;> simp [stored?, add, Use.storedUnder?, h]

theorem stored?_add_found (u : Usage) (key other : String) :
    (u.add (.found key)).stored? other = u.stored? other := by
  simp [stored?, add, Use.storedUnder?]

/-- An entry came in under a key exactly when there is a last one. -/
theorem isSome_stored? : (u.stored? key).isSome ↔ ∃ e, Use.stored key e ∈ u.uses := by
  unfold stored?
  rw [List.isSome_findSome?, List.any_eq_true]
  constructor
  · rintro ⟨x, hx, hsome⟩
    cases x with
    | found k => exact absurd hsome (by simp [Use.storedUnder?])
    | stored k e =>
      by_cases hk : k = key
      · exact ⟨e, hk ▸ hx⟩
      · exact absurd hsome (by simp [Use.storedUnder?, hk])
  · rintro ⟨e, he⟩
    exact ⟨_, he, by simp [Use.storedUnder?]⟩

/-- Every key that was used has an entry that came in under it. -/
def Sound (u : Usage) : Prop := ∀ key ∈ u.keys, (u.stored? key).isSome

theorem sound_empty : Sound {} := by simp [Sound, keys]

theorem Sound.stored (h : u.Sound) (key : String) (e : Entry) : (u.add (.stored key e)).Sound := by
  intro other hother
  rw [stored?_add_stored]
  rw [keys_add, List.mem_cons] at hother
  split
  · rfl
  · rename_i hne
    rcases hother with heq | hother
    · exact absurd heq.symm hne
    · exact h other (List.mem_of_mem_filter hother)

theorem Sound.found (h : u.Sound) (hkey : (u.stored? key).isSome) : (u.add (.found key)).Sound := by
  intro other hother
  rw [stored?_add_found]
  rw [keys_add, List.mem_cons] at hother
  rcases hother with rfl | hother
  · exact hkey
  · exact h other (List.mem_of_mem_filter hother)

/-- What is held came in. -/
theorem stored?_of_held? {n : Nat} (h : u.held? n key = some e) : u.stored? key = some e := by
  unfold held? at h
  split at h
  · exact h
  · exact absurd h (by simp)

/-- Only a key that has an entry is used by being found. -/
theorem Sound.after (h : u.Sound) (n : Nat) (r : Request ε) : (u.after n r).Sound := by
  cases r with
  | store key e =>
    rw [Usage.after, put]
    split
    · exact h
    · exact h.stored key e
  | lookup key =>
    rw [Usage.after, look]
    split
    · rename_i hheld
      obtain ⟨e, he⟩ := Option.isSome_iff_exists.1 hheld
      exact h.found (Option.isSome_iff_exists.2 ⟨e, stored?_of_held? he⟩)
    · exact h
  | getOrCompute key result =>
    simp only [Usage.after]
    split
    · rename_i e hheld
      exact h.found (Option.isSome_iff_exists.2 ⟨e, stored?_of_held? hheld⟩)
    · exact h.stored key _
    · exact h
  | clear => exact sound_empty

/-- The keys that were used are those that an entry came in under. -/
theorem Sound.mem_keys_iff (h : u.Sound) : key ∈ u.keys ↔ ∃ e, Use.stored key e ∈ u.uses := by
  constructor
  · exact fun hkey => isSome_stored?.1 (h key hkey)
  · rintro ⟨e, he⟩
    exact List.mem_eraseDups.2 (List.mem_map_of_mem he)

end Usage

/-! ## Memories -/

namespace Memory

variable {m : Memory} {l : Limit} {key : String} {e : Entry}

theorem mem_keys_of_mem {x : String × Entry} (h : x ∈ m.entries) : x.1 ∈ m.keys :=
  List.mem_map_of_mem h

theorem keys_without (m : Memory) (key : String) :
    (m.without key).map (·.1) = m.keys.filter fun k => !k == key := by
  rw [keys, List.filter_map, without]
  congr 1
  refine List.filter_congr fun x _ => ?_
  by_cases h : x.1 = key <;> simp [h]

/-- The keys of a memory with a limit after an entry has come in, the most recently used first. -/
theorem reverse_keys_insert (h : m.limit = some l) (key : String) (e : Entry) :
    (m.insert key e).keys.reverse
      = (key :: m.keys.reverse.filter fun k => !k == key).take l.size := by
  have hentries : (m.insert key e).keys
      = ((m.keys.filter fun k => !k == key) ++ [key]).drop
        (((m.keys.filter fun k => !k == key) ++ [key]).length - l.size) := by
    rw [← keys_without]
    simp only [keys, insert, h, evict, List.map_drop, List.map_append, List.map_cons, List.map_nil,
      List.length_append, List.length_map, List.length_singleton]
  rw [hentries, List.reverse_drop, List.reverse_append, List.reverse_singleton,
    List.singleton_append, List.filter_reverse]
  exact List.take_eq_take_iff.2 (by simp; omega)

/-- The keys of a memory after one of them has been used, the most recently used first. -/
theorem reverse_keys_touch (h : m.find? key = some e) :
    (m.touch key).keys.reverse = key :: m.keys.reverse.filter fun k => !k == key := by
  have hentries : (m.touch key).keys = (m.keys.filter fun k => !k == key) ++ [key] := by
    rw [← keys_without]
    simp only [touch, h, keys, List.map_append, List.map_cons, List.map_nil]
  rw [hentries, List.reverse_append, List.reverse_singleton, List.singleton_append,
    List.filter_reverse]

end Memory

/-! ## Memories and uses -/

namespace Store

variable {s : Store} {l : Limit} {u : Usage} {key : String} {e : Entry}

/-- A store at rest without a directory holds the entries used last. -/
structure Reflects (l : Limit) (u : Usage) (s : Store) : Prop where
  idle : s.inFlight = []
  memoryOnly : s.directory = none
  limit : s.memory.limit = some l
  keys : s.memory.keys.reverse = u.keys.take l.size
  entries : ∀ x ∈ s.memory.entries, u.stored? x.1 = some x.2

namespace Reflects

theorem find? (h : Reflects l u s) (key : String) : s.memory.find? key = u.held? l.size key := by
  have hkeys : key ∈ s.memory.keys ↔ key ∈ u.keys.take l.size := by
    rw [← h.keys, List.mem_reverse]
  unfold Usage.held?
  cases hfind : s.memory.find? key with
  | some e =>
    have hmem := Memory.mem_of_find? hfind
    rw [if_pos (hkeys.1 (Memory.mem_keys_of_mem hmem)), h.entries _ hmem]
  | none =>
    rw [if_neg]
    intro hin
    obtain ⟨x, hx, hkey⟩ := List.mem_map.1 (hkeys.2 hin)
    exact Memory.find?_eq_none_iff.1 hfind x hx hkey.symm

/-- The entry under a key is found. -/
theorem touch (h : Reflects l u s) (hfind : s.memory.find? key = some e) :
    Reflects l (u.add (.found key)) { s with memory := s.memory.touch key } where
  idle := h.idle
  memoryOnly := h.memoryOnly
  limit := by rw [Memory.limit_touch, h.limit]
  keys := by
    have hin : key ∈ u.keys.take l.size := by
      rw [← h.keys, List.mem_reverse]
      exact Memory.mem_keys_of_mem (Memory.mem_of_find? hfind)
    -- the key is held, so nothing is pushed out when it moves to the front
    have hless : ((u.keys.take l.size).filter fun k => !k == key).length
        < (u.keys.take l.size).length :=
      List.length_filter_lt_length_iff_exists.2 ⟨key, hin, by simp⟩
    have hfits : (key :: (u.keys.take l.size).filter fun k => !k == key).length ≤ l.size := by
      rw [List.length_cons]
      exact Nat.le_trans hless (List.length_take_le ..)
    rw [Memory.reverse_keys_touch hfind, h.keys, Usage.keys_add, Use.key,
      ← take_cons_filter_take key u.nodup_keys, List.take_of_length_le hfits]
  entries x hx := by
    rw [Usage.stored?_add_found]
    exact h.entries x (Memory.mem_entries_touch hx)

/-- An entry comes in. -/
theorem remember (h : Reflects l u s) (key : String) (e : Entry) :
    Reflects l (u.add (.stored key e)) (s.remember key e) where
  idle := h.idle
  memoryOnly := h.memoryOnly
  limit := h.limit
  keys := by
    rw [Store.remember, Memory.reverse_keys_insert h.limit, h.keys, Usage.keys_add, Use.key,
      take_cons_filter_take key u.nodup_keys]
  entries x hx := by
    rw [Usage.stored?_add_stored]
    rcases Memory.mem_entries_insert hx with rfl | ⟨hx, hne⟩
    · exact if_pos rfl
    · rw [if_neg fun heq => hne heq.symm]
      exact h.entries x hx

/-- Without a directory, every entry can be stored. -/
theorem store (h : Reflects l u s) (key : String) (e : Entry) :
    ∃ s', s.store key e = (none, s') ∧ Reflects l (u.put l.size key e) s' := by
  rw [Store.store, Usage.put, h.find?]
  split
  · exact ⟨s, rfl, h⟩
  · have hdirectory : (s.remember key e).directory = none := h.memoryOnly
    simp only [hdirectory]
    exact ⟨_, rfl, h.remember key e⟩

theorem clear (h : Reflects l u s) : Reflects l {} s.clear.2 := by
  have hclear : s.clear.2 = { s with memory := s.memory.clear } := by
    simp only [Store.clear, h.memoryOnly]
  rw [hclear]
  exact ⟨h.idle, h.memoryOnly, h.limit, by simp [Memory.keys, Memory.clear, Usage.keys],
    fun x hx => absurd hx List.not_mem_nil⟩

/-- A lookup finds what is held, and uses its key. -/
theorem lookup (h : Reflects l u s) (key : String) :
    ∃ s', s.lookup key = (.ok (u.held? l.size key), s') ∧
      Reflects l (u.look l.size key) s' := by
  have hfind := h.find? key
  unfold Store.lookup
  rw [Usage.look]
  cases hheld : u.held? l.size key with
  | some e =>
    rw [hheld] at hfind
    rw [hfind]
    exact ⟨_, rfl, h.touch hfind⟩
  | none =>
    rw [hheld] at hfind
    rw [hfind, Store.persisted, h.memoryOnly]
    exact ⟨s, rfl, h⟩

/-- A request for an entry comes to the entry that is held, or else to what the computation comes to. -/
theorem getOrCompute (h : Reflects l u s) (key : String) (result : Except ε Entry) :
    ∃ s', s.getOrCompute key (fun s => (result, s))
        = (answerOf (u.held? l.size key) result none, s') ∧
      Reflects l (u.after l.size (.getOrCompute key result)) s' := by
  have hfree : key ∉ s.inFlight := by simp [h.idle]
  obtain ⟨s₁, hlookup, hs₁⟩ := h.lookup key
  rw [getOrCompute_of_lookup hfree hlookup]
  cases hheld : u.held? l.size key with
  | some e =>
    simp only [Usage.after, Usage.look, hheld, Option.isSome_some, if_true] at hs₁ ⊢
    exact ⟨s₁, rfl, hs₁⟩
  | none =>
    simp only [Usage.after, Usage.look, hheld, Option.isSome_none, Bool.false_eq_true, if_false]
      at hs₁ ⊢
    cases result with
    | error f => exact ⟨s₁, rfl, hs₁⟩
    | ok e =>
      obtain ⟨s₂, hstore, hs₂⟩ := hs₁.store key e
      rw [Usage.put, if_neg (by simp [hheld])] at hs₂
      exact ⟨s₂, by simp only [keep, hstore], hs₂⟩

/-- Every request leaves the entries used last. -/
theorem after (h : Reflects l u s) (r : Request ε) : Reflects l (u.after l.size r) (s.after r) := by
  cases r with
  | store key e =>
    obtain ⟨s', hstore, hs'⟩ := h.store key e
    rw [Store.after, hstore]
    exact hs'
  | lookup key =>
    obtain ⟨s', hlookup, hs'⟩ := h.lookup key
    rw [Store.after, hlookup]
    exact hs'
  | getOrCompute key result =>
    obtain ⟨s', hrequest, hs'⟩ := h.getOrCompute key result
    rw [Store.after, hrequest]
    exact hs'
  | clear => exact h.clear

/-- After every series of requests, the entries used last are held. -/
theorem series (h : Reflects l u s) (requests : List (Request ε)) :
    Reflects l (requests.foldl (Usage.after l.size) u) (requests.foldl Store.after s) := by
  induction requests generalizing u s with
  | nil => exact h
  | cons r rest ih => exact ih (h.after r)

end Reflects

end Store

/-- The log after every series of requests is sound. -/
theorem Usage.Sound.series {u : Usage} (h : u.Sound) (n : Nat) (requests : List (Request ε)) :
    (requests.foldl (Usage.after n) u).Sound := by
  induction requests generalizing u with
  | nil => exact h
  | cons r rest ih => exact ih (h.after n r)

/-! ## Stores with a limit -/

/-- A store holds the entries whose keys were used last, and answers with them. -/
structure MostRecent (n : Nat) (u : Usage) (s : Store) : Prop where
  /-- the keys in memory, the one used last first -/
  keys : s.memory.keys.reverse = u.keys.take n
  /-- each key is held once -/
  nodup : s.memory.keys.Nodup
  /-- as many entries are held as the limit allows, or else one for each key that was used -/
  size : s.memory.size = min n u.keys.length
  /-- the keys that were used are those that an entry came in under -/
  stored : ∀ key, key ∈ u.keys ↔ ∃ e, Use.stored key e ∈ u.uses
  /-- each key is held with the entry that came in last under it -/
  entries : ∀ key, s.memory.find? key = u.held? n key
  /-- a lookup finds what is held, and nothing else -/
  lookup : ∀ key, (s.lookup key).1 = .ok (u.held? n key)
  /-- so does a request for an entry, which is computed where it is not held -/
  answer : ∀ {ε : Type} key (result : Except ε Entry),
    s.answer key result = Store.answerOf (u.held? n key) result none

theorem Store.Reflects.mostRecent {l : Limit} {u : Usage} {s : Store} (h : Store.Reflects l u s)
    (hsound : u.Sound) : MostRecent l.size u s where
  keys := h.keys
  nodup := by
    rw [← List.nodup_reverse, h.keys]
    exact u.nodup_keys.sublist (List.take_sublist ..)
  size := by
    have hlength := congrArg List.length h.keys
    rw [List.length_reverse, List.length_take, Memory.keys, List.length_map] at hlength
    exact hlength
  stored key := hsound.mem_keys_iff
  entries := h.find?
  lookup key := by
    obtain ⟨s', hlookup, -⟩ := h.lookup key
    rw [hlookup]
  answer {ε} key result := by
    obtain ⟨s', hrequest, -⟩ := h.getOrCompute key result
    rw [Store.answer, hrequest]

/-- A store without a directory whose memory is limited holds, after every series of requests, exactly
the entries whose keys were used last, never more than its limit.  A use is a lookup of a key that is
held, or an entry that comes in and is not the one held under its key. -/
theorem holds_most_recent {n : Int} (hn : 1 ≤ n) (disk : Disk.Tree) (requests : List (Request ε)) :
    ∃ s, Store.new none (some n) disk = .ok s ∧
      MostRecent n.toNat (requests.foldl (Usage.after n.toNat) {}) (requests.foldl Store.after s) := by
  have hsize : 0 < n.toNat := by omega
  have hnew : Store.Reflects ⟨n.toNat, hsize⟩ {}
      { memory := { limit := some ⟨n.toNat, hsize⟩ }, directory := none, disk } :=
    ⟨rfl, rfl, rfl, by simp [Memory.keys, Usage.keys], fun x hx => absurd hx List.not_mem_nil⟩
  refine ⟨_, ?_, (hnew.series requests).mostRecent (Usage.sound_empty.series _ requests)⟩
  simp only [Store.new, Limit.ofInt?, hsize, dite_true]

/-- Three keys in a memory of two.  Storing the second entry again is no use of its key, so it has to
make room for the third. -/
def threeSheets : List (Request String) :=
  [.store "a" (sheet "1"), .store "b" (sheet "2"), .lookup "a", .store "b" (sheet "2"),
    .getOrCompute "c" (.ok (sheet "3"))]

/-- The first and the third sheet are held in the end, and the second is not. -/
theorem threeSheets_held :
    ∃ s, Store.new none (some 2) {} = .ok s ∧
      (threeSheets.foldl Store.after s).memory.keys = ["a", "c"] ∧
      ((threeSheets.foldl Store.after s).lookup "b").1 = .ok none := by
  obtain ⟨s, hnew, held⟩ := holds_most_recent (n := 2) (by decide) {} threeSheets
  refine ⟨s, hnew, ?_, ?_⟩
  · have hkeys := congrArg List.reverse held.keys
    rw [List.reverse_reverse] at hkeys
    rw [hkeys]
    decide +kernel
  · rw [held.lookup]
    decide +kernel

end SheetBuild.Cache
