import SheetBuild.Proofs.Cache.Damage
set_option autoImplicit false

/-!
# What a store replies

Whether an entry is in memory or is read from its document once more does not show in what lookups
come to.  So two stores on one disk that reply alike stay alike, whatever is looked up and stored in
both (`SameReplies.store`).  A store without a limit takes no reply back (`extends_store`).  It may
come to reply more than what was stored, where the directories that are made for a document open the
way to one that was out of reach.
-/

namespace SheetBuild.Cache.Store

open SheetBuild.Disk (Place Tree)

variable {s s' s'' : Store} {d : Place} {key other : String} {e : Entry}

/-! ## Replies -/

/-- What a lookup comes to. -/
def reply (s : Store) (key : String) : Except Json.TooDeep (Option Entry) := (s.lookup key).1

/-- What a lookup comes to that finds nothing in memory. -/
def replyOf : Option Content → Except Json.TooDeep (Option Entry)
  | some (.entry e) => .ok (some e)
  | some (.tooDeep e) => .error e
  | some .unreadable => .ok none
  | none => .ok none

theorem reply_of_memory (h : s.memory.find? key = some e) : s.reply key = .ok (some e) := by
  rw [reply, lookup, h]

theorem reply_of_forgotten (h : s.memory.find? key = none) :
    s.reply key = replyOf (s.persisted key) := by
  rw [reply, lookup, h]
  simp only [replyOf]
  split <;> simp_all

theorem reply_congr (hfind : s'.memory.find? key = s.memory.find? key)
    (hpersisted : s'.persisted key = s.persisted key) : s'.reply key = s.reply key := by
  cases hm : s.memory.find? key with
  | some e => rw [reply_of_memory hm, reply_of_memory (hfind.trans hm)]
  | none => rw [reply_of_forgotten hm, reply_of_forgotten (hfind.trans hm), hpersisted]

theorem forgotten_of_reply (h : s.reply key = .ok none) : s.memory.find? key = none :=
  (lookup_eq_none_iff.1 h).1

/-- A store without a limit, in which whatever is in flight is in memory.  So no request that it gets has
to wait. -/
structure Unbounded (s : Store) : Prop where
  held : ∀ key ∈ s.inFlight, ∃ e, s.memory.find? key = some e
  unlimited : s.memory.limit = none

theorem Unbounded.of_idle (hidle : s.inFlight = []) (hlimit : s.memory.limit = none) : s.Unbounded :=
  ⟨fun _ hkey => absurd (hidle ▸ hkey) List.not_mem_nil, hlimit⟩

/-- Two stores on one disk that reply to all lookups alike.  What they have in memory may differ. -/
structure SameReplies (s s' : Store) : Prop where
  directory : s'.directory = s.directory
  disk : s'.disk = s.disk
  reply : ∀ key, s'.reply key = s.reply key

/-- What one store replies the other one replies as well; it may reply where the first one has
nothing. -/
def Extends (s s' : Store) : Prop := ∀ key, s.reply key ≠ .ok none → s'.reply key = s.reply key

theorem SameReplies.refl (s : Store) : SameReplies s s := ⟨rfl, rfl, fun _ => rfl⟩

theorem SameReplies.symm (h : SameReplies s s') : SameReplies s' s :=
  ⟨h.directory.symm, h.disk.symm, fun key => (h.reply key).symm⟩

theorem SameReplies.trans (h : SameReplies s s') (h' : SameReplies s' s'') : SameReplies s s'' :=
  ⟨h'.directory.trans h.directory, h'.disk.trans h.disk, fun key =>
    (h'.reply key).trans (h.reply key)⟩

theorem SameReplies.extendsTo (h : SameReplies s s') : Extends s s' := fun key _ => h.reply key

theorem Extends.refl (s : Store) : Extends s s := fun _ _ => rfl

theorem Extends.trans (h : Extends s s') (h' : Extends s' s'') : Extends s s'' := by
  intro key hkey
  have hfirst := h key hkey
  exact (h' key (hfirst ▸ hkey)).trans hfirst

/-! ## Lookups -/

/-- What is in memory after a lookup was there before, or is read from its document. -/
theorem find?_lookup (hs : s.Unbounded) (key other : String) :
    (s.lookup key).2.memory.find? other = s.memory.find? other ∨
      s.memory.find? other = none ∧ ∃ e, s.persisted other = some (.entry e) ∧
        (s.lookup key).2.memory.find? other = some e := by
  unfold Store.lookup
  split
  · exact .inl (Memory.find?_touch ..)
  · rename_i hforgotten
    split
    · exact .inl rfl
    · exact .inl rfl
    · rename_i e hp
      have hfind : (s.memory.insert key e).find? other
          = if other = key then some e else s.memory.find? other :=
        Memory.find?_insert hs.unlimited key other e
      by_cases hsame : other = key
      · subst hsame
        exact .inr ⟨hforgotten, e, hp, hfind.trans (if_pos rfl)⟩
      · exact .inl (hfind.trans (if_neg hsame))
    · exact .inl rfl

theorem Unbounded.lookup (hs : s.Unbounded) (key : String) : (s.lookup key).2.Unbounded := by
  refine ⟨fun other hother => ?_, (lookup_spares s key).2.2.trans hs.unlimited⟩
  obtain ⟨e, he⟩ := hs.held other (inFlight_lookup s key ▸ hother)
  rcases find?_lookup hs key other with hfind | ⟨hforgotten, -⟩
  · exact ⟨e, hfind.trans he⟩
  · exact absurd (he.symm.trans hforgotten) (by simp)

/-- A key without a reply is not in flight. -/
theorem Unbounded.free (hs : s.Unbounded) (h : s.memory.find? key = none) : key ∉ s.inFlight := by
  intro hflight
  obtain ⟨e, he⟩ := hs.held key hflight
  exact absurd (he.symm.trans h) (by simp)

/-- A lookup changes no reply. -/
theorem SameReplies.lookup (hs : s.Unbounded) (key : String) : SameReplies s (s.lookup key).2 := by
  obtain ⟨hdirectory, hdisk, -⟩ := lookup_spares s key
  refine ⟨hdirectory, hdisk, fun other => ?_⟩
  rcases find?_lookup hs key other with hfind | ⟨hforgotten, e, hp, hfind⟩
  · exact reply_congr hfind (persisted_lookup s key other)
  · rw [reply_of_memory hfind, reply_of_forgotten hforgotten, hp, replyOf]

/-- What a lookup comes to and leaves. -/
theorem Unbounded.of_lookup (hs : s.Unbounded) {found : Except Json.TooDeep (Option Entry)}
    (h : s.lookup key = (found, s')) : s.reply key = found ∧ s'.Unbounded ∧ SameReplies s s' := by
  have hs' := hs.lookup key
  have hsame := SameReplies.lookup hs key
  rw [h] at hs' hsame
  exact ⟨congrArg Prod.fst h, hs', hsame⟩

/-! ## Documents that are written -/

/-- What is written does not depend on what is in memory, nor does whether it can be written. -/
theorem persist_congr (h : s'.disk = s.disk) (d : Place) (key : String) (e : Entry) :
    (s'.persist d key e).1 = (s.persist d key e).1 ∧
      (s'.persist d key e).2.disk = (s.persist d key e).2.disk := by
  unfold persist
  rw [h]
  split
  · split
    · exact ⟨rfl, rfl⟩
    · exact ⟨rfl, rfl⟩
    · split
      · exact ⟨rfl, rfl⟩
      · split <;> exact ⟨rfl, rfl⟩
  · exact ⟨rfl, h⟩

/-- Persisting makes directories, and writes the document unless something is in the way. -/
theorem disk_persist_cases (s : Store) (d : Place) (key : String) (e : Entry) :
    ∃ t, s.disk.GrowsTo t ∧ ((s.persist d key e).2.disk = t ∨
      isDigest key = true ∧
        t.write (documentPlace d key) (contentOf e) = .ok (s.persist d key e).2.disk) := by
  have h := s.persists d key e
  generalize s.persist d key e = persisted at h
  cases h with
  | unnamed => exact ⟨s.disk, .refl _, .inl rfl⟩
  | unnameable _ made => exact ⟨_, Tree.growsTo_of_makeDirectories made, .inl rfl⟩
  | unmade _ made => exact ⟨_, Tree.growsTo_of_makeDirectories made, .inl rfl⟩
  | unwritten _ made => exact ⟨_, Tree.growsTo_of_makeDirectories made, .inl rfl⟩
  | blocked _ made => exact ⟨_, Tree.growsTo_of_makeDirectories made, .inl rfl⟩
  | written digest made _ write =>
    exact ⟨_, Tree.growsTo_of_makeDirectories made, .inr ⟨digest, write⟩⟩

/-- The other documents are those that were there. -/
theorem node?_persist (hne : other ≠ key) {content : Bytes} :
    (s.persist d key e).2.disk.node? (documentAt d other) = some (.file content)
      ↔ s.disk.node? (documentAt d other) = some (.file content) := by
  obtain ⟨t, hgrows, hdisk | ⟨hdigest, hwrite⟩⟩ := disk_persist_cases s d key e
  · rw [hdisk]
    exact hgrows.file_iff
  · rw [(Tree.exists_of_write hwrite).2, resolve_documentPlace hdigest,
      Tree.node?_put_of_ne _ _ fun heq => hne (documentAt_injective heq)]
    exact hgrows.file_iff

/-- A document that is found is found afterwards, if it is not the one that is written. -/
theorem find?_persist (hne : other ≠ key) (hother : isDigest other = true) {content : Bytes}
    (h : s.disk.find? (documentPlace d other) = some (.file content)) :
    (s.persist d key e).2.disk.find? (documentPlace d other) = some (.file content) := by
  have hnode := (node?_persist (e := e) hne).2 (node?_of_find? hother h)
  obtain ⟨q, hl⟩ : ∃ q, s.disk.locate (documentPlace d other) = .ok q := by
    unfold Tree.find? at h
    split at h
    · exact ⟨_, ‹_›⟩
    · exact absurd h (by simp)
  have hkeeps : ∀ r, s.disk.node? r = some .directory →
      (s.persist d key e).2.disk.node? r = some .directory := by
    intro r hr
    obtain ⟨t, hgrows, hdisk | ⟨-, hwrite⟩⟩ := disk_persist_cases s d key e
    · exact hdisk ▸ hgrows.directory hr
    · exact Tree.directory_of_write hwrite (hgrows.directory hr)
  rw [Tree.find?, Tree.locate_mono hkeeps hl, Tree.locate_eq_ok hl, resolve_documentPlace hother]
  exact hnode

/-- What can be read of another key can be read afterwards. -/
theorem persisted_persist (hd : s.directory = some d) (hne : other ≠ key) {content : Content}
    (hreadable : content ≠ .unreadable) (h : s.persisted other = some content) :
    (s.persist d key e).2.persisted other = some content := by
  have hdirectory := (persist_spares s d key e).1.trans hd
  by_cases hdigest : isDigest other = true
  · rw [persisted_eq_iff hd hdigest hreadable] at h
    obtain ⟨bytes, hfind, hbytes⟩ := h
    rw [persisted_eq_iff hdirectory hdigest hreadable]
    exact ⟨bytes, find?_persist hne hdigest hfind, hbytes⟩
  · rw [persisted, hd] at h
    simp only [hdigest, Bool.false_eq_true, if_false] at h
    exact absurd (Option.some.inj h).symm hreadable

/-! ## Storing -/

/-- An entry that was not in memory is there once it is stored, and what is persisted of it does not
depend on the memory. -/
theorem store_of_forgotten (h : s.memory.find? key = none) (e : Entry) :
    s.store key e = match s.directory with
      | none => (none, s.remember key e)
      | some d => (s.remember key e).persist d key e := by
  rw [Store.store, h, if_neg (by simp)]
  rfl

theorem memory_store (h : s.memory.find? key = none) (e : Entry) :
    (s.store key e).2.memory = s.memory.insert key e := by
  rw [store_of_forgotten h]
  split
  · rfl
  · exact (persist_spares _ _ key e).2

theorem find?_store (hs : s.Unbounded) (h : s.memory.find? key = none) (e : Entry)
    (other : String) :
    (s.store key e).2.memory.find? other
      = if other = key then some e else s.memory.find? other := by
  rw [memory_store h]
  exact Memory.find?_insert hs.unlimited key other e

theorem Unbounded.store (hs : s.Unbounded) (h : s.memory.find? key = none) (e : Entry) :
    (s.store key e).2.Unbounded := by
  refine ⟨fun other hother => ?_, ?_⟩
  · rw [inFlight_store] at hother
    rw [find?_store hs h]
    split
    · exact ⟨e, rfl⟩
    · exact hs.held other hother
  · rw [memory_store h]
    exact hs.unlimited

/-- A key in flight is of no account where its entry is in memory. -/
theorem Unbounded.claim (hs : s.Unbounded) (h : s.memory.find? key = some e) :
    (s.claim key).Unbounded := by
  refine ⟨fun other hother => ?_, hs.unlimited⟩
  rcases List.mem_cons.1 hother with rfl | hother
  · exact ⟨e, h⟩
  · exact hs.held other hother

/-- Keys in flight do not show in the replies. -/
theorem SameReplies.claim (h : SameReplies s s') (key : String) : SameReplies s (s'.claim key) := by
  refine ⟨h.directory, h.disk, fun other => ?_⟩
  have hclaim : s'.claim key = s'.withFlight (key :: s'.inFlight) := rfl
  rw [hclaim, ← h.reply other, Store.reply, lookup_withFlight]
  rfl

/-- What is stored is the reply from then on. -/
theorem reply_store (hs : s.Unbounded) (h : s.reply key = .ok none) (e : Entry) :
    (s.store key e).2.reply key = .ok (some e) :=
  reply_of_memory ((find?_store hs (forgotten_of_reply h) e key).trans (if_pos rfl))

/-- An entry that is stored under a key without a reply takes no other reply away. -/
theorem extends_store (hs : s.Unbounded) (h : s.reply key = .ok none) (e : Entry) :
    s.Extends (s.store key e).2 := by
  intro other hother
  have hforgotten := forgotten_of_reply h
  have hne : other ≠ key := by
    rintro rfl
    exact hother h
  have hfind := (find?_store hs hforgotten e other).trans (if_neg hne)
  cases ho : s.memory.find? other with
  | some e' => rw [reply_of_memory ho, reply_of_memory (hfind.trans ho)]
  | none =>
    rw [reply_of_forgotten ho] at hother ⊢
    rw [reply_of_forgotten (hfind.trans ho)]
    cases hp : s.persisted other with
    | none => simp [hp, replyOf] at hother
    | some content =>
      have hreadable : content ≠ .unreadable := by
        rintro rfl
        simp [hp, replyOf] at hother
      rw [store_of_forgotten hforgotten]
      cases hd : s.directory with
      | none => simp [persisted, hd] at hp
      | some d =>
        have hd' : (s.remember key e).directory = some d := hd
        rw [persisted_persist hd' hne hreadable hp]

/-- Two stores that reply alike do so after the same entry is stored in both, and it can be stored in
both or in neither. -/
theorem SameReplies.store (hs : s.Unbounded) (hs' : s'.Unbounded) (h : SameReplies s s')
    (hmissing : s.reply key = .ok none) (e : Entry) :
    (s'.store key e).1 = (s.store key e).1 ∧
      SameReplies (s.store key e).2 (s'.store key e).2 := by
  have hmissing' := (h.reply key).trans hmissing
  have hforgotten := forgotten_of_reply hmissing
  have hforgotten' := forgotten_of_reply hmissing'
  have hdirectory : (s'.store key e).2.directory = (s.store key e).2.directory := by
    rw [directory_store, directory_store, h.directory]
  have hsame : (s'.store key e).1 = (s.store key e).1 ∧
      (s'.store key e).2.disk = (s.store key e).2.disk := by
    have hremembered : (s'.remember key e).disk = (s.remember key e).disk := h.disk
    rw [store_of_forgotten hforgotten, store_of_forgotten hforgotten', h.directory]
    cases s.directory with
    | none => exact ⟨rfl, hremembered⟩
    | some d => exact persist_congr hremembered d key e
  refine ⟨hsame.1, hdirectory, hsame.2, fun other => ?_⟩
  by_cases hsameKey : other = key
  · subst hsameKey
    rw [reply_store hs hmissing, reply_store hs' hmissing']
  · have hpersisted := persisted_congr hdirectory hsame.2 other
    have hfind := (find?_store hs hforgotten e other).trans (if_neg hsameKey)
    have hfind' := (find?_store hs' hforgotten' e other).trans (if_neg hsameKey)
    have hreply := h.reply other
    have hkept := extends_store hs hmissing e other
    have hkept' := extends_store hs' hmissing' e other
    by_cases hnone : s.reply other = .ok none
    · -- neither has it in memory, so both read what has come into reach
      rw [reply_of_forgotten (hfind.trans (forgotten_of_reply hnone)),
        reply_of_forgotten (hfind'.trans (forgotten_of_reply (hreply.trans hnone))), hpersisted]
    · rw [hkept hnone, hkept' (hreply ▸ hnone), hreply]

/-! ## What a store holds -/

/-- What a store holds under a key: the entry that it replies, and what can be read of the file at
the place of the document, even where no way leads there. -/
inductive Holds (s : Store) (key : String) : Content → Prop where
  | replied {e : Entry} (reply : s.reply key = .ok (some e)) : Holds s key (.entry e)
  | written {d : Place} {bytes : Bytes} (home : s.directory = some d)
    (file : s.disk.node? (documentAt d key) = some (.file bytes)) : Holds s key (.ofBytes bytes)

/-- Stores that reply alike hold the same. -/
theorem SameReplies.holds (h : SameReplies s s') {content : Content} (hs : s'.Holds key content) :
    s.Holds key content := by
  cases hs with
  | replied reply => exact .replied ((h.reply key).symm.trans reply)
  | written home file => exact .written (h.directory ▸ home) (h.disk ▸ file)

/-- What is persisted and can be read is the file at the place of the document. -/
theorem file_of_persisted {content : Content} (hreadable : content ≠ .unreadable)
    (h : s.persisted key = some content) : ∃ d bytes, s.directory = some d ∧
      s.disk.node? (documentAt d key) = some (.file bytes) ∧ .ofBytes bytes = content := by
  cases hd : s.directory with
  | none => simp [persisted, hd] at h
  | some d =>
    by_cases hdigest : isDigest key = true
    · obtain ⟨bytes, hfind, hbytes⟩ := (persisted_eq_iff hd hdigest hreadable).1 h
      exact ⟨d, bytes, rfl, node?_of_find? hdigest hfind, hbytes⟩
    · simp only [persisted, hd, hdigest, Bool.false_eq_true, if_false] at h
      exact absurd (Option.some.inj h).symm hreadable

/-- A document that is too deep is held. -/
theorem holds_of_reply_eq_error {deep : Json.TooDeep} (h : s.reply key = .error deep) :
    s.Holds key (.tooDeep deep) := by
  have hlook : s.lookup key = (.error deep, (s.lookup key).2) := Prod.ext h rfl
  obtain ⟨d, bytes, home, file, hbytes⟩ :=
    file_of_persisted (by simp) (persisted_of_lookup_eq_error hlook).1
  exact hbytes ▸ .written home file

/-- What a store holds under another key once an entry is stored was held before. -/
theorem holds_of_store (hs : s.Unbounded) (hmissing : s.reply key = .ok none)
    (hne : other ≠ key) {content : Content} (h : (s.store key e).2.Holds other content) :
    s.Holds other content := by
  have hforgotten := forgotten_of_reply hmissing
  have hfind := (find?_store hs hforgotten e other).trans (if_neg hne)
  have hwritten : ∀ d bytes, (s.store key e).2.directory = some d →
      (s.store key e).2.disk.node? (documentAt d other) = some (.file bytes) →
      s.Holds other (.ofBytes bytes) := by
    intro d bytes home hfile
    have hd := (directory_store s key e).symm.trans home
    simp only [store_of_forgotten hforgotten, hd] at hfile
    exact .written hd ((node?_persist (s := s.remember key e) hne).1 hfile)
  cases h with
  | written home file => exact hwritten _ _ home file
  | replied reply =>
    cases ho : s.memory.find? other with
    | some e'' =>
      rw [reply_of_memory (hfind.trans ho)] at reply
      exact .replied ((reply_of_memory ho).trans reply)
    | none =>
      obtain ⟨d, bytes, home, file, hbytes⟩ :=
        file_of_persisted (by simp) ((lookup_eq_some_iff (hfind.trans ho)).1 reply)
      exact hbytes ▸ hwritten d bytes home file

end SheetBuild.Cache.Store
