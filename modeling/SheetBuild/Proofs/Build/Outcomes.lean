import SheetBuild.Build.Artifact
import SheetBuild.Proofs.Build.Stages
import SheetBuild.Proofs.Cache.Replies
import SheetBuild.Proofs.Compile.Refusal
set_option autoImplicit false

/-!
# One outcome for each entry

Whatever a store holds and whatever the compiler does, short of calling the build off, a batch over
distinct paths gives each entry exactly one result, in the order of the paths (`Complete`).  A failure
stays with its entry, and names a file.  Two things are in the way.  A document that is too deep ends a
batch before anything is compiled, and where the entry of a unit cannot be stored, a later unit with its
key may have to wait without end (`run_complete_or_halts`).
-/

namespace SheetBuild

theorem FileSet.mem_visible {files : FileSet} {target : Option String} {f : SourceFile} :
    f ∈ (files.visible target).files ↔ f ∈ files.files ∧ f.isVisibleTo target = true :=
  List.mem_filter

namespace Build

open SheetBuild.Cache (Store)
open SheetBuild.Compile (Compiler)

/-- A compiler never calls a build off. -/
def NeverCancels (compiler : Compiler) : Prop :=
  ∀ f o load, ((compiler f o).run load).cancelled = false

/-- The path that an artifact stands for. -/
def Artifact.path : Artifact → String
  | .compiled path _ _ _ _ => path
  | .failed path _ => path

namespace Batch

/-- Whether compiling a file comes to a stylesheet or to a refusal, and does not break down. -/
def settles (b : Batch) (compiler : Compiler) (f : SourceFile) : Bool :=
  match (b.session compiler f).result with
  | .ok _ => true
  | .error (.rejected _) => true
  | .error _ => false

/-- Whether a call is for a file whose compilation does not break down. -/
def isSettled (b : Batch) (compiler : Compiler) (c : Call) : Bool :=
  match b.files.get? c.path with
  | none => false
  | some f => b.settles compiler f

variable {b : Batch} {compiler : Compiler}

/-- The entries are the files that compile on their own, in some order. -/
theorem perm_entries (b : Batch) : b.entries.Perm (b.files.files.filter (·.isEntryFor b.target)) :=
  List.mergeSort_perm _ _

/-- The entries stand in the order of their paths, which differ. -/
theorem pairwise_path_entries (b : Batch) : (b.entries.map (·.path)).Pairwise (· < ·) := by
  have hle : b.entries.Pairwise fun f g => f.path ≤ g.path := by
    have hsorted := @List.pairwise_mergeSort SourceFile
      (fun f g => Decidable.decide (f.path ≤ g.path))
      (fun f g h hfg hgh => by
        simp only [decide_eq_true_eq] at hfg hgh ⊢
        exact String.le_trans hfg hgh)
      (fun f g => by simpa using String.le_total f.path g.path)
      (b.files.files.filter (·.isEntryFor b.target))
    exact hsorted.imp fun h => by simpa using h
  have hnodup : (b.entries.map (·.path)).Nodup :=
    (b.perm_entries.map (·.path)).nodup_iff.2
      (b.files.nodup.sublist (List.filter_sublist.map _))
  rw [List.pairwise_map]
  refine (hle.and (List.pairwise_map.1 hnodup)).imp ?_
  rintro f g ⟨hfg, hne⟩
  exact String.not_le.1 fun hgf => hne (String.le_antisymm hfg hgf)

/-- Paths differ, so there is one order of the entries only. -/
theorem entries_eq_of_perm_of_pairwise {fs : List SourceFile}
    (hperm : (b.files.files.filter (·.isEntryFor b.target)).Perm fs)
    (hsorted : (fs.map (·.path)).Pairwise (· < ·)) : b.entries = fs := by
  refine List.Perm.eq_of_pairwise ?_ (List.pairwise_map.1 b.pairwise_path_entries)
    (List.pairwise_map.1 hsorted) (b.perm_entries.trans hperm)
  intro f g _ _ hfg hgf
  exact absurd hgf (String.lt_asymm hfg)

/-- Entries with one path are one. -/
theorem eq_of_mem_entries {f g : SourceFile} (hf : f ∈ b.entries) (hg : g ∈ b.entries)
    (h : f.path = g.path) : f = g :=
  List.inj_on_of_nodup_map (b.pairwise_path_entries.imp fun hlt => String.ne_of_lt hlt) hf hg h

/-! ## The results of one unit -/

/-- What every result of a batch has: it is the result of an entry, fails only with a named file, and
was not called off. -/
structure ResultOf (b : Batch) (f : SourceFile) (u : UnitResult) : Prop where
  path : u.path = f.path
  named : ∀ d, u.entry.diagnostic? = some d → d.sourceFile.isSome = true
  kept : ∀ k, u.origin ≠ .cancelled k

theorem named_ascribe (e : Entry) (path : String) :
    ∀ d, (e.ascribe path).diagnostic? = some d → d.sourceFile.isSome = true := by
  intro d hd
  unfold Entry.ascribe at hd
  cases ho : e.outcome with
  | css text => simp [ho, Entry.diagnostic?] at hd
  | failed d' =>
    simp only [ho] at hd
    split at hd
    · obtain rfl := Option.some.inj hd
      rfl
    · rename_i hsome
      simp only [Entry.diagnostic?, ho] at hd
      obtain rfl := Option.some.inj hd
      exact Option.isSome_iff_ne_none.2 (by simpa using hsome)

/-- A unit that has failed without an entry. -/
theorem resultOf_failed {f : SourceFile} {o : Origin} {d : Diagnostic}
    (hd : d.sourceFile.isSome = true) (ho : ∀ k, o ≠ .cancelled k) :
    ResultOf b f (.failed f.path b.target o d) where
  path := rfl
  named := by
    intro d' hd'
    exact Option.some.inj hd' ▸ hd
  kept := ho

/-- A unit that an entry is ascribed to. -/
theorem resultOf_ascribe (f : SourceFile) (e : Entry) {o : Origin} (ho : ∀ k, o ≠ .cancelled k) :
    ResultOf b f ⟨f.path, b.target, e.ascribe f.path, o⟩ where
  path := rfl
  named := named_ascribe e f.path
  kept := ho

/-- What the first stage decides of a task: a result, which is not of a compilation, or what is to
be compiled. -/
def Decided (b : Batch) (t : Task) : Decision → Prop
  | .decided u => ResultOf b t.file u ∧ u.compiled = false
  | .pending p => p.file = t.file ∧ b.Proper p

theorem Decides.decided {t : Task} (ht : b.Tasked t) {s s' : Store} {d : Decision}
    (h : b.Decides s t d s') : Decided b t d := by
  cases h with
  | unkeyed closure => exact ⟨resultOf_failed (ht.named _ closure) (by simp), rfl⟩
  | found => exact ⟨resultOf_ascribe t.file _ (by simp), rfl⟩
  | missing closure => exact ⟨rfl, ht.entry, (ht.walk _).1 closure, rfl⟩

/-- A compilation comes to an entry when it does not break down. -/
theorem exists_entryOf_iff {p : Pending} :
    (∃ e, b.entryOf p (b.session compiler p.file).result = .ok e) ↔
      b.settles compiler p.file = true := by
  unfold settles
  cases (b.session compiler p.file).result with
  | ok out => simp [entryOf]
  | error fault => cases fault <;> simp [entryOf]

theorem isSettled_callFor {f : SourceFile} (hf : f ∈ b.files.files) :
    b.isSettled compiler (b.callFor compiler f) = b.settles compiler f := by
  rw [isSettled, callFor, FileSet.get?_of_mem hf]

/-- The call for a unit that came to an entry settles. -/
theorem isSettled_of_entryOf {p : Pending} (hp : p.file ∈ b.files.files) {e : Entry}
    (h : b.entryOf p (b.session compiler p.file).result = .ok e) :
    b.isSettled compiler (b.callFor compiler p.file) = true := by
  rw [isSettled_callFor hp]
  exact exists_entryOf_iff.1 ⟨e, h⟩

/-- The call for a unit that broke down does not settle. -/
theorem not_isSettled_of_entryOf {p : Pending} (hp : p.file ∈ b.files.files) {reason : String}
    (h : b.entryOf p (b.session compiler p.file).result = .error reason) :
    b.isSettled compiler (b.callFor compiler p.file) = false := by
  rw [isSettled_callFor hp, Bool.eq_false_iff]
  intro hsettles
  obtain ⟨e, he⟩ := exists_entryOf_iff.2 hsettles
  rw [h] at he
  exact absurd he (by simp)

/-! ## Entries that cannot be stored -/

theorem isShort_of_entryOf (hshort : compiler.RefusesShort) {p : Pending} {e : Entry}
    (h : b.entryOf p (b.session compiler p.file).result = .ok e) : e.IsShort := by
  have hrefused := hshort p.file b.options b.load
  rw [← session] at hrefused
  unfold entryOf at h
  split at h
  · obtain rfl := Except.ok.inj h
    intro d hd
    exact absurd hd (by simp [Entry.diagnostic?])
  · rename_i r hresult
    obtain rfl := Except.ok.inj h
    intro d hd
    obtain rfl := Option.some.inj hd
    have hr := hrefused r hresult
    split
    · exact ⟨hr.line, hr.column⟩
    · exact hr
  · exact absurd h (by simp)
  · exact absurd h (by simp)
  · exact absurd h (by simp)

/-- What a unit comes to cannot be stored: no file can have the name of the directory, or the entry has
a number that is too long. -/
def Strands (b : Batch) (compiler : Compiler) (directory : Option Disk.Place) (p : Pending) : Prop :=
  ∃ e, b.entryOf p (b.session compiler p.file).result = .ok e ∧
    ∃ d, directory = some d ∧ (d.all Disk.Place.isNameable = false ∨ ¬ e.IsShort)

/-- A unit whose entry could not be stored. -/
def Unstored (b : Batch) (compiler : Compiler) (directory : Option Disk.Place) (u : UnitResult) :
    Prop :=
  ∃ p, b.Proper p ∧ b.Strands compiler directory p ∧
    ∃ failure : Cache.StoreError, u = .ofCrash p.file.path b.target p.key failure.message

/-- Files can have the name of the directory, and the compiler does not refuse at places with long
numbers; or there is no directory. -/
def Suits (compiler : Compiler) (directory : Option Disk.Place) : Prop :=
  ∀ d, directory = some d → d.all Disk.Place.isNameable = true ∧ compiler.RefusesShort

/-- Then every entry can be stored. -/
theorem Suits.not_strands {directory : Option Disk.Place} (h : Suits compiler directory)
    (p : Pending) : ¬ b.Strands compiler directory p := by
  rintro ⟨e, outcome, d, hd, hname | hlong⟩
  · rw [(h d hd).1] at hname
    exact absurd hname (by simp)
  · exact hlong (isShort_of_entryOf (h d hd).2 outcome)

theorem strands_of_store {p : Pending} {e : Entry} {store store' : Store}
    {failure : Cache.StoreError} (outcome : b.entryOf p (b.session compiler p.file).result = .ok e)
    (kept : store.store p.key e = (some failure, store')) :
    b.Strands compiler store.directory p := by
  obtain ⟨-, -, d, hd, ⟨-, hname⟩ | ⟨-, hlong, -⟩⟩ :=
    Store.store_eq_some_iff.1 (congrArg Prod.fst kept)
  · exact ⟨e, outcome, d, hd, .inl hname⟩
  · exact ⟨e, outcome, d, hd, .inr hlong⟩

/-- A compilation leaves the directory where it is. -/
theorem Compiles.directory {p : Pending} {s s' : Progress} {u : UnitResult} {made : List Call}
    (h : b.Compiles compiler p s u made s') : s'.store.directory = s.store.directory := by
  cases h with
  | calledOff => rfl
  | found look => exact Store.directory_of_lookup look
  | tooDeep look => exact Store.directory_of_lookup look
  | crashed look => exact Store.directory_of_lookup look
  | unstored look _ kept =>
    exact (Store.directory_of_store kept).trans (Store.directory_of_lookup look)
  | compiled look _ kept =>
    exact (Store.directory_of_store kept).trans (Store.directory_of_lookup look)

/-! ## The results of a batch -/

/-- The second stage goes on, with the directory that it began with. -/
structure GoesOn (directory : Option Disk.Place) (s : Progress) : Prop where
  on : s.cancelled = false
  directory : s.store.directory = directory

variable {directory : Option Disk.Place}

theorem GoesOn.compiles (hcompiler : NeverCancels compiler) {p : Pending} {s s' : Progress}
    (hs : GoesOn directory s) {u : UnitResult} {made : List Call}
    (h : b.Compiles compiler p s u made s') : GoesOn directory s' := by
  refine ⟨?_, h.directory.trans hs.directory⟩
  cases h with
  | calledOff => exact hs.on
  | found => exact hs.on
  | tooDeep => exact hs.on
  | crashed => exact hcompiler p.file b.options b.load
  | unstored => exact hcompiler p.file b.options b.load
  | compiled => exact hcompiler p.file b.options b.load

theorem Compiles.resultOf {p : Pending} {s s' : Progress} (hs : GoesOn directory s) {u : UnitResult}
    {made : List Call} (h : b.Compiles compiler p s u made s') : ResultOf b p.file u := by
  cases h with
  | calledOff cancelled =>
    rw [hs.on] at cancelled
    exact absurd cancelled (by simp)
  | found => exact resultOf_ascribe p.file _ (by simp)
  | tooDeep => exact resultOf_failed rfl (by simp)
  | crashed => exact resultOf_failed rfl (by simp)
  | unstored => exact resultOf_failed rfl (by simp)
  | compiled => exact resultOf_ascribe p.file _ (by simp)

/-- The calls that settle are for some of the units: for those that were compiled, and those whose
entries could not be stored. -/
structure Answered (b : Batch) (compiler : Compiler) (directory : Option Disk.Place)
    (results : List UnitResult) (calls : List Call) (us : List UnitResult) : Prop where
  sublist : us.Sublist results
  calls : (calls.filter (b.isSettled compiler)).map (·.path) = us.map (·.path)
  compiled : us.filter (·.compiled) = results.filter (·.compiled)
  unstored : ∀ u ∈ us, u.compiled = false → b.Unstored compiler directory u

theorem Answered.cons {results : List UnitResult} {calls made : List Call} {us vs : List UnitResult}
    {u : UnitResult} (hfirst : b.Answered compiler directory [u] made us)
    (h : b.Answered compiler directory results calls vs) :
    b.Answered compiler directory (u :: results) (made ++ calls) (us ++ vs) where
  sublist := hfirst.sublist.append h.sublist
  calls := by rw [List.filter_append, List.map_append, List.map_append, hfirst.calls, h.calls]
  compiled := by rw [List.filter_append, hfirst.compiled, h.compiled, ← List.filter_append]; rfl
  unstored v hv hcompiled := by
    rcases List.mem_append.1 hv with hv | hv
    · exact hfirst.unstored v hv hcompiled
    · exact h.unstored v hv hcompiled

/-- No call is made for a unit that was not compiled. -/
theorem answered_nil {u : UnitResult} (h : u.compiled = false) :
    b.Answered compiler directory [u] [] [] where
  sublist := List.nil_sublist _
  calls := rfl
  compiled := by rw [List.filter_cons_of_neg (by simp [h])]
  unstored := fun v hv => absurd hv List.not_mem_nil

/-- A compilation makes a call that settles where the unit is compiled, or its entry cannot be stored. -/
theorem Compiles.answered {p : Pending} (hp : b.Proper p) {s s' : Progress}
    (hs : GoesOn directory s) {u : UnitResult} {made : List Call}
    (h : b.Compiles compiler p s u made s') : ∃ us, b.Answered compiler directory [u] made us := by
  have hfile := mem_of_mem_entries hp.entry
  cases h with
  | calledOff => exact ⟨[], answered_nil rfl⟩
  | found => exact ⟨[], answered_nil rfl⟩
  | tooDeep => exact ⟨[], answered_nil rfl⟩
  | crashed _ outcome =>
    have hsettled := not_isSettled_of_entryOf hfile outcome
    refine ⟨[], List.nil_sublist _, ?_, rfl, fun v hv => absurd hv List.not_mem_nil⟩
    rw [List.filter_cons_of_neg (by simp [hsettled])]
    rfl
  | @unstored e store _ failure look outcome kept =>
    have hsettled := isSettled_of_entryOf hfile outcome
    refine ⟨_, List.Sublist.refl _, ?_, rfl, fun v hv _ => ?_⟩
    · rw [List.filter_cons_of_pos hsettled]
      rfl
    · obtain rfl := List.mem_singleton.1 hv
      have hlooked := (Store.lookup_spares s.store p.key).1
      rw [look] at hlooked
      have hstrands := strands_of_store outcome kept
      rw [hlooked.trans hs.directory] at hstrands
      exact ⟨p, hp, hstrands, failure, rfl⟩
  | compiled _ outcome =>
    have hsettled := isSettled_of_entryOf hfile outcome
    refine ⟨_, List.Sublist.refl _, ?_, rfl, fun v hv hcompiled => ?_⟩
    · rw [List.filter_cons_of_pos hsettled]
      rfl
    · obtain rfl := List.mem_singleton.1 hv
      exact absurd hcompiled (by simp [UnitResult.compiled])

/-- The second stage comes to a result for each unit, in order, and the calls that settle are those of
some of them. -/
theorem finish_eq_ok (hcompiler : NeverCancels compiler) {ts : List Task} {ds : List Decision}
    (hds : List.Forall₂ (Decided b) ts ds) {s s' : Progress} (hs : GoesOn directory s)
    {us : List UnitResult} (h : b.finish compiler s ds = (.ok us, s')) :
    List.Forall₂ (ResultOf b) (ts.map (·.file)) us ∧ ∃ calls vs,
      s'.calls = calls.reverse ++ s.calls ∧ b.Answered compiler directory us calls vs := by
  induction hds generalizing s us with
  | nil =>
    simp only [finish, Prod.mk.injEq, Except.ok.injEq] at h
    obtain ⟨rfl, rfl⟩ := h
    exact ⟨.nil, [], [], rfl, List.nil_sublist _, rfl, rfl, fun v hv => absurd hv List.not_mem_nil⟩
  | @cons t d ts ds hd _ ih =>
    cases d with
    | decided u =>
      rw [finish] at h
      cases hrest : b.finish compiler s ds with
      | mk answer s₁ =>
        rw [hrest] at h
        cases answer with
        | error e => exact absurd (Prod.mk.inj h).1 (by simp [Except.map])
        | ok rest =>
          simp only [Except.map, Prod.mk.injEq, Except.ok.injEq] at h
          obtain ⟨rfl, rfl⟩ := h
          obtain ⟨hresults, calls, vs, hcalls, hanswered⟩ := ih hs hrest
          exact ⟨.cons hd.1 hresults, calls, vs, hcalls, (answered_nil hd.2).cons hanswered⟩
    | pending p =>
      rw [finish] at h
      cases hc : b.compile compiler s p with
      | mk answer s₁ =>
        rw [hc] at h
        cases answer with
        | error e => exact absurd (Prod.mk.inj h).1 (by simp)
        | ok u =>
          obtain ⟨made, hcompiles⟩ := compiles_of_compile hc
          simp only at h
          cases hrest : b.finish compiler s₁ ds with
          | mk answer s₂ =>
            rw [hrest] at h
            cases answer with
            | error e => exact absurd (Prod.mk.inj h).1 (by simp [Except.map])
            | ok rest =>
              simp only [Except.map, Prod.mk.injEq, Except.ok.injEq] at h
              obtain ⟨rfl, rfl⟩ := h
              obtain ⟨hresults, calls, vs, hcalls, hanswered⟩ :=
                ih (hs.compiles hcompiler hcompiles) hrest
              obtain ⟨us, hfirst⟩ := hcompiles.answered hd.2 hs
              have hresult := hcompiles.resultOf hs
              rw [show p.file = t.file from hd.1] at hresult
              refine ⟨.cons hresult hresults, made ++ calls, us ++ vs, ?_, hfirst.cons hanswered⟩
              rw [hcalls, hcompiles.calls, List.reverse_append, List.append_assoc, hcompiles.made]

/-! ## Units that wait -/

/-- Over a store without a limit, what is in flight stays in memory. -/
theorem Compiles.unbounded {p : Pending} {s s' : Progress} {u : UnitResult} {made : List Call}
    (hs : s.store.Unbounded) (h : b.Compiles compiler p s u made s') : s'.store.Unbounded := by
  have hlooked : ∀ {found store}, s.store.lookup p.key = (found, store) → store.Unbounded :=
    fun look => (hs.of_lookup look).2.1
  have hmissing : ∀ {store}, s.store.lookup p.key = (.ok none, store) →
      store.memory.find? p.key = none := by
    intro store look
    have hnone : (s.store.lookup p.key).1 = .ok none := by rw [look]
    have hmemory := Store.memory_of_lookup_eq_none hnone
    rw [look] at hmemory
    rw [hmemory]
    exact (Store.lookup_eq_none_iff.1 hnone).1
  cases h with
  | calledOff => exact hs
  | found look => exact hlooked look
  | tooDeep look => exact hlooked look
  | crashed look => exact hlooked look
  | @unstored e _ _ _ look _ kept =>
    have hstored := (hlooked look).store (hmissing look) e
    have hfind := Store.find?_store (hlooked look) (hmissing look) e p.key
    rw [kept] at hstored hfind
    exact hstored.claim (hfind.trans (if_pos rfl))
  | @compiled e _ _ look _ kept =>
    have hstored := (hlooked look).store (hmissing look) e
    rwa [kept] at hstored

/-- What is in flight after a compilation was in flight before it, or its entry could not be stored. -/
theorem Compiles.inFlight {p : Pending} {s s' : Progress} {u : UnitResult} {made : List Call}
    (h : b.Compiles compiler p s u made s') {key : String} (hkey : key ∈ s'.store.inFlight) :
    key ∈ s.store.inFlight ∨ key = p.key ∧ b.Strands compiler s.store.directory p := by
  cases h with
  | calledOff => exact .inl hkey
  | found look => exact .inl (Store.inFlight_of_lookup look ▸ hkey)
  | tooDeep look => exact .inl (Store.inFlight_of_lookup look ▸ hkey)
  | crashed look => exact .inl (Store.inFlight_of_lookup look ▸ hkey)
  | unstored look outcome kept =>
    rcases List.mem_cons.1 hkey with rfl | hkey
    · exact .inr ⟨rfl, Store.directory_of_lookup look ▸ strands_of_store outcome kept⟩
    · exact .inl (Store.inFlight_of_lookup look ▸ Store.inFlight_of_store kept ▸ hkey)
  | compiled look _ kept =>
    exact .inl (Store.inFlight_of_lookup look ▸ Store.inFlight_of_store kept ▸ hkey)

/-- The second stage as far as it has come with some units: what is in flight are keys of these, whose
entries could not be stored, and over a memory without a limit it is in memory. -/
structure Behind (b : Batch) (compiler : Compiler) (before : Store) (front : List Decision)
    (s : Progress) : Prop where
  directory : s.store.directory = before.directory
  unbounded : before.memory.limit = none → s.store.Unbounded
  inFlight : ∀ key ∈ s.store.inFlight, ∃ p, .pending p ∈ front ∧ p.key = key ∧
    b.Strands compiler before.directory p

/-- A unit is stuck only where the memory has a limit, and an earlier unit with its key came to an entry
that could not be stored. -/
theorem strands_of_stuck {before : Store} {ds : List Decision} {s s' : Progress} {e : Stuck}
    (hs : b.Behind compiler before [] s) (h : b.finish compiler s ds = (.error e, s')) :
    before.memory.limit ≠ none ∧ ∃ front p back, ds = front ++ .pending p :: back ∧ e = ⟨p.key⟩ ∧
      ∃ p', .pending p' ∈ front ∧ p'.key = p.key ∧ b.Strands compiler before.directory p' := by
  obtain ⟨front, p, back, us, s₁, rfl, hfront, hstuck⟩ := finish_eq_error h
  have hstep : ∀ p', .pending p' ∈ front → ∀ q u q', b.Behind compiler before front q →
      b.compile compiler q p' = (.ok u, q') → b.Behind compiler before front q' ∧ True := by
    intro p' hp' q u q' hq hcompile
    obtain ⟨made, hcompiles⟩ := compiles_of_compile hcompile
    refine ⟨⟨hcompiles.directory.trans hq.directory, fun hlimit => hcompiles.unbounded
      (hq.unbounded hlimit), fun key hkey => ?_⟩, trivial⟩
    rcases hcompiles.inFlight hkey with hkey | ⟨rfl, hstrands⟩
    · exact hq.inFlight key hkey
    · exact ⟨p', hp', rfl, hq.directory ▸ hstrands⟩
  have hstart : b.Behind compiler before front s :=
    ⟨hs.directory, hs.unbounded, fun key hkey => by
      obtain ⟨_, hnil, -⟩ := hs.inFlight key hkey
      exact absurd hnil List.not_mem_nil⟩
  have hbehind := b.finish_invariant (Q := fun _ _ => True) compiler hstep hstart
  rw [hfront] at hbehind
  obtain ⟨rfl, hflight, store, look, -⟩ := stuck_of_compile hstuck
  refine ⟨fun hlimit => ?_, front, p, back, rfl, rfl, hbehind.1.inFlight p.key hflight⟩
  have hforgotten := (Store.lookup_eq_none_iff.1 (congrArg Prod.fst look)).1
  exact (hbehind.1.unbounded hlimit).free hforgotten hflight

end Batch

/-! ## Artifacts of results -/

/-- A unit that is not only imported has an artifact, which is a stylesheet where it succeeded. -/
theorem Artifact.exists_ofUnit {u : UnitResult} (h : Path.isPartial u.path.toList = false) :
    ∃ a, Artifact.ofUnit u = .ok a ∧ a.path = u.path ∧ a.isCompiled = u.entry.succeeded := by
  unfold Artifact.ofUnit
  rw [if_neg (by simp [h])]
  cases ho : u.entry.outcome with
  | css text => exact ⟨_, rfl, rfl, by simp [isCompiled, Entry.succeeded, Entry.diagnostic?, ho]⟩
  | failed d => exact ⟨_, rfl, rfl, by simp [isCompiled, Entry.succeeded, Entry.diagnostic?, ho]⟩

/-- Units that are not only imported have an artifact each. -/
theorem Artifact.exists_ofBatch {us : List UnitResult}
    (h : ∀ u ∈ us, Path.isPartial u.path.toList = false) :
    ∃ as, Artifact.ofBatch ⟨us⟩ = .ok as ∧
      List.Forall₂ (fun u a => a.path = u.path ∧ a.isCompiled = u.entry.succeeded) us as := by
  unfold Artifact.ofBatch
  induction us with
  | nil => exact ⟨[], rfl, .nil⟩
  | cons u us ih =>
    obtain ⟨a, ha, hau⟩ := Artifact.exists_ofUnit (h u List.mem_cons_self)
    obtain ⟨as, has, hall⟩ := ih fun v hv => h v (List.mem_cons_of_mem _ hv)
    refine ⟨a :: as, ?_, .cons hau hall⟩
    simp only [List.mapM_cons, ha, has]
    rfl

/-! ## Whole batches -/

/-- Every file that compiles on its own for a target has one outcome, and nothing else has. -/
structure Complete (o : CompileOptions) (target : Option String) (files : FileSet)
    (compiler : Compiler) (directory : Option Disk.Place) (result : BatchResult) (calls : List Call) :
    Prop where
  paths : ∀ p, p ∈ result.results.map (·.path) ↔ ∃ f ∈ files.files, f.path = p ∧
    f.isVisibleTo target = true ∧ f.entryCandidate = true ∧ f.isPartial = false
  increasing : (result.results.map (·.path)).Pairwise (· < ·)
  outcome : ∀ u ∈ result.results, u.entry.css?.isSome = !u.entry.diagnostic?.isSome
  named : ∀ d ∈ result.diagnostics, d.sourceFile.isSome = true
  diagnostics : result.diagnostics.map some
    = (result.results.filter fun u => !u.entry.succeeded).map (·.entry.diagnostic?)
  oneClass : ∀ u ∈ result.results,
    [u.origin.key?.isNone, u.fromCache, u.crashed, u.compiled].count true = 1
  /-- the calls that did not break down are for the units that were compiled, and for those that crashed
  since their entries could not be stored -/
  answered : ∃ us, (Batch.ofFiles o target files).Answered compiler directory result.results calls us
  /-- so where every entry can be stored they are as many as the units that were compiled -/
  compiledCount : Batch.Suits compiler directory → result.compiledCount
    = (calls.filter ((Batch.ofFiles o target files).isSettled compiler)).length
  artifacts : ∃ as, Artifact.ofBatch result = .ok as ∧
    List.Forall₂ (fun u a => a.path = u.path ∧ a.isCompiled = u.entry.succeeded) result.results as

/-- The failures are the diagnostics of the results that did not succeed. -/
theorem map_some_diagnostics (us : List UnitResult) :
    (us.filterMap (·.diagnostic?)).map some
      = (us.filter fun u => !u.entry.succeeded).map (·.entry.diagnostic?) := by
  induction us with
  | nil => rfl
  | cons u us ih =>
    cases hd : u.entry.diagnostic? with
    | none => simpa [UnitResult.diagnostic?, Entry.succeeded, hd] using ih
    | some d => simpa [UnitResult.diagnostic?, Entry.succeeded, hd] using ih

theorem count_classes {o : Origin} (h : ∀ k, o ≠ .cancelled k) (path : String)
    (target : Option String) (e : Entry) :
    [o.key?.isNone, UnitResult.fromCache ⟨path, target, e, o⟩,
      UnitResult.crashed ⟨path, target, e, o⟩,
      UnitResult.compiled ⟨path, target, e, o⟩].count true = 1 := by
  cases o with
  | unkeyed => rfl
  | cached k => rfl
  | compiled k => rfl
  | crashed k => rfl
  | cancelled k => exact absurd rfl (h k)

namespace Batch

variable {compiler : Compiler}

theorem mem_entries_ofFiles {o : CompileOptions} {target : Option String} {files : FileSet}
    {f : SourceFile} : f ∈ (ofFiles o target files).entries ↔ f ∈ files.files ∧
      f.isVisibleTo target = true ∧ f.entryCandidate = true ∧ f.isPartial = false := by
  rw [mem_entries]
  simp only [ofFiles, FileSet.mem_visible, SourceFile.isEntryFor, Bool.and_eq_true, Bool.not_eq_true']
  constructor
  · rintro ⟨⟨hf, hvisible⟩, ⟨hcandidate, hpartial⟩, -⟩
    exact ⟨hf, hvisible, hcandidate, hpartial⟩
  · rintro ⟨hf, hvisible, hcandidate, hpartial⟩
    exact ⟨⟨hf, hvisible⟩, ⟨hcandidate, hpartial⟩, hvisible⟩

/-- What was decided for the tasks of a batch is complete once it is finished. -/
theorem complete_finish (hcompiler : NeverCancels compiler) {o : CompileOptions}
    {target : Option String} {files : FileSet} {ds : List Decision}
    (hds : List.Forall₂ (Decided (ofFiles o target files)) (ofFiles o target files).tasks ds)
    {directory : Option Disk.Place} {s s' : Progress} (hs : GoesOn directory s) (hcalls : s.calls = [])
    {us : List UnitResult} (hfinish : (ofFiles o target files).finish compiler s ds = (.ok us, s')) :
    Complete o target files compiler directory ⟨us⟩ s'.calls.reverse := by
  obtain ⟨hresults, calls, vs, hmade, hanswered⟩ := finish_eq_ok hcompiler hds hs hfinish
  rw [map_file_tasks] at hresults
  rw [hcalls, List.append_nil] at hmade
  have hpaths : us.map (·.path) = (ofFiles o target files).entries.map (·.path) := by
    have heq : List.Forall₂ (fun f u => f.path = u.path) (ofFiles o target files).entries us :=
      hresults.imp fun f u h => h.path.symm
    rw [← List.forall₂_map_right_iff, ← List.forall₂_map_left_iff, List.forall₂_eq_eq_eq] at heq
    exact heq.symm
  have hof : ∀ u ∈ us, ∃ f ∈ (ofFiles o target files).entries, ResultOf (ofFiles o target files) f u :=
    fun u hu => exists_mem_left_of_forall₂ hresults hu
  rw [hmade, List.reverse_reverse]
  exact {
    paths := by
      intro p
      rw [hpaths, List.mem_map]
      constructor
      · rintro ⟨f, hf, rfl⟩
        obtain ⟨hmem, hclass⟩ := mem_entries_ofFiles.1 hf
        exact ⟨f, hmem, rfl, hclass⟩
      · rintro ⟨f, hmem, rfl, hclass⟩
        exact ⟨f, mem_entries_ofFiles.2 ⟨hmem, hclass⟩, rfl⟩
    increasing := by
      rw [hpaths]
      exact pairwise_path_entries _
    outcome := fun u _ => u.entry.css?_isSome_eq_not_diagnostic?_isSome
    named := by
      intro d hd
      obtain ⟨u, hu, hud⟩ := List.mem_filterMap.1 hd
      obtain ⟨f, -, h⟩ := hof u hu
      exact h.named d hud
    diagnostics := map_some_diagnostics us
    oneClass := by
      intro u hu
      obtain ⟨f, -, h⟩ := hof u hu
      exact count_classes h.kept u.path u.target u.entry
    answered := ⟨vs, hanswered⟩
    compiledCount := by
      intro hsuits
      have hall : vs.filter (·.compiled) = vs := by
        refine List.filter_eq_self.2 fun u hu => ?_
        by_contra hcompiled
        obtain ⟨p, -, hstrands, -⟩ := hanswered.unstored u hu (by simpa using hcompiled)
        exact hsuits.not_strands p hstrands
      have hlength := congrArg List.length hanswered.calls
      rw [List.length_map, List.length_map, ← hall, hanswered.compiled] at hlength
      rw [hlength]
      exact List.countP_eq_length_filter
    artifacts := by
      refine Artifact.exists_ofBatch ?_
      intro u hu
      obtain ⟨f, hf, h⟩ := hof u hu
      rw [h.path]
      exact (mem_entries_ofFiles.1 hf).2.2.2 }

end Batch

/-- Nothing is in flight, and what is persisted is what was persisted in an earlier store, as the
directory and the limit are. -/
structure Untouched (before s : Store) : Prop where
  idle : s.inFlight = []
  persisted : ∀ k, s.persisted k = before.persisted k
  directory : s.directory = before.directory
  limit : s.memory.limit = before.memory.limit

theorem Untouched.refl {s : Store} (h : s.inFlight = []) : Untouched s s := ⟨h, fun _ => rfl, rfl, rfl⟩

theorem Untouched.lookup {before s s' : Store} (h : Untouched before s) {key : String}
    {found : Except Json.TooDeep (Option Entry)} (look : s.lookup key = (found, s')) :
    Untouched before s' := by
  obtain rfl : (s.lookup key).2 = s' := by rw [look]
  obtain ⟨hdirectory, -, hlimit⟩ := Store.lookup_spares s key
  exact ⟨(Store.inFlight_lookup s key).trans h.idle,
    fun k => (Store.persisted_lookup s key k).trans (h.persisted k), hdirectory.trans h.directory,
    hlimit.trans h.limit⟩

theorem Untouched.decides {before s s' : Store} (h : Untouched before s) {b : Batch} {t : Task}
    {d : Batch.Decision} (hd : b.Decides s t d s') : Untouched before s' := by
  cases hd with
  | unkeyed => exact h
  | found _ look => exact h.lookup look
  | missing _ look => exact h.lookup look

/-- A key is not in memory, and its document is too deep. -/
structure Buried (key : String) (e : Json.TooDeep) (s : Store) : Prop where
  forgotten : s.memory.find? key = none
  persisted : s.persisted key = some (.tooDeep e)

theorem Buried.lookup_self {key : String} {e : Json.TooDeep} {s : Store} (h : Buried key e s) :
    s.lookup key = (.error e, s) :=
  Store.lookup_of_tooDeep h.forgotten h.persisted

/-- A lookup that succeeds is of another key, which does not change that. -/
theorem Buried.lookup {key other : String} {e : Json.TooDeep} {s s' : Store} {answer : Option Entry}
    (h : Buried key e s) (hlook : s.lookup other = (.ok answer, s')) :
    key ≠ other ∧ Buried key e s' := by
  have hne : key ≠ other := by
    rintro rfl
    rw [h.lookup_self] at hlook
    exact absurd (Prod.mk.inj hlook).1 (by simp)
  have hforgotten := Store.find?_lookup_eq_none hne h.forgotten
  have hpersisted := Store.persisted_lookup s other key
  rw [hlook] at hforgotten hpersisted
  exact ⟨hne, hforgotten, hpersisted.trans h.persisted⟩

open Batch in
/-- A batch does not get past an entry whose key is not in memory and has a document that is too
deep. -/
theorem run_eq_tooDeep {c : Context} {compiler : Compiler} {s : Store} {files : FileSet}
    {target : Option String} (hopen : c.closed = false) {f : SourceFile}
    (hf : f ∈ (ofFiles c.options target files).entries) {closure : List String}
    (hwalk : (ofFiles c.options target files).graph.Walk f.path closure) {e : Json.TooDeep}
    (hburied : Buried ((ofFiles c.options target files).key f closure) e s) :
    ∃ e' s', run c compiler s files.files target
      = .error (.tooDeep e' s' { c with graph := some (ofFiles c.options target files).graph }) := by
  rw [run_files hopen, execute_eq]
  generalize ofFiles c.options target files = b at hf hwalk hburied
  -- no decision is about the entry, since its lookup fails and every other one leaves it so
  have hstep : ∀ t ∈ b.tasks, ∀ s₁ d s', Buried (b.key f closure) e s₁ → b.Decides s₁ t d s' →
      Buried (b.key f closure) e s' ∧ t.file ≠ f := by
    intro t ht s₁ d s' hs₁ hd
    have hclosure : t.file = f → t.closure = .ok closure := by
      rintro rfl
      exact ((tasked_of_mem_tasks t ht).walk closure).2 hwalk
    cases hd with
    | unkeyed failed =>
      refine ⟨hs₁, ?_⟩
      intro heq
      rw [hclosure heq] at failed
      exact absurd failed (by simp)
    | @found c' _ _ found look =>
      obtain ⟨hne, hs'⟩ := hs₁.lookup look
      refine ⟨hs', ?_⟩
      intro heq
      obtain rfl := Except.ok.inj (found.symm.trans (hclosure heq))
      exact hne (by rw [heq])
    | @missing c' _ found look =>
      obtain ⟨hne, hs'⟩ := hs₁.lookup look
      refine ⟨hs', ?_⟩
      intro heq
      obtain rfl := Except.ok.inj (found.symm.trans (hclosure heq))
      exact hne (by rw [heq])
  have hfirst := b.decideTasks_invariant hstep hburied
  cases hdecided : b.decideTasks s b.tasks with
  | mk answer s₁ =>
    rw [hdecided] at hfirst
    cases answer with
    | error e' => exact ⟨e', s₁, rfl⟩
    | ok ds =>
      obtain ⟨-, hds⟩ := hfirst
      rw [← map_file_tasks] at hf
      obtain ⟨t, ht, rfl⟩ := List.mem_map.1 hf
      obtain ⟨d, -, hne⟩ := exists_mem_left_of_forall₂ hds.flip ht
      exact absurd rfl hne

/-- A batch waits for a key without end.  The memory has a limit, and of two entries of the batch with
that key the first came to an entry that could not be stored. -/
structure Waits (b : Batch) (compiler : Compiler) (s : Store) (key : String) : Prop where
  limit : s.memory.limit ≠ none
  twins : ∃ p p', b.Proper p ∧ b.Proper p' ∧ p.file.path < p'.file.path ∧ p.key = key ∧
    p'.key = key ∧ b.Strands compiler s.directory p

/-- What holds of all pairs on the left of two related lists holds of those on the right. -/
theorem pairwise_of_forall₂ {α β : Type} {R : α → β → Prop} {S : α → α → Prop} {T : β → β → Prop}
    (hST : ∀ a a' b b', R a b → R a' b' → S a a' → T b b') {as : List α} {bs : List β}
    (h : List.Forall₂ R as bs) (hS : as.Pairwise S) : bs.Pairwise T := by
  induction h with
  | nil => exact .nil
  | @cons a b as bs hab hrest ih =>
    obtain ⟨hhead, htail⟩ := List.pairwise_cons.1 hS
    refine List.pairwise_cons.2 ⟨fun b' hb' => ?_, ih htail⟩
    obtain ⟨a', ha', hab'⟩ := Batch.exists_mem_left_of_forall₂ hrest hb'
    exact hST a a' b b' hab hab' (hhead a' ha')

open Batch in
/-- The units that wait to be compiled stand in the order of their paths. -/
theorem pairwise_path_pending {b : Batch} {ds : List Decision}
    (hds : List.Forall₂ (Decided b) b.tasks ds) :
    ds.Pairwise fun d d' => ∀ p p', d = .pending p → d' = .pending p' →
      p.file.path < p'.file.path := by
  have htasks : b.tasks.Pairwise fun t t' => t.file.path < t'.file.path := by
    have hsorted := b.pairwise_path_entries
    rw [← map_file_tasks, List.map_map, List.pairwise_map] at hsorted
    exact hsorted
  refine pairwise_of_forall₂ ?_ hds htasks
  rintro t t' d d' hd hd' hlt p p' rfl rfl
  rw [show p.file = t.file from hd.1, show p'.file = t'.file from hd'.1]
  exact hlt

open Batch in
/-- Where the second stage of a batch is stuck, it waits for a key. -/
theorem waits_of_stuck {b : Batch} {compiler : Compiler} {ds : List Decision}
    (hds : List.Forall₂ (Decided b) b.tasks ds) {before s : Store} (hs : Untouched before s)
    {s' : Progress} {e : Stuck} (h : b.finish compiler ⟨s, [], false⟩ ds = (.error e, s')) :
    Waits b compiler before e.key := by
  have hbehind : b.Behind compiler before [] ⟨s, [], false⟩ := by
    refine ⟨hs.directory, fun hlimit => ⟨fun key hkey => ?_, hs.limit.trans hlimit⟩,
      fun key hkey => ?_⟩
    · rw [hs.idle] at hkey
      exact absurd hkey List.not_mem_nil
    · rw [hs.idle] at hkey
      exact absurd hkey List.not_mem_nil
  obtain ⟨hlimit, front, p, back, rfl, rfl, p', hp', hkey, hstrands⟩ := strands_of_stuck hbehind h
  refine ⟨hlimit, p', p, ?_, ?_, ?_, hkey, rfl, hstrands⟩
  · obtain ⟨t, -, ht⟩ := exists_mem_left_of_forall₂ hds (List.mem_append_left _ hp')
    exact ht.2
  · obtain ⟨t, -, ht⟩ := exists_mem_left_of_forall₂ hds
      (List.mem_append_right _ List.mem_cons_self)
    exact ht.2
  · obtain ⟨-, -, hpairs⟩ := List.pairwise_append.1 (pairwise_path_pending hds)
    exact hpairs _ hp' _ List.mem_cons_self p' p rfl rfl

open Batch in
/-- A batch on an open context over files with distinct paths, with nothing in flight and no calling
off, comes to one outcome for each entry, whatever is stored and whatever the compiler does, but for two
things: a document under the key of an entry is too deep to be read, or the batch waits for a key whose
entry could not be stored. -/
theorem run_complete_or_halts {c : Context} {compiler : Compiler} {s : Store} (files : FileSet)
    (target : Option String) (hopen : c.closed = false) (hidle : s.inFlight = [])
    (hcompiler : NeverCancels compiler) :
    (∃ report, run c compiler s files.files target = .ok report ∧
      Complete c.options target files compiler s.directory report.result report.calls) ∨
    (∃ e s', run c compiler s files.files target
        = .error (.tooDeep e s' { c with graph := some (ofFiles c.options target files).graph }) ∧
      ∃ f ∈ (ofFiles c.options target files).entries, ∃ closure,
        (ofFiles c.options target files).graph.Walk f.path closure ∧
        s.persisted ((ofFiles c.options target files).key f closure) = some (.tooDeep e)) ∨
    ∃ key s', run c compiler s files.files target
        = .error (.stuck key s' { c with graph := some (ofFiles c.options target files).graph }) ∧
      Waits (ofFiles c.options target files) compiler s key := by
  rw [run_files hopen, execute_eq]
  generalize hb : ofFiles c.options target files = b
  -- the first stage leaves the disk alone, so what ends it was persisted before
  have hstep : ∀ t ∈ b.tasks, ∀ s₁ d s', Untouched s s₁ → b.Decides s₁ t d s' →
      Untouched s s' ∧ Decided b t d := by
    intro t ht s₁ d s' hs₁ hd
    exact ⟨hs₁.decides hd, hd.decided (tasked_of_mem_tasks t ht)⟩
  have hfirst := b.decideTasks_invariant hstep (.refl hidle)
  cases hdecided : b.decideTasks s b.tasks with
  | mk answer s₁ =>
    rw [hdecided] at hfirst
    cases answer with
    | ok ds =>
      obtain ⟨hs₁, hds⟩ := hfirst
      cases hfinish : b.finish compiler ⟨s₁, [], false⟩ ds with
      | mk answer s₂ =>
        cases answer with
        | ok us =>
          subst hb
          refine .inl ⟨_, by simp only [hfinish]; rfl, ?_⟩
          exact complete_finish hcompiler hds (s := ⟨s₁, [], false⟩) ⟨rfl, hs₁.directory⟩ rfl hfinish
        | error e =>
          exact .inr (.inr ⟨e.key, s₂.store, by simp only [hfinish]; rfl, waits_of_stuck hds hs₁ hfinish⟩)
    | error e =>
      obtain ⟨t, ht, s₂, hs₂, herror⟩ := hfirst
      obtain ⟨closure, hclosure, hlook⟩ := lookup_of_decideTask_eq_error herror
      have htask := tasked_of_mem_tasks t ht
      refine .inr (.inl ⟨e, s₁, rfl, t.file, htask.entry, closure, (htask.walk closure).1 hclosure, ?_⟩)
      rw [← hs₂.persisted]
      exact (Store.persisted_of_lookup_eq_error hlook).1

/-! ## A document that is too deep -/

/-- A sheet that imports nothing. -/
def lone : FileSet := .ofList [.ofText "a.scss" "b\x7b\x7d"]

/-- A compiler that refuses everything. -/
def refuse : Compiler := fun f _ => .finish (.error (.rejected ⟨"no", some f.path, none, none⟩))

/-- The key of the sheet. -/
def loneKey : String := "387ff3857af7d29fc55987806076bc70f5e7fda792ad124cea3a5679c467dc44"

/-- A store with nothing in memory, and one bracket too many under the key of the sheet. -/
def buried : Store where
  directory := some ["cache"]
  disk := ⟨[(["cache"], .directory), (["cache", "38"], .directory),
    (["cache", "38", loneKey ++ ".json"],
      .file (Text.Utf8.encode (List.replicate (Json.maxDepth + 1) '[')))]⟩

theorem persisted_buried : buried.persisted loneKey = some (.tooDeep .array) := by
  have hfind : buried.disk.find? (Cache.documentPlace ["cache"] loneKey)
      = some (.file (Text.Utf8.encode (List.replicate (Json.maxDepth + 1) '['))) := by
    rfl
  have hdigest : Cache.isDigest loneKey = true := by decide +kernel
  unfold Store.persisted
  rw [show buried.directory = some ["cache"] from rfl]
  simp only [hdigest, hfind, if_true, Cache.ofBytes_brackets (Nat.lt_succ_self Json.maxDepth)]

/-- A batch over the sheet ends with the document, and gives the sheet no outcome. -/
theorem run_buried : ∃ e s', run {} refuse buried lone.files none
      = .error (.tooDeep e s' { graph := some (Batch.ofFiles {} none lone).graph }) ∧
    ∃ f ∈ (Batch.ofFiles {} none lone).entries, ∃ closure,
      (Batch.ofFiles {} none lone).graph.Walk f.path closure ∧
      buried.persisted ((Batch.ofFiles {} none lone).key f closure) = some (.tooDeep e) := by
  have hopen : ({} : Context).closed = false := rfl
  have hidle : buried.inFlight = [] := rfl
  have hcompiler : NeverCancels refuse := by
    intro f o load
    rfl
  have hentry : SourceFile.ofText "a.scss" "b\x7b\x7d" ∈ (Batch.ofFiles {} none lone).entries := by
    decide +kernel
  have hwalk : (Batch.ofFiles {} none lone).graph.Walk "a.scss" [] := by
    rw [← Import.Graph.closure_eq_ok_iff .nothing]
    decide +kernel
  have hkey : (Batch.ofFiles {} none lone).key (.ofText "a.scss" "b\x7b\x7d") [] = loneKey := by
    decide +kernel
  have hburied : Buried loneKey .array buried := ⟨rfl, persisted_buried⟩
  obtain ⟨e, s', herror⟩ : ∃ e s', run {} refuse buried lone.files none
      = .error (.tooDeep e s' { graph := some (Batch.ofFiles {} none lone).graph }) :=
    run_eq_tooDeep hopen hentry hwalk (hkey ▸ hburied)
  obtain ⟨report, hok, -⟩ | hdeep | ⟨key, s'', hstuck, -⟩ :=
    run_complete_or_halts lone none hopen hidle hcompiler
  · rw [herror] at hok
    exact absurd hok (by simp)
  · exact hdeep
  · rw [herror] at hstuck
    exact absurd hstuck (by simp)

end Build

end SheetBuild
