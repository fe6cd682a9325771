import SheetBuild.Proofs.Build.History
import SheetBuild.Proofs.Build.Outcomes
import SheetBuild.Proofs.Cache.Ledger
import SheetBuild.Proofs.Compile.Refusal
set_option autoImplicit false

/-!
# Batches over a ledger

A batch asks the store for all its units before it compiles any.  Over a store that forgets nothing
that makes no difference: each unit is served in turn, over the ledger as the units before it leave
it (`Batch.Serves`).  A unit whose key stands in the ledger gets the entry there; any other one is
compiled, and its entry is written down unless the compiler breaks down.  A whole history of batches is
one series of such steps (`outcomes_serves`).
-/

namespace SheetBuild

open SheetBuild.Cache (Ledger Store)
open SheetBuild.Cache.Store (Keeps)
open SheetBuild.Compile (Compiler)

/-- A ledger is part of another one. -/
def Cache.Ledger.Within (l l' : Ledger) : Prop := ∀ key e, l key = some e → l' key = some e

theorem Cache.Ledger.Within.refl (l : Ledger) : l.Within l := fun _ _ h => h

theorem Cache.Ledger.Within.trans {l l' l'' : Ledger} (h : l.Within l') (h' : l'.Within l'') :
    l.Within l'' :=
  fun key e he => h' key e (h key e he)

/-- A ledger is part of what it becomes when a missing key is written down. -/
theorem Cache.Ledger.within_update {l : Ledger} {key : String} (h : l key = none) (e : Entry) :
    l.Within (Function.update l key (some e)) := by
  intro other e' he'
  rw [Function.update_of_ne, he']
  rintro rfl
  rw [h] at he'
  exact absurd he' (by simp)

namespace Build

namespace Batch

variable {b : Batch} {compiler : Compiler} {l l' : Ledger} {t : Task} {u : UnitResult}
  {made : List Call}

/-! ## One unit -/

/-- What serving a task over a ledger can come to, with the calls of the compiler, and the ledger
afterwards. -/
inductive Serves (b : Batch) (compiler : Compiler) (l : Ledger) (t : Task) :
    UnitResult → List Call → Ledger → Prop where
  | unkeyed {e : Import.ClosureError} (closure : t.closure = .error e) :
    Serves b compiler l t (.failed t.file.path b.target .unkeyed e.diagnostic) [] l
  | cached {c : List String} {e : Entry} (closure : t.closure = .ok c)
    (there : l (b.key t.file c) = some e) :
    Serves b compiler l t ⟨t.file.path, b.target, e.ascribe t.file.path, .cached (b.key t.file c)⟩
      [] l
  | crashed {c : List String} {reason : String} (closure : t.closure = .ok c)
    (missing : l (b.key t.file c) = none)
    (outcome : b.entryOf ⟨t.file, b.key t.file c, c⟩ (b.session compiler t.file).result
      = .error reason) :
    Serves b compiler l t (.ofCrash t.file.path b.target (b.key t.file c) reason)
      [b.callFor compiler t.file] l
  | compiled {c : List String} {e : Entry} (closure : t.closure = .ok c)
    (missing : l (b.key t.file c) = none)
    (outcome : b.entryOf ⟨t.file, b.key t.file c, c⟩ (b.session compiler t.file).result = .ok e) :
    Serves b compiler l t
      ⟨t.file.path, b.target, e.ascribe t.file.path, .compiled (b.key t.file c)⟩
      [b.callFor compiler t.file] (Function.update l (b.key t.file c) (some e))

/-- What stands in the ledger stays. -/
theorem Serves.within (h : b.Serves compiler l t u made l') : l.Within l' := by
  cases h with
  | unkeyed => exact .refl l
  | cached => exact .refl l
  | crashed => exact .refl l
  | compiled _ missing => exact Ledger.within_update missing _

theorem Serves.path (h : b.Serves compiler l t u made l') : u.path = t.file.path := by
  cases h <;> rfl

/-- The key of a unit does not depend on the ledger. -/
theorem Serves.key (h : b.Serves compiler l t u made l') :
    u.origin.key? = t.closure.toOption.map (b.key t.file) := by
  cases h with
  | unkeyed closure =>
    rw [closure]
    rfl
  | cached closure =>
    rw [closure]
    rfl
  | crashed closure =>
    rw [closure]
    rfl
  | compiled closure =>
    rw [closure]
    rfl

/-- A unit without a key does not depend on the ledger. -/
theorem Serves.of_unkeyed (h : b.Serves compiler l t u made l') (hkey : u.origin.key? = none) :
    ∃ e, t.closure = .error e ∧ u = .failed t.file.path b.target .unkeyed e.diagnostic := by
  cases h with
  | unkeyed closure => exact ⟨_, closure, rfl⟩
  | cached => exact absurd hkey (by simp)
  | crashed => exact absurd hkey (by simp)
  | compiled => exact absurd hkey (by simp)

/-- The entry of a unit that did not break down is in the ledger afterwards. -/
theorem Serves.written (h : b.Serves compiler l t u made l') {k : String}
    (hkey : u.origin.key? = some k) (hcrashed : u.crashed = false) :
    ∃ e, l' k = some e ∧ u.entry = e.ascribe u.path := by
  cases h with
  | unkeyed => exact absurd hkey (by simp)
  | cached _ there =>
    obtain rfl := Option.some.inj hkey
    exact ⟨_, there, rfl⟩
  | crashed =>
    exact absurd hcrashed (by simp)
  | compiled =>
    obtain rfl := Option.some.inj hkey
    exact ⟨_, Function.update_self .., rfl⟩

/-- A unit whose key is in the ledger gets the entry there. -/
theorem Serves.of_there (h : b.Serves compiler l t u made l') {k : String} {e : Entry}
    (hkey : u.origin.key? = some k) (there : l k = some e) :
    u.fromCache = true ∧ u.entry = e.ascribe u.path := by
  cases h with
  | unkeyed => exact absurd hkey (by simp)
  | cached _ there' =>
    obtain rfl := Option.some.inj hkey
    obtain rfl := Option.some.inj (there.symm.trans there')
    exact ⟨rfl, rfl⟩
  | crashed _ missing =>
    obtain rfl := Option.some.inj hkey
    rw [there] at missing
    exact absurd missing (by simp)
  | compiled _ missing =>
    obtain rfl := Option.some.inj hkey
    rw [there] at missing
    exact absurd missing (by simp)

/-- Compiling the file at a path, under a key, comes to an entry. -/
def Yields (b : Batch) (compiler : Compiler) (path key : String) (e : Entry) : Prop :=
  ∃ f ∈ b.entries, ∃ c, f.path = path ∧ b.graph.Walk path c ∧ b.key f c = key ∧
    b.entryOf ⟨f, key, c⟩ (b.session compiler f).result = .ok e

/-- A unit that was compiled has a key that was missing, and its entry is written down. -/
theorem Serves.of_compiled (ht : b.Tasked t) (h : b.Serves compiler l t u made l') {k : String}
    (horigin : u.origin = .compiled k) :
    l k = none ∧ ∃ e, l' k = some e ∧ b.Yields compiler u.path k e ∧ u.entry = e.ascribe u.path := by
  cases h with
  | unkeyed => exact absurd horigin (by simp)
  | cached => exact absurd horigin (by simp)
  | crashed => exact absurd horigin (by simp)
  | compiled closure missing outcome =>
    obtain rfl := Origin.compiled.inj horigin
    exact ⟨missing, _, Function.update_self ..,
      ⟨t.file, ht.entry, _, rfl, (ht.walk _).1 closure, rfl, outcome⟩, rfl⟩

/-- The compiler is called for the units that were compiled or broke down. -/
theorem Serves.called (h : b.Serves compiler l t u made l') :
    made.map (·.path) = ([u].filter fun v => v.compiled || v.crashed).map (·.path) := by
  cases h <;> rfl

/-- The calls that do not break down are for the units that were compiled. -/
theorem Serves.settled (ht : b.Tasked t) (h : b.Serves compiler l t u made l') :
    (made.filter (b.isSettled compiler)).map (·.path) = ([u].filter (·.compiled)).map (·.path) := by
  have hfile := mem_of_mem_entries ht.entry
  cases h with
  | unkeyed => rfl
  | cached => rfl
  | @crashed c _ _ _ outcome =>
    have hsettled := not_isSettled_of_entryOf (p := ⟨t.file, b.key t.file c, c⟩) hfile outcome
    rw [List.filter_cons_of_neg (by simp [hsettled])]
    rfl
  | @compiled c _ _ _ outcome =>
    have hsettled := isSettled_of_entryOf (p := ⟨t.file, b.key t.file c, c⟩) hfile outcome
    rw [List.filter_cons_of_pos hsettled]
    rfl

/-! ## The two stages -/

/-- What the first stage decides of a task over a ledger. -/
def decideOver (b : Batch) (l : Ledger) (t : Task) : Decision :=
  match t.closure with
  | .error e => .decided (.failed t.file.path b.target .unkeyed e.diagnostic)
  | .ok c =>
    match l (b.key t.file c) with
    | some e =>
      .decided ⟨t.file.path, b.target, e.ascribe t.file.path, .cached (b.key t.file c)⟩
    | none => .pending ⟨t.file, b.key t.file c, c⟩

theorem isDigest_key (b : Batch) (f : SourceFile) (c : List String) :
    Cache.isDigest (b.key f c) = true :=
  Digest.isDigest_sha256Hex _

/-- What is decided over a ledger is served over a later one as well. -/
theorem serves_of_decideOver {l₀ : Ledger} (hwithin : l₀.Within l)
    (h : b.decideOver l₀ t = .decided u) : b.Serves compiler l t u [] l := by
  unfold decideOver at h
  split at h
  · rename_i hclosure
    exact Decision.decided.inj h ▸ .unkeyed hclosure
  · rename_i hclosure
    split at h
    · rename_i hthere
      exact Decision.decided.inj h ▸ .cached hclosure (hwithin _ _ hthere)
    · exact absurd h (by simp)

theorem closure_of_decideOver {l₀ : Ledger} {p : Pending} (h : b.decideOver l₀ t = .pending p) :
    ∃ c, t.closure = .ok c ∧ p = ⟨t.file, b.key t.file c, c⟩ := by
  unfold decideOver at h
  split at h
  · exact absurd h (by simp)
  · rename_i c hclosure
    split at h
    · exact absurd h (by simp)
    · exact ⟨c, hclosure, (Decision.pending.inj h).symm⟩

theorem decideTask_of_keeps {s : Store} (hs : Keeps s l) (t : Task) :
    ∃ s', b.decideTask s t = (.ok (b.decideOver l t), s') ∧ Keeps s' l ∧
      s'.directory = s.directory := by
  unfold decideTask decideOver
  cases t.closure with
  | error e => exact ⟨s, rfl, hs, rfl⟩
  | ok c =>
    obtain ⟨s', hlook, hs', hdirectory⟩ := hs.lookup (b.key t.file c)
    refine ⟨s', ?_, hs', hdirectory⟩
    simp only [hlook]
    cases l (b.key t.file c) <;> rfl

/-- The first stage leaves the ledger as it is. -/
theorem decideTasks_of_keeps {s : Store} (hs : Keeps s l) (ts : List Task) :
    ∃ s', b.decideTasks s ts = (.ok (ts.map (b.decideOver l)), s') ∧ Keeps s' l ∧
      s'.directory = s.directory := by
  induction ts generalizing s with
  | nil => exact ⟨s, rfl, hs, rfl⟩
  | cons t ts ih =>
    obtain ⟨s₁, hdecided, hs₁, hdirectory₁⟩ := decideTask_of_keeps (b := b) hs t
    obtain ⟨s', hrest, hs', hdirectory'⟩ := ih hs₁
    refine ⟨s', ?_, hs', hdirectory'.trans hdirectory₁⟩
    simp only [decideTasks, hdecided, hrest]
    rfl

/-- The second stage goes on, with a store that keeps a ledger. -/
structure Going (l : Ledger) (directory : Option Disk.Place) (s : Progress) : Prop where
  keeps : Keeps s.store l
  on : s.cancelled = false
  directory : s.store.directory = directory

/-- What a unit comes to lasts under its key. -/
theorem lasts_of_entryOf {directory : Option Disk.Place}
    (hshort : directory ≠ none → compiler.RefusesShort) {f : SourceFile} {c : List String} {e : Entry}
    (h : b.entryOf ⟨f, b.key f c, c⟩ (b.session compiler f).result = .ok e) :
    Cache.Lasts directory (b.key f c) e :=
  fun hsome =>
    ⟨b.isDigest_key f c, ⟨isShort_of_entryOf (hshort hsome) h, isApart_of_entryOf h⟩⟩

/-- Compiling a pending unit serves its task. -/
theorem compile_of_going {directory : Option Disk.Place} (hcompiler : NeverCancels compiler)
    (hshort : directory ≠ none → compiler.RefusesShort) {s : Progress} (hs : Going l directory s)
    {c : List String} (hclosure : t.closure = .ok c) :
    ∃ u made l' s', b.compile compiler s ⟨t.file, b.key t.file c, c⟩ = (.ok u, s') ∧
      b.Serves compiler l t u made l' ∧ Going l' directory s' ∧
      s'.calls = made.reverse ++ s.calls := by
  obtain ⟨s₁, hlook, hs₁, hdirectory⟩ := hs.keeps.lookup (b.key t.file c)
  obtain ⟨u, made, s', heq, h⟩ | ⟨store, -, hflight, -⟩ :=
    b.compile_cases compiler s ⟨t.file, b.key t.file c, c⟩
  · have hdirectory' := hdirectory.trans hs.directory
    refine ⟨u, made, ?_⟩
    cases h with
    | calledOff cancelled =>
      rw [hs.on] at cancelled
      exact absurd cancelled (by simp)
    | found look =>
      obtain ⟨hl, rfl⟩ := Prod.mk.inj (hlook.symm.trans look)
      exact ⟨l, _, heq, .cached hclosure (Except.ok.inj hl), ⟨hs₁, hs.on, hdirectory'⟩, rfl⟩
    | tooDeep look => exact absurd (Prod.mk.inj (hlook.symm.trans look)).1 (by simp)
    | crashed look outcome =>
      obtain ⟨hl, rfl⟩ := Prod.mk.inj (hlook.symm.trans look)
      exact ⟨l, _, heq, .crashed hclosure (Except.ok.inj hl) outcome,
        ⟨hs₁, hcompiler _ _ _, hdirectory'⟩, rfl⟩
    | unstored look outcome kept =>
      obtain ⟨hl, rfl⟩ := Prod.mk.inj (hlook.symm.trans look)
      obtain ⟨s₂, hstored, -⟩ :=
        hs₁.store (lasts_of_entryOf (fun hsome => hshort (hdirectory' ▸ hsome)) outcome)
      exact absurd (Prod.mk.inj (hstored.symm.trans kept)).1 (by simp)
    | compiled look outcome kept =>
      obtain ⟨hl, rfl⟩ := Prod.mk.inj (hlook.symm.trans look)
      obtain ⟨s₂, hstored, hkeeps, hsame⟩ :=
        hs₁.store (lasts_of_entryOf (fun hsome => hshort (hdirectory' ▸ hsome)) outcome)
      obtain ⟨-, rfl⟩ := Prod.mk.inj (hstored.symm.trans kept)
      exact ⟨_, _, heq, .compiled hclosure (Except.ok.inj hl) outcome,
        ⟨hkeeps, hcompiler _ _ _, hsame.trans hdirectory'⟩, rfl⟩
  · rw [hs.keeps.idle] at hflight
    exact absurd hflight List.not_mem_nil

end Batch

/-! ## Series of services -/

/-- A task of a turn that was served. -/
structure Service where
  turn : Turn
  task : Task
  result : UnitResult
  calls : List Call

/-- A series of services over a ledger, and the ledger afterwards. -/
inductive Serving : Ledger → List Service → Ledger → Prop where
  | nil (l : Ledger) : Serving l [] l
  | cons {l l' l'' : Ledger} {v : Service} {vs : List Service}
    (first : v.turn.batch.Serves v.turn.compiler l v.task v.result v.calls l')
    (rest : Serving l' vs l'') : Serving l (v :: vs) l''

namespace Serving

variable {l l' l'' : Ledger} {vs ws : List Service}

theorem append (h : Serving l vs l') (h' : Serving l' ws l'') : Serving l (vs ++ ws) l'' := by
  induction h with
  | nil => exact h'
  | cons first _ ih => exact .cons first (ih h')

/-- A series splits at every point. -/
theorem split (h : Serving l (vs ++ ws) l'') : ∃ l', Serving l vs l' ∧ Serving l' ws l'' := by
  induction vs generalizing l with
  | nil => exact ⟨l, .nil l, h⟩
  | cons v vs ih =>
    cases h with
    | cons first rest =>
      obtain ⟨l', hvs, hws⟩ := ih rest
      exact ⟨l', .cons first hvs, hws⟩

/-- What stands in the ledger stays over a whole series. -/
theorem within (h : Serving l vs l') : l.Within l' := by
  induction h with
  | nil l => exact .refl l
  | cons first _ ih => exact first.within.trans ih

/-- Each service of a series stands between an earlier and a later ledger. -/
theorem of_mem (h : Serving l vs l') {v : Service} (hv : v ∈ vs) :
    ∃ l₁ l₂, l.Within l₁ ∧ v.turn.batch.Serves v.turn.compiler l₁ v.task v.result v.calls l₂ ∧
      l₂.Within l' := by
  induction h with
  | nil => exact absurd hv List.not_mem_nil
  | cons first rest ih =>
    rcases List.mem_cons.1 hv with rfl | hv
    · exact ⟨_, _, .refl _, first, rest.within⟩
    · obtain ⟨l₁, l₂, hwithin, hserves, hafter⟩ := ih hv
      exact ⟨l₁, l₂, first.within.trans hwithin, hserves, hafter⟩

end Serving

/-- Services are those of a report: they serve the tasks of its turn in order. -/
structure Accounts (t : Turn) (r : Report) (vs : List Service) : Prop where
  turn : ∀ v ∈ vs, v.turn = t
  tasks : vs.map (·.task) = t.batch.tasks
  results : r.result.results = vs.map (·.result)
  calls : r.calls = vs.flatMap (·.calls)

/-- Services are those of reports, one report after the other. -/
inductive Booked : List (Turn × Report) → List Service → Prop where
  | nil : Booked [] []
  | cons {t : Turn} {r : Report} {rs : List (Turn × Report)} {vs ws : List Service}
    (first : Accounts t r vs) (rest : Booked rs ws) : Booked ((t, r) :: rs) (vs ++ ws)

open Batch in
/-- The second stage serves the tasks one after the other, over a ledger that holds what the first
stage found. -/
theorem Turn.finish_of_going {t : Turn} {directory : Option Disk.Place}
    (hcompiler : NeverCancels t.compiler) (hshort : directory ≠ none → t.compiler.RefusesShort)
    {l₀ l : Ledger} (hwithin : l₀.Within l) {s : Progress} (hs : Going l directory s)
    (ts : List Task) :
    ∃ vs l' s', t.batch.finish t.compiler s (ts.map (t.batch.decideOver l₀))
        = (.ok (vs.map (·.result)), s') ∧
      Serving l vs l' ∧ (∀ v ∈ vs, v.turn = t) ∧ vs.map (·.task) = ts ∧ Going l' directory s' ∧
      s'.calls = (vs.flatMap (·.calls)).reverse ++ s.calls := by
  induction ts generalizing l s with
  | nil => exact ⟨[], l, s, rfl, .nil l, by simp, rfl, hs, rfl⟩
  | cons task ts ih =>
    rw [List.map_cons]
    cases hd : t.batch.decideOver l₀ task with
    | decided u =>
      obtain ⟨vs, l', s', hfinish, hserving, hturn, htasks, hgoing, hcalls⟩ := ih hwithin hs
      refine ⟨⟨t, task, u, []⟩ :: vs, l', s', ?_, .cons (serves_of_decideOver hwithin hd) hserving,
        ?_, ?_, hgoing, hcalls⟩
      · simp only [finish, hfinish, List.map_cons]
        rfl
      · exact List.forall_mem_cons.2 ⟨rfl, hturn⟩
      · rw [List.map_cons, htasks]
    | pending p =>
      obtain ⟨c, hclosure, rfl⟩ := closure_of_decideOver hd
      obtain ⟨u, made, l₁, s₁, hcompile, hserves, hs₁, hcalls₁⟩ :=
        compile_of_going (b := t.batch) hcompiler hshort hs hclosure
      obtain ⟨vs, l', s', hfinish, hserving, hturn, htasks, hgoing, hcalls⟩ :=
        ih (hwithin.trans hserves.within) hs₁
      refine ⟨⟨t, task, u, made⟩ :: vs, l', s', ?_, .cons hserves hserving, ?_, ?_, hgoing, ?_⟩
      · simp only [finish, hcompile, hfinish, List.map_cons]
        rfl
      · exact List.forall_mem_cons.2 ⟨rfl, hturn⟩
      · rw [List.map_cons, htasks]
      · rw [hcalls, hcalls₁, List.flatMap_cons, List.reverse_append, List.append_assoc]

open Batch in
/-- A turn over a store that keeps a ledger serves its tasks one after the other. -/
theorem Turn.run_of_keeps {t : Turn} (hopen : t.context.closed = false)
    (hcompiler : NeverCancels t.compiler) {l : Ledger} {s : Store} (hs : Keeps s l)
    (hshort : s.directory ≠ none → t.compiler.RefusesShort) :
    ∃ r vs l', t.run s = .ok r ∧ Accounts t r vs ∧ Serving l vs l' ∧ Keeps r.store l' ∧
      r.store.directory = s.directory := by
  obtain ⟨s₁, hdecided, hs₁, hdirectory⟩ := decideTasks_of_keeps (b := t.batch) hs t.batch.tasks
  obtain ⟨vs, l', s', hfinish, hserving, hturn, htasks, hgoing, hcalls⟩ :=
    Turn.finish_of_going hcompiler hshort (.refl l) (s := ⟨s₁, [], false⟩)
      ⟨hs₁, rfl, hdirectory⟩ t.batch.tasks
  rw [Turn.run_eq, hopen, execute_eq, hdecided]
  simp only [hfinish, Bool.false_eq_true, if_false, Context.report]
  refine ⟨_, vs, l', rfl, ⟨hturn, htasks, rfl, ?_⟩, hserving, hgoing.keeps, hgoing.directory⟩
  rw [hcalls, List.append_nil, List.reverse_reverse]

/-- A history over a store that keeps a ledger is one series of services, whose reports come out one
after the other.  The store may be opened again where it has a directory. -/
theorem outcomes_serves {directory : Option Disk.Place} {events : List Event}
    (hopen : ∀ t ∈ turns events, t.context.closed = false)
    (hcompiler : ∀ t ∈ turns events, NeverCancels t.compiler)
    (hshort : directory ≠ none → ∀ t ∈ turns events, t.compiler.RefusesShort)
    (hreopen : ∀ limit, .reopen limit ∈ events → limit = none ∧ directory ≠ none) {l : Ledger}
    {s : Store} (hs : Keeps s l) (hdirectory : s.directory = directory) :
    ∃ rs vs l', outcomes s events = rs.map (fun r => (r.1, .ok r.2)) ∧ Booked rs vs ∧
      Serving l vs l' := by
  induction events generalizing s l with
  | nil => exact ⟨[], [], l, rfl, .nil, .nil l⟩
  | cons event events ih =>
    have hrest : ∀ limit, .reopen limit ∈ events → limit = none ∧ directory ≠ none :=
      fun limit h => hreopen limit (List.mem_cons_of_mem _ h)
    cases event with
    | batch t =>
      rw [turns_batch] at hopen hcompiler hshort
      obtain ⟨hopenHere, hopen⟩ := List.forall_mem_cons.1 hopen
      obtain ⟨hcompilerHere, hcompiler⟩ := List.forall_mem_cons.1 hcompiler
      obtain ⟨r, vs, l₁, hrun, haccounts, hserving, hkeeps, hsame⟩ :=
        Turn.run_of_keeps hopenHere hcompilerHere hs
          fun hsome => hshort (hdirectory ▸ hsome) t List.mem_cons_self
      obtain ⟨rs, ws, l', houtcomes, hbooked, hserving'⟩ :=
        ih hopen hcompiler (fun hsome t' ht' => hshort hsome t' (List.mem_cons_of_mem _ ht')) hrest
          hkeeps (hsame.trans hdirectory)
      refine ⟨(t, r) :: rs, vs ++ ws, l', ?_, .cons haccounts hbooked, hserving.append hserving'⟩
      rw [outcomes, hrun, List.map_cons]
      exact congrArg _ houtcomes
    | reopen limit =>
      obtain ⟨rfl, hsome⟩ := hreopen limit List.mem_cons_self
      exact ih hopen hcompiler hshort hrest (hs.reopen (hdirectory ▸ hsome)) hdirectory

end Build

end SheetBuild
