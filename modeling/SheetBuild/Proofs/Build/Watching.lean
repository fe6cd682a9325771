import SheetBuild.Build.Artifact
import SheetBuild.Proofs.Build.History
import SheetBuild.Proofs.Cache.Provenance
set_option autoImplicit false

/-!
# Watched dependencies

A unit that is served under a key lists the dependencies of the unit that was compiled under that key,
which may be of another batch.  Since the key determines the closure, the list is the closure of the
unit itself, in its own batch, and its artifact watches it (`watchesClosures_of_mem_outcomes`).
Neither a limit on the memory nor opening the store again changes that.
-/

namespace SheetBuild.Build

open SheetBuild.Cache (Store)
open SheetBuild.Cache.Store (Only)
open SheetBuild.Compile (Compiler)
open SheetBuild.Import (Graph)

namespace Batch

variable {b : Batch} {compiler : Compiler} {P : String → Entry → Prop}

/-- An entry lists the dependencies of a unit of a batch that has a key. -/
def Lists (b : Batch) (key : String) (e : Entry) : Prop :=
  ∃ f ∈ b.entries, ∃ c, b.graph.Walk f.path c ∧ e.dependencies = c.map .whole ∧ b.key f c = key

/-- A unit that has a key, and that was neither called off nor broken down, was served with an entry
that has a property together with the key. -/
def Served (b : Batch) (P : String → Entry → Prop) (u : UnitResult) : Prop :=
  ∀ k, u.origin.key? = some k → u.crashed = false → u.origin ≠ .cancelled k →
    ∃ f ∈ b.entries, ∃ c e, u.path = f.path ∧ b.graph.Walk f.path c ∧ b.key f c = k ∧
      u.entry = e.ascribe f.path ∧ P k e

/-- What a compilation comes to lists the dependencies of its unit. -/
theorem Proper.lists {p : Pending} (hp : b.Proper p) {e : Entry}
    (h : b.entryOf p (b.session compiler p.file).result = .ok e) : b.Lists p.key e := by
  have hdependencies : e.dependencies = p.closure.map .whole := by
    unfold entryOf at h
    split at h
    · exact Except.ok.inj h ▸ rfl
    · exact Except.ok.inj h ▸ rfl
    · exact absurd h (by simp)
    · exact absurd h (by simp)
    · exact absurd h (by simp)
  exact ⟨p.file, hp.entry, p.closure, hp.walk, hdependencies, hp.key.symm⟩

/-- What a decision says of a unit: how it was served, or what waits to be compiled. -/
def DecidedOnly (b : Batch) (P : String → Entry → Prop) : Decision → Prop
  | .decided u => b.Served P u
  | .pending p => b.Proper p

/-- A decision keeps the property of the entries in the store. -/
theorem Decides.only {t : Task} (ht : b.Tasked t) {s s' : Store} (hs : Only P s) {d : Decision}
    (h : b.Decides s t d s') : Only P s' ∧ b.DecidedOnly P d := by
  cases h with
  | unkeyed closure =>
    refine ⟨hs, ?_⟩
    intro k hk
    exact absurd hk (by simp)
  | found closure look =>
    obtain ⟨hs', hP⟩ := hs.lookup look
    refine ⟨hs', ?_⟩
    intro k hk _ _
    obtain rfl := Option.some.inj hk
    exact ⟨t.file, ht.entry, _, _, rfl, (ht.walk _).1 closure, rfl, rfl, hP _ rfl⟩
  | missing closure look =>
    exact ⟨(hs.lookup look).1, ht.entry, (ht.walk _).1 closure, rfl⟩

/-- So does a compilation, which serves the unit, if what it comes to has the property. -/
theorem Compiles.only {p : Pending} (hp : b.Proper p)
    (hmade : ∀ e, b.entryOf p (b.session compiler p.file).result = .ok e → P p.key e)
    {s s' : Progress} (hs : Only P s.store) {u : UnitResult} {made : List Call}
    (h : b.Compiles compiler p s u made s') : Only P s'.store ∧ b.Served P u := by
  cases h with
  | calledOff =>
    refine ⟨hs, ?_⟩
    intro k hk _ hcancelled
    obtain rfl := Option.some.inj hk
    exact absurd rfl hcancelled
  | found look =>
    obtain ⟨hs', hP⟩ := hs.lookup look
    refine ⟨hs', ?_⟩
    intro k hk _ _
    obtain rfl := Option.some.inj hk
    exact ⟨p.file, hp.entry, p.closure, _, rfl, hp.walk, hp.key.symm, rfl, hP _ rfl⟩
  | tooDeep look =>
    refine ⟨(hs.lookup look).1, ?_⟩
    intro k _ hcrashed
    exact absurd hcrashed (by simp)
  | crashed look =>
    refine ⟨(hs.lookup look).1, ?_⟩
    intro k _ hcrashed
    exact absurd hcrashed (by simp)
  | unstored look outcome kept =>
    have hstored := (hs.lookup look).1.store (isApart_of_entryOf outcome) (hmade _ outcome)
    rw [kept] at hstored
    refine ⟨hstored.claim p.key, ?_⟩
    intro k _ hcrashed
    exact absurd hcrashed (by simp)
  | compiled look outcome kept =>
    have hP := hmade _ outcome
    have hstored := (hs.lookup look).1.store (isApart_of_entryOf outcome) hP
    rw [kept] at hstored
    refine ⟨hstored, ?_⟩
    intro k hk _ _
    obtain rfl := Option.some.inj hk
    exact ⟨p.file, hp.entry, p.closure, _, rfl, hp.walk, hp.key.symm, rfl, hP⟩

/-- What every lookup, decision and compilation keeps of a store, and says of its unit, holds of a whole
batch. -/
theorem execute_invariant (compiler : Compiler) {I : Store → Prop} {Q : UnitResult → Prop}
    (hlooks : ∀ s key found s', I s → s.lookup key = (found, s') → I s')
    (hdecides : ∀ t, b.Tasked t → ∀ s d s', I s → b.Decides s t d s' →
      I s' ∧ ∀ u, d = .decided u → Q u)
    (hcompiles : ∀ p, b.Proper p → ∀ s u made s', I s.store → b.Compiles compiler p s u made s' →
      I s'.store ∧ Q u)
    {s : Store} (hs : I s) :
    I (b.execute compiler s).2 ∧
      ∀ results calls, (b.execute compiler s).1 = .ok (results, calls) → ∀ u ∈ results, Q u := by
  have hdecide : ∀ t ∈ b.tasks, ∀ s d s', I s → b.Decides s t d s' →
      I s' ∧ (∀ u, d = .decided u → Q u) ∧ ∀ p, d = .pending p → b.Proper p := by
    intro t ht s d s' hs hd
    have htasked := tasked_of_mem_tasks t ht
    obtain ⟨hs', hQ⟩ := hdecides t htasked s d s' hs hd
    refine ⟨hs', hQ, ?_⟩
    rintro p rfl
    exact hd.proper htasked
  have hfirst := b.decideTasks_invariant hdecide hs
  rw [execute_eq]
  cases hdecided : b.decideTasks s b.tasks with
  | mk answer s₁ =>
    rw [hdecided] at hfirst
    cases answer with
    | error e =>
      obtain ⟨t, -, s₂, hs₂, herror⟩ := hfirst
      obtain ⟨c, -, hlook⟩ := lookup_of_decideTask_eq_error herror
      exact ⟨hlooks _ _ _ _ hs₂ hlook, fun results calls h => absurd h (by simp)⟩
    | ok ds =>
      obtain ⟨hs₁, hds⟩ := hfirst
      have hcompile : ∀ p, .pending p ∈ ds → ∀ s u s', I s.store →
          b.compile compiler s p = (.ok u, s') → I s'.store ∧ Q u := by
        intro p hp s u s' hs heq
        obtain ⟨t, -, -, hproper⟩ := exists_mem_left_of_forall₂ hds hp
        obtain ⟨made, h⟩ := compiles_of_compile heq
        exact hcompiles p (hproper p rfl) s u made s' hs h
      have hsecond :=
        b.finish_invariant (I := fun s => I s.store) compiler hcompile (s := ⟨s₁, [], false⟩) hs₁
      simp only
      revert hsecond
      generalize b.finish compiler ⟨s₁, [], false⟩ ds = finished
      obtain ⟨answer, s'⟩ := finished
      cases answer with
      | error e =>
        rintro ⟨p, -, s₂, hs₂, hstuck⟩
        obtain ⟨-, -, store, hlook, rfl⟩ := stuck_of_compile hstuck
        exact ⟨hlooks _ _ _ _ hs₂ hlook, fun results calls h => absurd h (by simp)⟩
      | ok us =>
        rintro ⟨hs', hresults⟩
        refine ⟨hs', ?_⟩
        intro results calls heq u hu
        obtain ⟨rfl, -⟩ := Prod.mk.inj (Except.ok.inj heq)
        obtain ⟨d, hd, hfinished⟩ := exists_mem_left_of_forall₂ hresults hu
        cases d with
        | decided r =>
          obtain ⟨t, -, hQ, -⟩ := exists_mem_left_of_forall₂ hds hd
          exact hQ u (congrArg Decision.decided hfinished.symm)
        | pending p => exact hfinished

/-- A batch keeps the property of the entries in the store, and serves its units with such entries. -/
theorem only_execute (compiler : Compiler) (hlists : ∀ key e, b.Lists key e → P key e) {s : Store}
    (hs : Only P s) :
    Only P (b.execute compiler s).2 ∧
      ∀ results calls, (b.execute compiler s).1 = .ok (results, calls) →
        ∀ u ∈ results, b.Served P u := by
  refine b.execute_invariant compiler (fun s key found s' hs look => (hs.lookup look).1) ?_ ?_ hs
  · intro t ht s d s' hs hd
    obtain ⟨honly, hdecided⟩ := hd.only ht hs
    refine ⟨honly, ?_⟩
    rintro u rfl
    exact hdecided
  · intro p hp s u made s' hs h
    exact h.only hp (fun e he => hlists _ _ (hp.lists he)) hs

end Batch

/-- What a batch keeps of a store and says of its units holds of a turn. -/
theorem Turn.invariant {t : Turn} {I : Store → Prop} {Q : UnitResult → Prop} {s : Store} (hs : I s)
    (hexecute : I (t.batch.execute t.compiler s).2 ∧
      ∀ results calls, (t.batch.execute t.compiler s).1 = .ok (results, calls) →
        ∀ u ∈ results, Q u) :
    I (leftBy s (t.run s)) ∧ ∀ report, t.run s = .ok report →
      report.context.graph = some t.batch.graph ∧ ∀ u ∈ report.result.results, Q u := by
  obtain ⟨hs', hunits⟩ := hexecute
  rw [Turn.run_eq]
  cases t.context.closed with
  | true => exact ⟨hs, fun report h => absurd h (by simp)⟩
  | false =>
    generalize t.batch.execute t.compiler s = executed at hs' hunits
    obtain ⟨answer, s'⟩ := executed
    cases answer with
    | error e => cases e <;> exact ⟨hs', fun report h => absurd h (by simp [Context.report])⟩
    | ok made =>
      refine ⟨hs', ?_⟩
      intro report h
      obtain rfl := Except.ok.inj h
      exact ⟨rfl, hunits _ _ rfl⟩

/-- A turn keeps the property of the entries in the store, and serves its units with such entries. -/
theorem Turn.only {t : Turn} {P : String → Entry → Prop}
    (hlists : ∀ key e, t.batch.Lists key e → P key e) {s : Store} (hs : Only P s) :
    Only P (leftBy s (t.run s)) ∧ ∀ report, t.run s = .ok report →
      report.context.graph = some t.batch.graph ∧
        ∀ u ∈ report.result.results, t.batch.Served P u :=
  Turn.invariant hs (Batch.only_execute t.compiler hlists hs)

/-- A unit lists its closure as its dependencies, and if it succeeded its artifact watches them. -/
structure Watches (g : Graph) (u : UnitResult) : Prop where
  closure : ∀ memo, g.Asked memo →
    ∃ c, (g.closure memo u.path).1 = .ok c ∧ u.entry.dependencies = c.map .whole
  watched : u.entry.succeeded = true → ∃ outputPath text sourceMap,
    Artifact.ofUnit u = .ok (.compiled u.path outputPath text sourceMap u.entry.dependencies)

theorem watches_of_entry {b : Batch} {f : SourceFile} (hf : f ∈ b.entries) {u : UnitResult}
    {c : List String} (hpath : u.path = f.path) (hwalk : b.graph.Walk u.path c)
    (hlists : u.entry.dependencies = c.map .whole) : Watches b.graph u where
  closure := fun memo hm => ⟨c, (Graph.closure_eq_ok_iff hm).2 hwalk, hlists⟩
  watched := by
    intro hsucceeded
    have hpartial : Path.isPartial u.path.toList = false := by
      obtain ⟨-, hentry⟩ := Batch.mem_entries.1 hf
      simp only [SourceFile.isEntryFor, SourceFile.isPartial, Bool.and_eq_true,
        Bool.not_eq_true'] at hentry
      rw [hpath]
      exact hentry.1.2
    unfold Artifact.ofUnit
    rw [if_neg (by simp [hpartial])]
    cases ho : u.entry.outcome with
    | css text => exact ⟨_, _, _, rfl⟩
    | failed d => simp [Entry.succeeded, Entry.diagnostic?, ho] at hsucceeded

/-- A report leaves the graph of its batch, over which every unit that has a key, and was neither
broken down nor called off, watches its closure. -/
structure Report.WatchesClosures (r : Report) (b : Batch) : Prop where
  graph : r.context.graph = some b.graph
  units : ∀ u ∈ r.result.results, ∀ key, u.origin.key? = some key → u.crashed = false →
    u.origin ≠ .cancelled key → Watches b.graph u

/-- Where batches share a store that held no documents when it was opened, and digests are told apart,
every unit that has a key, and was neither broken down nor called off, lists exactly its own closure
in its own batch, and its artifact watches that. -/
theorem watches_of_mem_outcomes {directory : Option Disk.Place} {limit : Option Int}
    {disk : Disk.Tree} {s : Store} (hnew : Store.new directory limit disk = .ok s)
    (hblank : ∀ d, directory = some d → Cache.Blank disk d) {events : List Event}
    (hcf : Digest.CollisionFree ((turns events).flatMap (·.batch.digested))) :
    ∀ o ∈ outcomes s events, ∀ report, o.2 = .ok report → report.WatchesClosures o.1.batch := by
  -- every entry of the store lists the dependencies of a unit of one of the batches
  have hlists : ∀ t ∈ turns events, ∀ key e, t.batch.Lists key e →
      ∃ t ∈ turns events, t.batch.Lists key e :=
    fun t ht key e h => ⟨t, ht, h⟩
  refine outcomes_invariant
    (I := Only fun key e => ∃ t ∈ turns events, t.batch.Lists key e)
    (Q := fun t outcome => ∀ report, outcome = .ok report → report.WatchesClosures t.batch) ?_
    (fun s limit hs => hs.reopen limit) (Store.only_of_new hblank hnew)
  intro t ht s hs
  obtain ⟨hs', hserved⟩ := Turn.only (hlists t ht) hs
  refine ⟨hs', ?_⟩
  intro report hreport
  obtain ⟨hgraph, hunits⟩ := hserved report hreport
  refine ⟨hgraph, ?_⟩
  intro u hu key hkey hcrashed hcancelled
  obtain ⟨f, hf, c, e, hpath, hwalk, hc, hentry, t', ht', f', hf', c', hwalk', hlisted, hc'⟩ :=
    hunits u hu key hkey hcrashed hcancelled
  have hboth : Digest.CollisionFree (t.batch.digested ++ t'.batch.digested) := by
    refine hcf.of_subset ?_
    intro m hm
    rcases List.mem_append.1 hm with hm | hm
    · exact List.mem_flatMap.2 ⟨t, ht, hm⟩
    · exact List.mem_flatMap.2 ⟨t', ht', hm⟩
  have hclosure : c = c' :=
    Batch.closure_eq_of_key_eq hboth hf hf' hwalk hwalk' (hc.trans hc'.symm)
  refine watches_of_entry hf hpath (hpath ▸ hwalk) ?_
  rw [hentry, Entry.dependencies_ascribe, hlisted, hclosure]

/-! ## A unit served from disk -/

/-- A compiler that gives every sheet one text. -/
def uniform : Compiler := fun _ _ => .finish (.ok ⟨"b", none⟩)

/-- A sheet that imports a partial. -/
def earlier : Turn where
  context := {}
  compiler := uniform
  files := .ofList [.labelled "a.scss" "@import 'm';" "1", .labelled "_m.scss" "" "2"]
  target := none

/-- Another sheet with the same text, beside the same partial. -/
def later : Turn where
  context := {}
  compiler := uniform
  files := .ofList [.labelled "_m.scss" "" "2", .labelled "z.scss" "@import 'm';" "1"]
  target := none

/-- A store for one entry, with a directory that is not there yet. -/
def narrow : Store where
  memory := { limit := some ⟨1, Nat.one_pos⟩ }
  directory := some ["cache"]

/-- The sheets one after the other, with the store opened again in between. -/
def days : List Event := [.batch earlier, .reopen (some 1), .batch later]

/-- A unit is served from disk, and watches its closure. -/
theorem watches_days : ∃ o ∈ outcomes narrow days, ∃ report, o.2 = .ok report ∧
    ∃ u ∈ report.result.results, u.fromCache = true ∧ Watches o.1.batch.graph u := by
  have hcached : (outcomes narrow days).any (fun o =>
      match o.2 with
      | .ok report => report.result.results.any (·.fromCache)
      | .error _ => false) = true := by
    decide +kernel
  have hnew : Store.new (some ["cache"]) (some 1) {} = .ok narrow := rfl
  have hblank : ∀ d, some ["cache"] = some d → Cache.Blank {} d := by
    intro d _ p hp content hfile
    obtain ⟨name, names, rfl⟩ := Disk.Place.isBelow_iff.1 hp
    simp [Disk.Tree.node?] at hfile
  have hcf : Digest.CollisionFree ((turns days).flatMap (·.batch.digested)) := by decide +kernel
  obtain ⟨o, ho, hany⟩ := List.any_eq_true.1 hcached
  have hwatches := watches_of_mem_outcomes hnew hblank hcf o ho
  cases hreport : o.2 with
  | error e =>
    rw [hreport] at hany
    exact absurd hany (by simp)
  | ok report =>
    rw [hreport] at hany
    obtain ⟨u, hu, hfrom⟩ := List.any_eq_true.1 hany
    refine ⟨o, ho, report, hreport, u, hu, hfrom, ?_⟩
    obtain ⟨key, horigin⟩ := UnitResult.fromCache_iff.1 hfrom
    refine (hwatches report hreport).units u hu key ?_ ?_ ?_
    · simp [horigin]
    · simp [UnitResult.crashed, horigin]
    · simp [horigin]

end SheetBuild.Build
