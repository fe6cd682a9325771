import SheetBuild.Proofs.Build.Serving
set_option autoImplicit false

/-!
# One compilation for each key

Over a whole history of batches, each key is compiled to an entry at most once: until then the compiler
breaks down on every unit with the key, and from then on every such unit gets the entry, from memory or
from disk (`run_once_per_key`).  A batch that comes again gives the units that it gave entries the same
entries, and calls the compiler for none of them.
-/

namespace SheetBuild.Build

open SheetBuild.Cache (Ledger Store Vacant)
open SheetBuild.Compile (Compiler)

/-- The units of reports, each with its turn, in the order in which they were served. -/
def units (rs : List (Turn × Report)) : List (Turn × UnitResult) :=
  rs.flatMap fun r => r.2.result.results.map fun u => (r.1, u)

/-- A unit that comes again has its key again.  Where it did not break down it has its entry again, and
is not among the calls. -/
structure Again (calls : List Call) (u v : UnitResult) : Prop where
  path : v.path = u.path
  key : v.origin.key? = u.origin.key?
  entry : u.crashed = false → v.entry = u.entry
  uncalled : u.crashed = false → v.path ∉ calls.map (·.path)

/-- In a series of reports, one compilation serves all units with one key. -/
structure OncePerKey (rs : List (Turn × Report)) : Prop where
  /-- the calls of a batch are for the units that were compiled or broke down -/
  called : ∀ r ∈ rs, r.2.calls.map (·.path)
    = (r.2.result.results.filter fun u => u.compiled || u.crashed).map (·.path)
  /-- and those that did not break down are for the units that were compiled -/
  settled : ∀ r ∈ rs, (r.2.calls.filter (r.1.batch.isSettled r.1.compiler)).map (·.path)
    = (r.2.result.results.filter (·.compiled)).map (·.path)
  /-- before a unit is compiled, the compiler broke down on all units with its key, and after it they
  get what it came to -/
  once : ∀ front t u back key, units rs = front ++ (t, u) :: back → u.origin = .compiled key →
    ∃ e, t.batch.Yields t.compiler u.path key e ∧ u.entry = e.ascribe u.path ∧
      (∀ v ∈ front, v.2.origin.key? = some key → v.2.crashed = true) ∧
      ∀ v ∈ back, v.2.origin.key? = some key →
        v.2.fromCache = true ∧ v.2.entry = e.ascribe v.2.path
  /-- a batch that comes again finds its units settled -/
  again : rs.Pairwise fun r r' => r.1.batch = r'.1.batch →
    List.Forall₂ (Again r'.2.calls) r.2.result.results r'.2.result.results

/-! ## The services behind the reports -/

section Services

variable {t t' : Turn} {r r' : Report} {rs : List (Turn × Report)} {vs ws : List Service}
  {l l' : Ledger} {key : String}

theorem Accounts.tasked (h : Accounts t r vs) {v : Service} (hv : v ∈ vs) :
    v.turn.batch.Tasked v.task := by
  rw [h.turn v hv]
  refine Batch.tasked_of_mem_tasks v.task ?_
  rw [← h.tasks]
  exact List.mem_map_of_mem hv

theorem Booked.units (h : Booked rs vs) :
    Build.units rs = vs.map fun v => (v.turn, v.result) := by
  induction h with
  | nil => rfl
  | @cons t r rs vs ws first _ ih =>
    have hhere : r.result.results.map (fun u => (t, u)) = vs.map fun v => (v.turn, v.result) := by
      rw [first.results, List.map_map]
      refine List.map_congr_left fun v hv => ?_
      rw [first.turn v hv]
      rfl
    rw [List.map_append, ← ih, ← hhere]
    rfl

theorem Booked.tasked (h : Booked rs vs) {v : Service} (hv : v ∈ vs) :
    v.turn.batch.Tasked v.task := by
  induction h with
  | nil => exact absurd hv List.not_mem_nil
  | cons first _ ih =>
    rcases List.mem_append.1 hv with hv | hv
    · exact first.tasked hv
    · exact ih hv

/-- The services of each report are served over a later ledger. -/
theorem Booked.of_mem (h : Booked rs vs) (hserving : Serving l vs l') (hr : (t, r) ∈ rs) :
    ∃ ws l₁ l₂, Accounts t r ws ∧ l.Within l₁ ∧ Serving l₁ ws l₂ := by
  induction h generalizing l with
  | nil => exact absurd hr List.not_mem_nil
  | @cons _ _ _ vs ws first _ ih =>
    obtain ⟨l₁, hvs, hws⟩ := hserving.split
    rcases List.mem_cons.1 hr with heq | hr
    · obtain ⟨rfl, rfl⟩ := Prod.mk.inj heq
      exact ⟨vs, l, l₁, first, .refl l, hvs⟩
    · obtain ⟨us, l₂, l₃, haccounts, hwithin, hus⟩ := ih hws hr
      exact ⟨us, l₂, l₃, haccounts, hvs.within.trans hwithin, hus⟩

/-- The calls of a series are those of its units that were compiled or broke down. -/
theorem Serving.called (h : Serving l vs l') :
    (vs.flatMap (·.calls)).map (·.path)
      = ((vs.map (·.result)).filter fun u => u.compiled || u.crashed).map (·.path) := by
  induction h with
  | nil => rfl
  | @cons _ _ _ v vs first _ ih =>
    have hfirst := first.called
    rw [List.flatMap_cons, List.map_append, ih, hfirst, List.map_cons, ← List.map_append,
      ← List.filter_append, List.singleton_append]

theorem Accounts.called (h : Accounts t r vs) (hserving : Serving l vs l') :
    r.calls.map (·.path)
      = (r.result.results.filter fun u => u.compiled || u.crashed).map (·.path) := by
  rw [h.calls, h.results, hserving.called]

theorem Accounts.settled (h : Accounts t r vs) (hserving : Serving l vs l') :
    (r.calls.filter (t.batch.isSettled t.compiler)).map (·.path)
      = (r.result.results.filter (·.compiled)).map (·.path) := by
  rw [h.calls, h.results]
  have hturn := h.turn
  have htasked := fun v => h.tasked (v := v)
  clear h
  induction hserving with
  | nil => rfl
  | @cons _ _ _ v vs first _ ih =>
    have hfirst := first.settled (htasked v List.mem_cons_self)
    rw [hturn v List.mem_cons_self] at hfirst
    rw [List.flatMap_cons, List.filter_append, List.map_append, hfirst,
      ih (fun w hw => hturn w (List.mem_cons_of_mem _ hw))
        (fun w hw => htasked w (List.mem_cons_of_mem _ hw)),
      List.map_cons, ← List.map_append, ← List.filter_append, List.singleton_append]

/-- Before a key stands in the ledger, the compiler breaks down on every unit with it. -/
theorem Serving.crashed_of_missing (h : Serving l vs l') (hmissing : l' key = none) {v : Service}
    (hv : v ∈ vs) (hkey : v.result.origin.key? = some key) : v.result.crashed = true := by
  obtain ⟨l₁, l₂, -, hserves, hafter⟩ := h.of_mem hv
  by_contra hcrashed
  obtain ⟨e, he, -⟩ := hserves.written hkey (by simpa using hcrashed)
  rw [hafter key e he] at hmissing
  exact absurd hmissing (by simp)

/-- Once a key stands in the ledger, every unit with it gets the entry. -/
theorem Serving.of_there (h : Serving l vs l') {e : Entry} (hthere : l key = some e) {v : Service}
    (hv : v ∈ vs) (hkey : v.result.origin.key? = some key) :
    v.result.fromCache = true ∧ v.result.entry = e.ascribe v.result.path := by
  obtain ⟨l₁, l₂, hbefore, hserves, -⟩ := h.of_mem hv
  exact hserves.of_there hkey (hbefore key e hthere)

theorem Booked.once (h : Booked rs vs) (hserving : Serving l vs l')
    {front back : List (Turn × UnitResult)} {u : UnitResult}
    (hunits : Build.units rs = front ++ (t, u) :: back) (horigin : u.origin = .compiled key) :
    ∃ e, t.batch.Yields t.compiler u.path key e ∧ u.entry = e.ascribe u.path ∧
      (∀ v ∈ front, v.2.origin.key? = some key → v.2.crashed = true) ∧
      ∀ v ∈ back, v.2.origin.key? = some key →
        v.2.fromCache = true ∧ v.2.entry = e.ascribe v.2.path := by
  rw [h.units] at hunits
  obtain ⟨before, rest, rfl, rfl, hrest⟩ := List.map_eq_append_iff.1 hunits
  obtain ⟨w, after, rfl, hw, rfl⟩ := List.map_eq_cons_iff.1 hrest
  obtain ⟨rfl, rfl⟩ := Prod.mk.inj hw
  obtain ⟨l₁, hbefore, hserving⟩ := hserving.split
  cases hserving with
  | cons hserves hafter =>
    have htasked : w.turn.batch.Tasked w.task := h.tasked (by simp)
    obtain ⟨hmissing, e, hthere, hyields, hentry⟩ := hserves.of_compiled htasked horigin
    refine ⟨e, hyields, hentry, ?_, ?_⟩
    · intro v hv hkey
      obtain ⟨x, hx, rfl⟩ := List.mem_map.1 hv
      exact hbefore.crashed_of_missing hmissing hx hkey
    · intro v hv hkey
      obtain ⟨x, hx, rfl⟩ := List.mem_map.1 hv
      exact hafter.of_there hthere hx hkey

/-- The units of a report have different paths. -/
theorem Accounts.nodup (h : Accounts t r vs) (hserving : Serving l vs l') :
    (r.result.results.map (·.path)).Nodup := by
  have hpaths : r.result.results.map (·.path) = t.batch.entries.map (·.path) := by
    rw [h.results, ← Batch.map_file_tasks, ← h.tasks, List.map_map, List.map_map, List.map_map]
    refine List.map_congr_left fun v hv => ?_
    obtain ⟨_, _, -, hserves, -⟩ := hserving.of_mem hv
    exact hserves.path
  rw [hpaths]
  exact (Batch.pairwise_path_entries t.batch).imp fun h => String.ne_of_lt h

/-- The compiler is not called for a unit that got its entry from the ledger, or that has no key. -/
theorem Accounts.uncalled (h : Accounts t r vs) (hserving : Serving l vs l') {u : UnitResult}
    (hu : u ∈ r.result.results) (hsettled : (u.compiled || u.crashed) = false) :
    u.path ∉ r.calls.map (·.path) := by
  rw [h.called hserving]
  intro hmem
  obtain ⟨v, hv, hpath⟩ := List.mem_map.1 hmem
  obtain ⟨hv, hclass⟩ := List.mem_filter.1 hv
  obtain rfl := List.inj_on_of_nodup_map (h.nodup hserving) hv hu hpath
  rw [hsettled] at hclass
  exact absurd hclass (by simp)

/-- A task that was served before is served again as it was, unless it broke down. -/
theorem Accounts.again (h : Accounts t r vs) (hserving : Serving l vs l') {l₁ l₂ : Ledger}
    (hwithin : l'.Within l₁) (h' : Accounts t' r' ws) (hserving' : Serving l₁ ws l₂)
    (hbatch : t.batch = t'.batch) {v w : Service} (hv : v ∈ vs) (hw : w ∈ ws)
    (htask : v.task = w.task) : Again r'.calls v.result w.result := by
  obtain ⟨_, lv, -, hserves, hafter⟩ := hserving.of_mem hv
  obtain ⟨lw, _, hbefore, hserves', -⟩ := hserving'.of_mem hw
  rw [h.turn v hv] at hserves
  rw [h'.turn w hw, ← hbatch, ← htask] at hserves'
  have hpath : w.result.path = v.result.path := hserves'.path.trans hserves.path.symm
  have hkey : w.result.origin.key? = v.result.origin.key? := hserves'.key.trans hserves.key.symm
  have hmem : w.result ∈ r'.result.results := by
    rw [h'.results]
    exact List.mem_map_of_mem hw
  cases hk : v.result.origin.key? with
  | none =>
    obtain ⟨e, he, hfailed⟩ := hserves.of_unkeyed hk
    obtain ⟨e', he', hfailed'⟩ := hserves'.of_unkeyed (hkey.trans hk)
    obtain rfl := Except.error.inj (he.symm.trans he')
    refine ⟨hpath, hkey, fun _ => by rw [hfailed, hfailed'], fun _ => ?_⟩
    exact h'.uncalled hserving' hmem (by rw [hfailed']; rfl)
  | some key =>
    refine ⟨hpath, hkey, ?_, ?_⟩
    · intro hcrashed
      obtain ⟨e, he, hentry⟩ := hserves.written hk hcrashed
      have hthere := hbefore key e (hwithin key e (hafter key e he))
      rw [(hserves'.of_there (hkey.trans hk) hthere).2, hentry, hpath]
    · intro hcrashed
      obtain ⟨e, he, -⟩ := hserves.written hk hcrashed
      have hthere := hbefore key e (hwithin key e (hafter key e he))
      have hcached := (hserves'.of_there (hkey.trans hk) hthere).1
      exact h'.uncalled hserving' hmem (UnitResult.compiled_or_crashed_of_fromCache hcached)

/-- Lists that a function takes to one list are related where its values are equal. -/
theorem forall₂_of_map_eq {α β : Type} {f : α → β} {R : α → α → Prop} {as bs : List α}
    (h : as.map f = bs.map f) (hR : ∀ a ∈ as, ∀ b ∈ bs, f a = f b → R a b) :
    List.Forall₂ R as bs := by
  induction as generalizing bs with
  | nil =>
    obtain rfl := List.map_eq_nil_iff.1 h.symm
    exact .nil
  | cons a as ih =>
    obtain ⟨b, bs, rfl, hab, hrest⟩ := List.map_eq_cons_iff.1 h.symm
    refine .cons (hR a List.mem_cons_self b List.mem_cons_self hab.symm) (ih hrest.symm ?_)
    intro a' ha' b' hb'
    exact hR a' (List.mem_cons_of_mem _ ha') b' (List.mem_cons_of_mem _ hb')

theorem Booked.pairwise_again (h : Booked rs vs) (hserving : Serving l vs l') :
    rs.Pairwise fun r r' => r.1.batch = r'.1.batch →
      List.Forall₂ (Again r'.2.calls) r.2.result.results r'.2.result.results := by
  induction h generalizing l with
  | nil => exact .nil
  | @cons t r rs vs ws first rest ih =>
    obtain ⟨l₁, hvs, hws⟩ := hserving.split
    refine List.pairwise_cons.2 ⟨?_, ih hws⟩
    rintro ⟨t', r'⟩ hr' hbatch
    obtain ⟨us, l₂, l₃, haccounts, hwithin, hus⟩ := rest.of_mem hws hr'
    have htasks : vs.map (·.task) = us.map (·.task) := by
      rw [first.tasks, haccounts.tasks, hbatch]
    rw [first.results, haccounts.results, List.forall₂_map_left_iff, List.forall₂_map_right_iff]
    exact forall₂_of_map_eq htasks fun v hv w hw =>
      first.again hvs hwithin haccounts hus hbatch hv hw

end Services

/-- Where the batches of a history share a store without a limit, which holds nothing to begin with, no
batch is called off, and compilers refuse at places that can be read again, every batch comes to a
report, and over all reports each key is compiled to an entry at most once.  A store with a directory
may be opened again between batches. -/
theorem run_once_per_key {directory : Option Disk.Place} {disk : Disk.Tree}
    (hvacant : ∀ d, directory = some d → Vacant disk d) {events : List Event}
    (hopen : ∀ t ∈ turns events, t.context.closed = false)
    (hcompiler : ∀ t ∈ turns events, NeverCancels t.compiler)
    (hshort : directory ≠ none → ∀ t ∈ turns events, t.compiler.RefusesShort)
    (hreopen : ∀ limit, .reopen limit ∈ events → limit = none ∧ directory ≠ none) :
    ∃ rs, outcomes { directory, disk } events = rs.map (fun r => (r.1, .ok r.2)) ∧
      OncePerKey rs := by
  obtain ⟨rs, vs, l', houtcomes, hbooked, hserving⟩ :=
    outcomes_serves hopen hcompiler hshort hreopen (Store.keeps_nothing hvacant) rfl
  refine ⟨rs, houtcomes, ?_, ?_, ?_, hbooked.pairwise_again hserving⟩
  · rintro ⟨t, r⟩ hr
    obtain ⟨ws, l₁, l₂, haccounts, -, hws⟩ := hbooked.of_mem hserving hr
    exact haccounts.called hws
  · rintro ⟨t, r⟩ hr
    obtain ⟨ws, l₁, l₂, haccounts, -, hws⟩ := hbooked.of_mem hserving hr
    exact haccounts.settled hws
  · intro front t u back key hunits horigin
    exact hbooked.once hserving hunits horigin

/-! ## Two sheets with one key -/

/-- An engine that refuses every sheet. -/
def strict : Compile.Engine := fun _ => .finish (.error (.reported "no"))

/-- A build of one sheet, whose text is the same for all paths. -/
def sole (path : String) : Turn where
  context := {}
  compiler := strict.compiler none
  files := .ofList [.labelled path "b" "1"]
  target := none

/-- Two sheets one after the other, and the first one again when the store has been opened again. -/
def rounds : List Event := [.batch (sole "a.scss"), .batch (sole "b.scss"), .reopen none,
  .batch (sole "a.scss")]

/-- The first sheet is compiled once, and the failure is served from memory to the other one, and from
disk when the first one comes again. -/
theorem once_rounds : ∃ rs,
    outcomes { directory := some ["cache"] } rounds = rs.map (fun r => (r.1, .ok r.2)) ∧
      OncePerKey rs ∧
      (units rs).map (fun u => (u.2.path, u.2.fromCache))
        = [("a.scss", false), ("b.scss", true), ("a.scss", true)] := by
  have hserved : ((outcomes { directory := some ["cache"] } rounds).flatMap fun o =>
      match o.2 with
      | .ok r => r.result.results.map fun u => (u.path, u.fromCache)
      | .error _ => []) = [("a.scss", false), ("b.scss", true), ("a.scss", true)] := by
    decide +kernel
  have hvacant : ∀ d, some ["cache"] = some d → Vacant {} d := by
    rintro d ⟨⟩
    exact Cache.vacant_empty (by decide) (by decide)
  have hturns : ∀ t ∈ turns rounds, ∃ path, t = sole path := by
    intro t ht
    simp only [rounds, turns_batch, turns_reopen, List.mem_cons] at ht
    rcases ht with rfl | rfl | rfl | ht
    · exact ⟨_, rfl⟩
    · exact ⟨_, rfl⟩
    · exact ⟨_, rfl⟩
    · exact absurd ht List.not_mem_nil
  have hopen : ∀ t ∈ turns rounds, t.context.closed = false := by
    intro t ht
    obtain ⟨path, rfl⟩ := hturns t ht
    rfl
  have hcompiler : ∀ t ∈ turns rounds, NeverCancels t.compiler := by
    intro t ht f o load
    obtain ⟨path, rfl⟩ := hturns t ht
    rfl
  have hshort : some ["cache"] ≠ none → ∀ t ∈ turns rounds, t.compiler.RefusesShort := by
    intro _ t ht
    obtain ⟨path, rfl⟩ := hturns t ht
    exact strict.refusesShort none
  have hreopen : ∀ limit, .reopen limit ∈ rounds → limit = none ∧ some ["cache"] ≠ none := by
    intro limit h
    refine ⟨?_, by simp⟩
    simpa [rounds] using h
  obtain ⟨rs, houtcomes, honce⟩ := run_once_per_key hvacant hopen hcompiler hshort hreopen
  refine ⟨rs, houtcomes, honce, ?_⟩
  rw [houtcomes, List.flatMap_map] at hserved
  rw [units, List.map_flatMap, ← hserved]
  simp only [List.map_map]
  rfl

/-! ## A failure that is compiled again -/

/-- A build of one sheet, which the compiler refuses in a line. -/
def refusedIn (line : Int) : Turn where
  context := {}
  compiler := fun _ _ => .finish (.error (.rejected { message := "no", line }))
  files := .ofList [.labelled "a.scss" "b" "1"]
  target := none

/-- The refusal as an entry. -/
def refusalIn (line : Int) : Entry where
  outcome := .failed ⟨.compiler, "no", none, some line, none⟩

theorem tasks_refusedIn (line : Int) :
    ∃ t, (refusedIn line).batch.tasks = [t] ∧ t.closure = .ok [] ∧ t.file.path = "a.scss" := by
  have hbatch : (refusedIn line).batch = (sole "a.scss").batch := rfl
  have hshape : (sole "a.scss").batch.tasks.map (fun t => (t.closure.toOption, t.file.path))
      = [(some [], "a.scss")] := by
    decide +kernel
  rw [hbatch]
  obtain ⟨t, htasks, ht⟩ := List.map_eq_singleton_iff.1 hshape
  obtain ⟨hclosure, hpath⟩ := Prod.mk.inj ht
  refine ⟨t, htasks, ?_, hpath⟩
  cases hc : t.closure with
  | error e => simp [hc, Except.toOption] at hclosure
  | ok c =>
    rw [hc] at hclosure
    exact congrArg Except.ok (Option.some.inj hclosure)

section Refused

variable {line : Int} {s : Store}

/-- Where nothing is in memory, and the disk holds nothing that lasts, the sheet is compiled, and the
disk holds nothing that lasts afterwards. -/
theorem run_refusedIn (hlong : ¬ Number.Integer.IsShort line)
    (hnothing : s.Mirrors (some ["cache"]) fun _ => none)
    (hforgotten : ∀ key, s.memory.find? key = none) (hidle : s.inFlight = []) :
    ∃ r, (refusedIn line).run s = .ok r ∧
      (r.calls.filter ((refusedIn line).batch.isSettled (refusedIn line).compiler)).map (·.path)
        = ["a.scss"] ∧
      r.store.Mirrors (some ["cache"]) fun _ => none := by
  obtain ⟨t, htasks, hclosure, hpath⟩ := tasks_refusedIn line
  generalize hb : (refusedIn line).batch = b at htasks
  have ht : b.Tasked t := Batch.tasked_of_mem_tasks t (htasks ▸ List.mem_singleton.2 rfl)
  let p : Batch.Pending := ⟨t.file, b.key t.file [], []⟩
  have hentry : b.entryOf p (b.session (refusedIn line).compiler t.file).result
      = .ok (refusalIn line) := rfl
  have hlost : ¬ (Cache.isDigest p.key = true ∧ (refusalIn line).IsShort) := by
    rintro ⟨-, hshort⟩
    exact hlong ((hshort _ rfl).line _ rfl)
  obtain ⟨s₁, hlook, hnothing₁, hmemory⟩ := hnothing.lookup_of_forgotten (hforgotten p.key)
  have hforgotten₁ : ∀ key, s₁.memory.find? key = none := by
    intro key
    cases hfind : s₁.memory.find? key with
    | none => rfl
    | some e =>
      rcases hmemory key e hfind with hs | hs
      · exact absurd ((hforgotten key).symm.trans hs) (by simp)
      · exact absurd hs (by simp)
  obtain ⟨s₂, hlook₁, hnothing₂, -⟩ := hnothing₁.lookup_of_forgotten (hforgotten₁ p.key)
  have hidle₁ : s₁.inFlight = [] := by
    rw [← hidle, ← Store.inFlight_lookup s p.key, hlook]
  -- the compilation comes to the refusal, whether or not that can be stored
  have hcompile : ∃ u s₃, b.compile (refusedIn line).compiler ⟨s₁, [], false⟩ p = (.ok u, s₃) ∧
      s₃.calls = [b.callFor (refusedIn line).compiler t.file] ∧
      s₃.store.Mirrors (some ["cache"]) fun _ => none := by
    obtain ⟨u, made, s₃, heq, hc⟩ | ⟨store, -, hflight, -⟩ :=
      b.compile_cases (refusedIn line).compiler ⟨s₁, [], false⟩ p
    · refine ⟨u, s₃, heq, ?_⟩
      have hmissing : ∀ answer store, s₁.lookup p.key = (answer, store) →
          answer = .ok none ∧ store = s₂ := by
        intro answer store look
        exact Prod.mk.inj (look.symm.trans hlook₁)
      cases hc with
      | calledOff cancelled => exact absurd cancelled (by simp)
      | found look => exact absurd (hmissing _ _ look).1 (by simp)
      | tooDeep look => exact absurd (hmissing _ _ look).1 (by simp)
      | crashed look outcome => exact absurd (outcome.symm.trans hentry) (by simp)
      | unstored look outcome kept =>
        obtain rfl := Except.ok.inj (outcome.symm.trans hentry)
        obtain ⟨-, rfl⟩ := hmissing _ _ look
        have hstored := hnothing₂.store_undocumented hlost
        rw [kept] at hstored
        exact ⟨rfl, hstored.claim p.key⟩
      | compiled look outcome kept =>
        obtain rfl := Except.ok.inj (outcome.symm.trans hentry)
        obtain ⟨-, rfl⟩ := hmissing _ _ look
        have hstored := hnothing₂.store_undocumented hlost
        rw [kept] at hstored
        exact ⟨rfl, hstored⟩
    · rw [show p.key ∈ s₁.inFlight ↔ False by simp [hidle₁]] at hflight
      exact hflight.elim
  obtain ⟨u, s₃, hc, hcalls, hnothing₃⟩ := hcompile
  have hexecuted : b.execute (refusedIn line).compiler s = (.ok ([u], s₃.calls.reverse), s₃.store) := by
    have hdecided : b.decideTask s t = (.ok (.pending p), s₁) := by
      simp only [Batch.decideTask, hclosure]
      rw [hlook]
    simp only [Batch.execute_eq, htasks, Batch.decideTasks, hdecided, Except.map, Batch.finish, hc]
  have hclosed : (refusedIn line).context.closed = false := rfl
  refine ⟨_, by rw [Turn.run_eq, hclosed, hb, hexecuted]; rfl, ?_, hnothing₃⟩
  have hsettled := Batch.isSettled_of_entryOf (Batch.mem_of_mem_entries ht.entry) hentry
  simp only [hcalls, List.reverse_singleton]
  rw [List.filter_cons_of_pos hsettled]
  exact congrArg (fun path => [path]) hpath

end Refused

/-- A refusal in a line with too long a number is compiled once, and once more when the store has been
opened again: it has no document that it could be read from. -/
theorem settled_again : ∃ r r',
    outcomes { directory := some ["cache"] } [.batch (refusedIn (10 ^ Number.Integer.maxDigits)),
        .reopen none, .batch (refusedIn (10 ^ Number.Integer.maxDigits))]
      = [(refusedIn (10 ^ Number.Integer.maxDigits), .ok r),
        (refusedIn (10 ^ Number.Integer.maxDigits), .ok r')] ∧
    ∀ report ∈ [r, r'], (report.calls.filter ((refusedIn (10 ^ Number.Integer.maxDigits)).batch.isSettled
      (refusedIn (10 ^ Number.Integer.maxDigits)).compiler)).map (·.path) = ["a.scss"] := by
  have hlong : ¬ Number.Integer.IsShort (10 ^ Number.Integer.maxDigits) := Number.Integer.not_isShort_power
  generalize (10 : Int) ^ Number.Integer.maxDigits = line at hlong ⊢
  have hvacant : Vacant {} ["cache"] := Cache.vacant_empty (by decide) (by decide)
  have hnothing : Store.Mirrors (some ["cache"]) (fun _ => none) { directory := some ["cache"] } :=
    .nothing rfl rfl (by simp) fun _ hd => Option.some.inj hd ▸ hvacant.stocked
  obtain ⟨r, hrun, hcalls, hafter⟩ := run_refusedIn hlong hnothing (fun _ => rfl) rfl
  have hreopened : ∀ key, (r.store.reopen none).memory.find? key = none := fun _ => rfl
  obtain ⟨r', hrun', hcalls', -⟩ := run_refusedIn hlong (hafter.reopen none) hreopened rfl
  refine ⟨r, r', ?_, ?_⟩
  · simp only [outcomes, hrun, leftBy, hrun']
  · simp only [List.forall_mem_cons]
    exact ⟨hcalls, hcalls', by simp⟩

end SheetBuild.Build
