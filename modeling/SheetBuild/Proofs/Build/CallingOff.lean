import SheetBuild.Proofs.Build.InTurn
set_option autoImplicit false

/-!
# Batches that are called off

When the compiler calls a batch off, the unit that it is called for is still served, and the units
behind it that were to be compiled are not.  Nothing else differs from the batch that goes on: the
units up to that one, and those that were decided before anything was compiled, have the results
that they have there.  So the same batch, when it runs once more and goes on to the end, makes up
for what was left out (`run_calledOff`).
-/

namespace SheetBuild

open SheetBuild.Cache (Content Store)
open SheetBuild.Cache.Store (Extends SameReplies Unbounded)

/-! ## Compilers that go on -/

namespace Compile

/-- The session that does the same and never calls the build off. -/
def Session.steadfast {α : Type} : Session α → Session α
  | .finish a => .finish a
  | .ask r i k => .ask r i fun reply => (k reply).steadfast
  | .cancel next => next.steadfast

theorem Session.run_steadfast {α : Type} (load : Loader) (s : Session α) :
    s.steadfast.run load = ⟨(s.run load).result, (s.run load).requests, false⟩ := by
  induction s with
  | finish a => rfl
  | ask r i k ih => simp only [steadfast, run, ih]
  | cancel s ih => exact ih

/-- The compiler that does the same and never calls the build off. -/
def Compiler.steadfast (compiler : Compiler) : Compiler := fun f o => (compiler f o).steadfast

end Compile

namespace Build

open SheetBuild.Compile (Compiler)

namespace Batch

variable {b : Batch} {compiler : Compiler} {s s' : Store} {t : Task} {ts : List Task} {q : Progress}

theorem session_steadfast (f : SourceFile) : b.session compiler.steadfast f
    = ⟨(b.session compiler f).result, (b.session compiler f).requests, false⟩ :=
  Compile.Session.run_steadfast b.load (compiler f b.options)

theorem callFor_steadfast (f : SourceFile) :
    b.callFor compiler.steadfast f = b.callFor compiler f := by
  rw [callFor, callFor, session_steadfast]

theorem serve_steadfast (s : Store) (t : Task) :
    b.serve compiler.steadfast s t = b.serve compiler s t := by
  simp only [serve, session_steadfast, callFor_steadfast]

theorem serveAll_steadfast (s : Store) (ts : List Task) :
    b.serveAll compiler.steadfast s ts = b.serveAll compiler s ts := by
  induction ts generalizing s with
  | nil => rfl
  | cons t ts ih => rw [serveAll_cons, serveAll_cons, serve_steadfast, ih]

theorem callsOff_steadfast (call : Call) : b.callsOff compiler.steadfast call = false := by
  unfold callsOff
  split
  · rfl
  · rw [session_steadfast]

/-- Where a call does not call the batch off, it is noted alike. -/
theorem called_steadfast {path : String} {f : SourceFile} {store : Store}
    (h : (q.called path (b.session compiler f) store).cancelled = false) :
    q.called path (b.session compiler.steadfast f) store
      = q.called path (b.session compiler f) store := by
  have hquiet : (b.session compiler f).cancelled = false := h
  simp only [Progress.called, session_steadfast, hquiet]

/-- As long as a unit does not call the batch off, it makes no difference whether it could. -/
theorem compile_steadfast {p : Pending} (h : (b.compile compiler q p).2.cancelled = false) :
    b.compile compiler.steadfast q p = b.compile compiler q p := by
  rw [compile, ← session] at h
  rw [compile, compile, ← session, ← session]
  split
  · rfl
  · rename_i hon
    rw [if_neg hon] at h
    have hresult : (b.session compiler.steadfast p.file).result
        = (b.session compiler p.file).result := by
      rw [session_steadfast]
    simp only [hresult] at h ⊢
    revert h
    generalize q.store.getOrCompute p.key (fun store =>
      (b.entryOf p (b.session compiler p.file).result, store)) = replied
    obtain ⟨reply | reply, store⟩ := replied
    · cases reply with
      | failed reason => exact fun h => congrArg _ (called_steadfast h)
      | tooDeep e => exact fun _ => rfl
      | unstored e => exact fun h => congrArg _ (called_steadfast h)
      | waiting => exact fun _ => rfl
    · simp only
      split
      · exact fun h => congrArg _ (called_steadfast h)
      · exact fun _ => rfl

/-! ## The second stage -/

/-- The result of a decision once the batch is called off. -/
def calledOff (b : Batch) : Decision → UnitResult
  | .decided u => u
  | .pending p => .ofCancelled p.file.path b.target p.key

/-- Once the batch is called off, nothing is compiled. -/
theorem finish_of_cancelled (h : q.cancelled = true) (ds : List Decision) :
    b.finish compiler q ds = (.ok (ds.map b.calledOff), q) := by
  induction ds with
  | nil => rfl
  | cons d ds ih =>
    cases d with
    | decided u =>
      simp only [finish, ih, List.map_cons, calledOff]
      rfl
    | pending p =>
      have hcompile : b.compile compiler q p = (.ok (.ofCancelled p.file.path b.target p.key), q) := by
        rw [compile, if_pos h]
      simp only [finish, hcompile, ih, List.map_cons, calledOff]
      rfl

/-- A batch that is not called off in the end was not called off before. -/
theorem on_of_finish {us : List UnitResult} {q' : Progress} {ds : List Decision}
    (h : b.finish compiler q ds = (.ok us, q')) (hon : q'.cancelled = false) :
    q.cancelled = false := by
  by_contra hoff
  rw [finish_of_cancelled (by simpa using hoff)] at h
  obtain ⟨-, rfl⟩ := Prod.mk.inj h
  exact hoff hon

/-- As long as the batch is not called off, it makes no difference whether it could be. -/
theorem finish_steadfast {ds : List Decision} {us : List UnitResult} {q' : Progress}
    (h : b.finish compiler q ds = (.ok us, q')) (hon : q'.cancelled = false) :
    b.finish compiler.steadfast q ds = (.ok us, q') := by
  induction ds generalizing q us with
  | nil => exact h
  | cons d ds ih =>
    cases d with
    | decided u =>
      rw [finish] at h ⊢
      cases hrest : b.finish compiler q ds with
      | mk answer q₁ =>
        rw [hrest] at h
        cases answer with
        | error e => exact absurd (Prod.mk.inj h).1 (by simp [Except.map])
        | ok rest =>
          obtain ⟨-, rfl⟩ := Prod.mk.inj h
          rw [ih hrest]
          exact h
    | pending p =>
      rw [finish] at h ⊢
      cases hc : b.compile compiler q p with
      | mk answer q₁ =>
        rw [hc] at h
        cases answer with
        | error e => exact absurd (Prod.mk.inj h).1 (by simp)
        | ok u =>
          simp only at h
          cases hrest : b.finish compiler q₁ ds with
          | mk answer q₂ =>
            rw [hrest] at h
            cases answer with
            | error e => exact absurd (Prod.mk.inj h).1 (by simp [Except.map])
            | ok rest =>
              obtain ⟨-, rfl⟩ := Prod.mk.inj h
              have hon₁ : (b.compile compiler q p).2.cancelled = false := by
                rw [hc]
                exact on_of_finish hrest hon
              simp only [compile_steadfast hon₁, hc, ih hrest]
              exact h

/-- Tasks in turn either make no call that calls the batch off, or there is a first one. -/
theorem exists_first_callsOff (b : Batch) (compiler : Compiler) (s : Store) (ts : List Task) :
    (∀ call ∈ (b.serveAll compiler s ts).calls, b.callsOff compiler call = false) ∨
    ∃ front t back, ts = front ++ t :: back ∧
      (∀ call ∈ (b.serveAll compiler s front).calls, b.callsOff compiler call = false) ∧
      (b.serve compiler (b.serveAll compiler s front).store t).calls = [b.callFor compiler t.file] ∧
      b.callsOff compiler (b.callFor compiler t.file) = true := by
  induction ts generalizing s with
  | nil => exact .inl fun call hcall => absurd hcall List.not_mem_nil
  | cons t ts ih =>
    have hcomes := b.comes_serve compiler s t
    by_cases hoff : (b.serve compiler s t).calls = [b.callFor compiler t.file] ∧
        b.callsOff compiler (b.callFor compiler t.file) = true
    · exact .inr ⟨[], t, ts, rfl, fun call hcall => absurd hcall List.not_mem_nil, hoff⟩
    have hquiet : ∀ call ∈ (b.serve compiler s t).calls, b.callsOff compiler call = false := by
      intro call hcall
      rcases hcomes.calls with hnone | hone
      · rw [hnone] at hcall
        exact absurd hcall List.not_mem_nil
      · rw [hcomes.eq_of_mem_calls hcall]
        by_contra h
        exact hoff ⟨hone, by simpa using h⟩
    rcases ih (b.serve compiler s t).store with hrest | ⟨front, t', back, rfl, hfront, hcall, hlast⟩
    · refine .inl fun call hcall => ?_
      rcases List.mem_append.1 hcall with hcall | hcall
      · exact hquiet call hcall
      · exact hrest call hcall
    · refine .inr ⟨t :: front, t', back, rfl, fun call hcall => ?_, hcall, hlast⟩
      rcases List.mem_append.1 hcall with hcall | hcall
      · exact hquiet call hcall
      · exact hfront call hcall

/-- The second stage of a batch that a unit calls off serves the tasks up to that unit in turn, and
compiles nothing behind it. -/
theorem finish_calledOff (hext : s'.Extends s) (h : InStep s q) (hon : q.cancelled = false)
    {front : List Task} (hfiles : ∀ t' ∈ front ++ [t], t'.file ∈ b.files.files)
    (hquiet : ∀ call ∈ (b.serveAll compiler s front).calls, b.callsOff compiler call = false)
    (hcall : (b.serve compiler (b.serveAll compiler s front).store t).calls
      = [b.callFor compiler t.file])
    (hoff : b.callsOff compiler (b.callFor compiler t.file) = true) (back : List Task) :
    ∃ q', b.finish compiler q ((front ++ t :: back).map (b.decideOver s'.found))
        = (.ok ((b.serveAll compiler s (front ++ [t])).result
            ++ back.map fun t' => b.calledOff (b.decideOver s'.found t')), q') ∧
      InStep (b.serveAll compiler s (front ++ [t])).store q' ∧
      q'.calls = (b.serveAll compiler s (front ++ [t])).calls.reverse ++ q.calls := by
  have hfront : ∀ t' ∈ front, t'.file ∈ b.files.files := fun t' ht' =>
    hfiles t' (List.mem_append_left _ ht')
  obtain ⟨q₁, hfinish, h₁, hon₁, hcalls₁⟩ := b.finish_in_turn compiler hext h hon hfront hquiet
  have hext₁ := hext.trans (b.extends_serveAll compiler h.ideal front)
  rw [serveAll_append, List.map_append, finish_append, hfinish, List.map_cons]
  simp only
  -- a unit that makes a call was not decided before
  cases hd : b.decideOver s'.found t with
  | decided u =>
    rw [serve_of_decided hext₁ hd] at hcall
    exact absurd hcall (by simp)
  | pending p =>
    obtain ⟨c, closure, rfl⟩ := closure_of_decideOver hd
    obtain ⟨q₂, hcompile, h₂, hcalls₂, hoff₂⟩ :=
      compile_in_turn compiler h₁ hon₁ (hfiles t (by simp)) closure
    rw [hcall] at hcalls₂ hoff₂
    have hcancelled : q₂.cancelled = true := by simpa [hoff] using hoff₂
    refine ⟨q₂, ?_, h₂, ?_⟩
    · simp [finish, hcompile, finish_of_cancelled hcancelled, serveAll, Except.map]
    · simp [hcalls₂, hcalls₁, serveAll, hcall]

/-! ## The results behind the last unit -/

/-- A unit of the batch has a key for which the store has no reply, so it is to be compiled. -/
def Dispatches (b : Batch) (s : Store) (path : String) : Prop :=
  ∃ f ∈ b.entries, f.path = path ∧ ∃ c, b.graph.Walk path c ∧ s.reply (b.key f c) = .ok none

/-- The results of a unit in a batch that is called off at a path, and in the batch that goes on: a
unit behind the path that was to be compiled is called off with its key, and every other one has its
result. -/
structure Cut (b : Batch) (s : Store) (last : String) (u v : UnitResult) : Prop where
  kept : ¬ (b.Dispatches s v.path ∧ last < v.path) → u = v
  cut : b.Dispatches s v.path → last < v.path →
    ∃ key, v.origin.key? = some key ∧ u = .ofCancelled v.path b.target key

theorem cut_self {last : String} {u : UnitResult} (h : u.path ≤ last) : b.Cut s last u u :=
  ⟨fun _ => rfl, fun _ hlast => absurd hlast (String.not_lt.2 h)⟩

theorem Tasked.dispatches_iff (ht : b.Tasked t) : b.Dispatches s t.file.path ↔
    ∃ c, t.closure = .ok c ∧ s.reply (b.key t.file c) = .ok none := by
  constructor
  · rintro ⟨f, hf, hpath, c, hwalk, hreply⟩
    obtain rfl := eq_of_mem_entries hf ht.entry hpath
    exact ⟨c, (ht.walk c).2 hwalk, hreply⟩
  · rintro ⟨c, hclosure, hreply⟩
    exact ⟨t.file, ht.entry, rfl, c, (ht.walk c).1 hclosure, hreply⟩

/-- What becomes of a unit behind the one that calls the batch off. -/
theorem Tasked.cut (ht : b.Tasked t) (hread : b.Readable s t) (hext : s.Extends s') {last : String}
    (hlast : last < t.file.path) :
    b.Cut s last (b.calledOff (b.decideOver s.found t)) (b.serve compiler s' t).result := by
  have hcomes := b.comes_serve compiler s' t
  have hpath := hcomes.path
  cases hd : b.decideOver s.found t with
  | decided u =>
    rw [serve_of_decided hext hd] at hpath ⊢
    refine ⟨fun _ => rfl, fun hdispatches => ?_⟩
    rw [show u.path = t.file.path from hpath, ht.dispatches_iff] at hdispatches
    obtain ⟨c, hclosure, hreply⟩ := hdispatches
    have hfound := Store.found_of_reply hreply
    simp [decideOver, hclosure, hfound] at hd
  | pending p =>
    obtain ⟨c, hclosure, rfl⟩ := closure_of_decideOver hd
    obtain ⟨found, hreply⟩ := hread c hclosure
    have hmissing : found = none := by
      cases found with
      | none => rfl
      | some e =>
        have hfound := Store.found_of_reply hreply
        simp [decideOver, hclosure, hfound] at hd
    subst hmissing
    have hdispatches : b.Dispatches s t.file.path := ht.dispatches_iff.2 ⟨c, hclosure, hreply⟩
    rw [← hpath] at hdispatches hlast
    refine ⟨fun hkept => absurd ⟨hdispatches, hlast⟩ hkept, fun _ _ => ⟨b.key t.file c, ?_, ?_⟩⟩
    · rw [hcomes.key, hclosure]
      rfl
    · rw [hpath]
      rfl

/-! ## The same batch once more -/

/-- A unit that comes again: it has its key, and its entry unless the compiler broke down on it. -/
structure Repeats (u v : UnitResult) : Prop where
  path : v.path = u.path
  key : v.origin.key? = u.origin.key?
  entry : u.crashed = false → v.entry = u.entry

theorem Repeats.refl (u : UnitResult) : Repeats u u := ⟨rfl, rfl, fun _ => rfl⟩

/-- Where the compilation of a task breaks down, no reply changes, whatever they are. -/
theorem Comes.same_of_breakdown {r : Upshot UnitResult} (h : b.Comes compiler s t r)
    {c : List String} {reason : String} (closure : t.closure = .ok c)
    (outcome : b.entryOf ⟨t.file, b.key t.file c, c⟩ (b.session compiler t.file).result
      = .error reason) : r.store = s := by
  cases h with
  | unstored closure' _ outcome' =>
    obtain rfl := Except.ok.inj (closure.symm.trans closure')
    exact absurd (outcome.symm.trans outcome') (by simp)
  | compiled closure' _ outcome' =>
    obtain rfl := Except.ok.inj (closure.symm.trans closure')
    exact absurd (outcome.symm.trans outcome') (by simp)
  | _ => rfl

/-- A task that comes again over a store which has the replies that it left has its result again,
and changes no reply. -/
theorem repeats_serve (hs : s.Unbounded) (hext : (b.serve compiler s t).store.Extends s') :
    Repeats (b.serve compiler s t).result (b.serve compiler s' t).result ∧
      (b.serve compiler s' t).store = s' := by
  have hcomes := b.comes_serve compiler s t
  have hagain := b.comes_serve compiler s' t
  suffices h : ((b.serve compiler s t).result.crashed = false →
      (b.serve compiler s' t).result.entry = (b.serve compiler s t).result.entry) ∧
      (b.serve compiler s' t).store = s' from
    ⟨⟨hagain.path.trans hcomes.path.symm, hagain.key.trans hcomes.key.symm, h.1⟩, h.2⟩
  generalize b.serve compiler s t = r at hcomes hext
  cases hcomes with
  | unkeyed closure =>
    rw [(Comes.unkeyed closure).serve_eq]
    exact ⟨fun _ => rfl, rfl⟩
  | tooDeep closure reply =>
    rw [(Comes.tooDeep closure ((hext _ (by simp [reply])).trans reply)).serve_eq]
    exact ⟨fun _ => rfl, rfl⟩
  | cached closure reply =>
    rw [(Comes.cached closure ((hext _ (by simp [reply])).trans reply)).serve_eq]
    exact ⟨fun _ => rfl, rfl⟩
  | crashed closure reply outcome =>
    exact ⟨fun hcrashed => absurd hcrashed (by simp), hagain.same_of_breakdown closure outcome⟩
  | @unstored c e _ x closure reply outcome kept =>
    have hstored := Store.reply_store hs reply e
    rw [kept] at hstored
    replace hstored := (((SameReplies.refl x).claim (b.key t.file c)).reply _).trans hstored
    rw [(Comes.cached closure ((hext _ (by simp [hstored])).trans hstored)).serve_eq]
    exact ⟨fun hcrashed => absurd hcrashed (by simp), rfl⟩
  | @compiled _ e _ closure reply outcome kept =>
    have hstored := Store.reply_store hs reply e
    rw [kept] at hstored
    rw [(Comes.cached closure ((hext _ (by simp [hstored])).trans hstored)).serve_eq]
    exact ⟨fun _ => rfl, rfl⟩

/-- Tasks that come again over a store which has the replies that they left have their results
again, and change no reply. -/
theorem repeats_serveAll (hs : s.Unbounded) (hext : (b.serveAll compiler s ts).store.Extends s') :
    List.Forall₂ Repeats (b.serveAll compiler s ts).result (b.serveAll compiler s' ts).result ∧
      (b.serveAll compiler s' ts).store = s' := by
  induction ts generalizing s with
  | nil => exact ⟨.nil, rfl⟩
  | cons t ts ih =>
    have hs₁ := (b.comes_serve compiler s t).unbounded hs
    rw [serveAll_cons] at hext
    obtain ⟨hfirst, hsame⟩ := repeats_serve hs ((b.extends_serveAll compiler hs₁ ts).trans hext)
    obtain ⟨hrest, hsame'⟩ := ih hs₁ hext
    rw [serveAll_cons, serveAll_cons, hsame]
    exact ⟨.cons hfirst hrest, hsame'⟩

/-- A document under a key of the batch is too deep to be read. -/
def Blocks (b : Batch) (s : Store) (e : Json.TooDeep) : Prop :=
  ∃ f ∈ b.entries, ∃ c, b.graph.Walk f.path c ∧ s.reply (b.key f c) = .error e

/-- A document under a key of the batch is too deep to be read, but no way leads to it, so that the
store has no reply. -/
def Lurks (b : Batch) (s : Store) : Prop :=
  ∃ f ∈ b.entries, ∃ c e, b.graph.Walk f.path c ∧ s.reply (b.key f c) = .ok none ∧
    s.Holds (b.key f c) (.tooDeep e)

/-- No document lurks where a way leads to every document. -/
theorem not_lurks (b : Batch) (h : ∀ d key bytes, s.directory = some d → Cache.isDigest key = true →
    s.disk.node? (Cache.documentAt d key) = some (.file bytes) →
    s.disk.find? (Cache.documentPlace d key) = some (.file bytes)) : ¬ b.Lurks s := by
  rintro ⟨f, -, c, e, -, hreply, hheld⟩
  generalize hcontent : Content.tooDeep e = content at hheld
  cases hheld with
  | replied => exact absurd hcontent (by simp)
  | @written d bytes home file =>
    have hdigest := b.isDigest_key f c
    have hfind := h d _ bytes home hdigest file
    have hpersisted : s.persisted (b.key f c) = some (.tooDeep e) :=
      (Store.persisted_eq_iff home hdigest (by simp)).2 ⟨bytes, hfind, hcontent.symm⟩
    rw [Store.reply_of_forgotten (Store.forgotten_of_reply hreply), hpersisted] at hreply
    exact absurd hreply (by simp [Store.replyOf])

/-- A document that turns out to be too deep after some tasks was there before, and out of reach. -/
theorem Tasked.lurks (ht : b.Tasked t) (hts : ∀ t ∈ ts, b.Tasked t) (hread : b.Readable s t)
    (hs : s.Unbounded) {c : List String} {e : Json.TooDeep} (hclosure : t.closure = .ok c)
    (h : (b.serveAll compiler s ts).store.reply (b.key t.file c) = .error e) : b.Lurks s := by
  refine ⟨t.file, ht.entry, c, e, (ht.walk c).1 hclosure, ?_, ?_⟩
  · obtain ⟨found, hfound⟩ := hread c hclosure
    cases found with
    | none => exact hfound
    | some e' =>
      rw [b.extends_serveAll compiler hs ts _ (by simp [hfound]), hfound] at h
      exact absurd h (by simp)
  · rcases holds_serveAll hts hs (Store.holds_of_reply_eq_error h) with hheld | ⟨-, e', he'⟩
    · exact hheld
    · rw [h] at he'
      exact absurd he' (by simp)

/-- After some of the tasks of a batch were served, the whole batch comes to what it comes to from
the start, unless it ends with a document that lurked. -/
theorem execute_again (b : Batch) (compiler : Compiler) (hs : s.Unbounded) (hs' : s'.Unbounded)
    {front back : List Task} (htasks : b.tasks = front ++ back)
    (hread : ∀ t ∈ b.tasks, b.Readable s t)
    (hsame : (b.serveAll compiler s front).store.SameReplies s') :
    (∃ results calls s₁, b.execute compiler.steadfast s' = (.ok (results, calls), s₁) ∧
      List.Forall₂ Repeats (b.serveAll compiler s b.tasks).result results) ∨
    b.Lurks s ∧ ∃ e s₁, b.execute compiler.steadfast s' = (.error (.tooDeep e), s₁) := by
  rw [execute_eq]
  obtain ⟨e, s₁, hdecided, t, ht, c, hclosure, hdeep⟩ | ⟨s₁, hdecided, -, hs₁, hsame₁⟩ :=
    b.decideTasks_of_unbounded hs' b.tasks
  · rw [hsame.reply] at hdeep
    have hfront : ∀ t ∈ front, b.Tasked t := fun t ht =>
      tasked_of_mem_tasks t (htasks ▸ List.mem_append_left _ ht)
    refine .inr ⟨(tasked_of_mem_tasks t ht).lurks hfront (hread t ht) hs hclosure hdeep, e, s₁, ?_⟩
    rw [hdecided]
  · obtain ⟨q, hfinish, -⟩ := b.finish_in_turn compiler.steadfast (q := ⟨s₁, [], false⟩)
      (.refl s') ⟨hs', hs₁, hsame₁⟩ rfl
      (fun t ht => mem_of_mem_entries (tasked_of_mem_tasks t ht).entry)
      (fun call _ => callsOff_steadfast call)
    rw [hdecided]
    simp only [hfinish, serveAll_steadfast]
    refine .inl ⟨_, _, _, rfl, ?_⟩
    rw [htasks, serveAll_append, serveAll_append]
    obtain ⟨hfront, hleft⟩ := repeats_serveAll hs hsame.extendsTo
    refine List.rel_append hfront ?_
    have hx := b.unbounded_serveAll compiler hs front
    rw [hleft, serveAll_of_sameReplies hx hs' hsame]
    exact List.forall₂_same.2 fun u _ => .refl u

end Batch

/-! ## Whole batches -/

/-- What a batch that is called off at a path comes to, beside the batch that goes on. -/
structure CalledOff (b : Batch) (compiler : Compiler) (s : Store) (last : String)
    (report full : Report) : Prop where
  /-- the calls end with the first that calls the batch off, which is for the file at the path -/
  calls : ∃ front call back, full.calls = front ++ call :: back ∧ report.calls = front ++ [call] ∧
    call.path = last ∧ b.callsOff compiler call = true ∧
    ∀ other ∈ front, b.callsOff compiler other = false
  /-- the compiler is not called for any file behind it -/
  upTo : ∀ call ∈ report.calls, call.path ≤ last
  results : List.Forall₂ (b.Cut s last) report.result.results full.result.results
  /-- what the store holds it held before, or a unit of the batch came to it: one that was compiled, or
  one whose entry could not be stored and is in memory only -/
  held : ∀ key content, report.store.Holds key content →
    s.Holds key content ∨ ∃ u ∈ report.result.results, b.Kept compiler s.directory key u

namespace Batch

variable {b : Batch} {compiler : Compiler} {s s' : Store}

/-- The tasks of a batch stand in the order of their paths. -/
theorem pairwise_path_tasks (b : Batch) :
    b.tasks.Pairwise fun t t' => t.file.path < t'.file.path := by
  have hentries := List.pairwise_map.1 b.pairwise_path_entries
  rw [← map_file_tasks] at hentries
  have htasks := List.pairwise_map.1 hentries
  exact htasks

/-- Where a task stands among the tasks of a batch is where its path stands among theirs. -/
theorem path_le_of_tasks {front back : List Task} {t : Task} (h : b.tasks = front ++ t :: back) :
    (∀ t' ∈ front ++ [t], t'.file.path ≤ t.file.path) ∧
      ∀ t' ∈ back, t.file.path < t'.file.path := by
  have horder := b.pairwise_path_tasks
  rw [h] at horder
  obtain ⟨-, hback, hfront⟩ := List.pairwise_append.1 horder
  refine ⟨fun t' ht' => ?_, (List.pairwise_cons.1 hback).1⟩
  rcases List.mem_append.1 ht' with ht' | ht'
  · exact String.not_lt.1 (String.lt_asymm (hfront t' ht' t List.mem_cons_self))
  · exact List.mem_singleton.1 ht' ▸ String.le_refl _

/-- The second stage of a batch that is called off gives what is said of it. -/
theorem calledOff_of_finish {c c' : Context} {front back : List Task} {t : Task} {x : Store}
    (hs : s.Unbounded) (htasks : b.tasks = front ++ t :: back)
    (hread : ∀ t ∈ b.tasks, b.Readable s t)
    (hquiet : ∀ call ∈ (b.serveAll compiler s front).calls, b.callsOff compiler call = false)
    (hcall : (b.serve compiler (b.serveAll compiler s front).store t).calls
      = [b.callFor compiler t.file])
    (hoff : b.callsOff compiler (b.callFor compiler t.file) = true)
    (hsame : (b.serveAll compiler s (front ++ [t])).store.SameReplies x) :
    CalledOff b compiler s t.file.path
      ⟨⟨(b.serveAll compiler s (front ++ [t])).result
          ++ back.map fun t' => b.calledOff (b.decideOver s.found t')⟩, x,
        (b.serveAll compiler s (front ++ [t])).calls, c⟩
      ⟨⟨(b.serveAll compiler s b.tasks).result⟩, s',
        (b.serveAll compiler s b.tasks).calls, c'⟩ := by
  have hsplit : b.tasks = (front ++ [t]) ++ back := by simpa using htasks
  obtain ⟨hupTo, hbehind⟩ := path_le_of_tasks htasks
  refine { calls := ?calls, upTo := ?upTo, results := ?results, held := ?held }
  case calls =>
    have hcalls : (b.serveAll compiler s (front ++ [t])).calls
        = (b.serveAll compiler s front).calls ++ [b.callFor compiler t.file] := by
      simp [serveAll_append, serveAll, hcall]
    refine ⟨_, _, (b.serveAll compiler (b.serveAll compiler s (front ++ [t])).store back).calls, ?_,
      hcalls, rfl, hoff, hquiet⟩
    rw [hsplit, serveAll_append s (front ++ [t]), hcalls, List.append_assoc, List.singleton_append]
  case upTo =>
    intro call hcall
    obtain ⟨t', ht', rfl⟩ := exists_task_of_mem_calls hcall
    exact hupTo t' ht'
  case results =>
    have hx := b.unbounded_serveAll compiler hs (front ++ [t])
    have hext := b.extends_serveAll compiler hs (front ++ [t])
    rw [hsplit, serveAll_append s (front ++ [t])]
    refine List.rel_append (List.forall₂_same.2 fun u hu => cut_self ?_) ?_
    · obtain ⟨t', ht', hpath⟩ := exists_mem_left_of_forall₂ (forall₂_path_serveAll hs _) hu
      exact hpath ▸ hupTo t' ht'
    · rw [List.forall₂_map_left_iff]
      refine forall₂_serveAll hx fun t' ht' s₁ hs₁ => ?_
      have htask : t' ∈ b.tasks := by simp [hsplit, ht']
      exact (tasked_of_mem_tasks t' htask).cut (hread t' htask) (hext.trans hs₁) (hbehind t' ht')
  case held =>
    intro key content hheld
    have hfront : ∀ t' ∈ front ++ [t], b.Tasked t' := fun t' ht' =>
      tasked_of_mem_tasks t' (hsplit ▸ List.mem_append_left _ ht')
    rcases holds_serveAll hfront hs (hsame.holds hheld) with hbefore | ⟨⟨u, hu, hkept⟩, -⟩
    · exact .inl hbefore
    · exact .inr ⟨u, List.mem_append_left _ hu, hkept⟩

theorem execute_of_finish {ds : List Decision} {results : List UnitResult} {q : Progress}
    (hdecided : b.decideTasks s b.tasks = (.ok ds, s'))
    (hfinish : b.finish compiler ⟨s', [], false⟩ ds = (.ok results, q)) :
    b.execute compiler s = (.ok (results, q.calls.reverse), q.store) := by
  rw [execute_eq, hdecided]
  simp only [hfinish]

/-- A batch and the batch that goes on end with the same document, or come to the same, or the first
one is called off. -/
theorem execute_calledOff (b : Batch) (compiler : Compiler) (hs : s.Unbounded) :
    (∃ e s', b.Blocks s e ∧ b.execute compiler s = (.error (.tooDeep e), s') ∧
      b.execute compiler.steadfast s = (.error (.tooDeep e), s')) ∨
    (∃ results calls s', b.execute compiler s = (.ok (results, calls), s') ∧
      b.execute compiler.steadfast s = (.ok (results, calls), s') ∧
      ∀ call ∈ calls, b.callsOff compiler call = false) ∨
    ∃ last results calls s₁ results' calls' s₂,
      b.execute compiler s = (.ok (results, calls), s₁) ∧
      b.execute compiler.steadfast s = (.ok (results', calls'), s₂) ∧
      (∀ c c', CalledOff b compiler s last ⟨⟨results⟩, s₁, calls, c⟩ ⟨⟨results'⟩, s₂, calls', c'⟩) ∧
      ((∃ again more s₃, b.execute compiler.steadfast s₁ = (.ok (again, more), s₃) ∧
        List.Forall₂ Repeats results' again) ∨
      b.Lurks s ∧ ∃ e s₃, b.execute compiler.steadfast s₁ = (.error (.tooDeep e), s₃)) := by
  obtain ⟨e, s₀, hdecided, t, ht, c, hclosure, hdeep⟩ | ⟨s₀, hdecided, hread, hs₀, hsame₀⟩ :=
    b.decideTasks_of_unbounded hs b.tasks
  · have htask := tasked_of_mem_tasks t ht
    refine .inl ⟨e, s₀, ⟨t.file, htask.entry, c, (htask.walk c).1 hclosure, hdeep⟩, ?_, ?_⟩
    · rw [execute_eq, hdecided]
    · rw [execute_eq, hdecided]
  have hfiles : ∀ t ∈ b.tasks, t.file ∈ b.files.files := fun t ht =>
    mem_of_mem_entries (tasked_of_mem_tasks t ht).entry
  have hstep : InStep s ⟨s₀, [], false⟩ := ⟨hs, hs₀, hsame₀⟩
  rcases b.exists_first_callsOff compiler s b.tasks with
    hquiet | ⟨front, t, back, htasks, hquiet, hcall, hoff⟩
  · obtain ⟨q, hfinish, -, hon, hcalls⟩ :=
      b.finish_in_turn compiler (.refl s) hstep rfl hfiles hquiet
    refine .inr (.inl ⟨_, _, _, execute_of_finish hdecided hfinish,
      execute_of_finish hdecided (finish_steadfast hfinish hon), ?_⟩)
    simpa [hcalls] using hquiet
  · obtain ⟨q', hfull, -, -, hcalls'⟩ := b.finish_in_turn compiler.steadfast (.refl s) hstep rfl
      hfiles fun call _ => callsOff_steadfast call
    have hfront : ∀ t' ∈ front ++ [t], t'.file ∈ b.files.files := by
      intro t' ht'
      refine hfiles t' ?_
      rw [htasks]
      simpa using List.mem_append_left back ht'
    obtain ⟨q, hfinish, hq, hcalls⟩ :=
      finish_calledOff (.refl s) hstep rfl hfront hquiet hcall hoff back
    rw [← htasks] at hfinish
    have hexecute := execute_of_finish hdecided hfinish
    have hexecute' := execute_of_finish hdecided hfull
    rw [hcalls, List.append_nil, List.reverse_reverse] at hexecute
    rw [hcalls', List.append_nil, List.reverse_reverse, serveAll_steadfast] at hexecute'
    have hsplit : b.tasks = (front ++ [t]) ++ back := by simpa using htasks
    refine .inr (.inr ⟨t.file.path, _, _, _, _, _, _, hexecute, hexecute', fun c c' => ?_, ?_⟩)
    · exact calledOff_of_finish hs htasks hread hquiet hcall hoff hq.same
    · exact b.execute_again compiler hs hq.actual hsplit hread hq.same

end Batch

open Batch in
theorem run_of_execute {c : Context} (hopen : c.closed = false) {compiler : Compiler} {s s' : Store}
    {files : FileSet} {target : Option String} {results : List UnitResult} {calls : List Call}
    (h : (ofFiles c.options target files).execute compiler s = (.ok (results, calls), s')) :
    run c compiler s files.files target = .ok ⟨⟨results⟩, s', calls,
      { c with graph := some (ofFiles c.options target files).graph }⟩ := by
  rw [run_files hopen, h]
  rfl

open Batch in
theorem run_of_execute_eq_error {c : Context} (hopen : c.closed = false) {compiler : Compiler}
    {s s' : Store} {files : FileSet} {target : Option String} {e : Json.TooDeep}
    (h : (ofFiles c.options target files).execute compiler s = (.error (.tooDeep e), s')) :
    run c compiler s files.files target = .error (.tooDeep e s'
      { c with graph := some (ofFiles c.options target files).graph }) := by
  rw [run_files hopen, h]
  rfl

open Batch in
/-- A batch whose compiler calls it off comes to what the batch comes to that goes on, up to the
unit that it was called off for and except for units behind it that were to be compiled; those are
called off with their keys, the compiler is not called for them, and nothing is stored for them.
The same batch once more makes up for them: each unit has its key again, and its entry unless the
compiler broke down on it.  The store may hold anything to begin with.  What ends a batch is a
document of one of its units that is too deep to be read (`Batch.Blocks`), and it ends the batch
that comes again only where it was out of reach before (`Batch.Lurks`). -/
theorem run_calledOff {c : Context} (hopen : c.closed = false) (compiler : Compiler) {s : Store}
    (hs : s.Unbounded) (files : FileSet) (target : Option String) :
    (∃ e s' c', (ofFiles c.options target files).Blocks s e ∧
      run c compiler s files.files target = .error (.tooDeep e s' c') ∧
      run c compiler.steadfast s files.files target = .error (.tooDeep e s' c')) ∨
    ∃ report full, run c compiler s files.files target = .ok report ∧
      run c compiler.steadfast s files.files target = .ok full ∧
      ((∀ call ∈ full.calls, (ofFiles c.options target files).callsOff compiler call = false) ∧
        report = full ∨
      ∃ last, CalledOff (ofFiles c.options target files) compiler s last report full ∧
        ((∃ again,
          run report.context compiler.steadfast report.store files.files target = .ok again ∧
          List.Forall₂ Repeats full.result.results again.result.results) ∨
        (ofFiles c.options target files).Lurks s ∧ ∃ e s' c',
          run report.context compiler.steadfast report.store files.files target
            = .error (.tooDeep e s' c'))) := by
  rcases (ofFiles c.options target files).execute_calledOff compiler hs with
    ⟨e, s', hblocks, h, h'⟩ | ⟨results, calls, s', h, h', hquiet⟩ |
    ⟨last, results, calls, s₁, results', calls', s₂, h, h', hcalledOff, hagain⟩
  · exact .inl ⟨e, s', _, hblocks, run_of_execute_eq_error hopen h,
      run_of_execute_eq_error hopen h'⟩
  · exact .inr ⟨_, _, run_of_execute hopen h, run_of_execute hopen h', .inl ⟨hquiet, rfl⟩⟩
  · refine .inr ⟨_, _, run_of_execute hopen h, run_of_execute hopen h',
      .inr ⟨last, hcalledOff _ _, ?_⟩⟩
    refine hagain.imp ?_ (And.imp_right ?_)
    · rintro ⟨again, more, s₃, h'', hrepeats⟩
      exact ⟨_, run_of_execute hopen h'', hrepeats⟩
    · rintro ⟨e, s₃, h''⟩
      exact ⟨e, s₃, _, run_of_execute_eq_error hopen h''⟩

/-! ## Two sheets, of which the first calls the batch off -/

/-- Two sheets. -/
def twins : FileSet := .ofList [.labelled "b.scss" "b" "2", .labelled "a.scss" "a" "1"]

/-- A compiler that calls the batch off on the first sheet. -/
def impatient : Compiler := fun f _ =>
  if f.path = "a.scss" then .cancel (.finish (.ok ⟨"a", none⟩)) else .finish (.ok ⟨"b", none⟩)

theorem entries_twins : (Batch.ofFiles {} none twins).entries
    = [.labelled "a.scss" "a" "1", .labelled "b.scss" "b" "2"] :=
  Batch.entries_eq_of_perm_of_pairwise (by decide +kernel) (by decide +kernel)

open Batch in
/-- The second sheet is called off, and the batch that comes again makes up for it. -/
theorem run_twins : ∃ report full again,
    run {} impatient {} twins.files none = .ok report ∧
    run {} impatient.steadfast {} twins.files none = .ok full ∧
    CalledOff (ofFiles {} none twins) impatient {} "a.scss" report full ∧
    run report.context impatient.steadfast report.store twins.files none = .ok again ∧
    List.Forall₂ Repeats full.result.results again.result.results ∧
    report.result.results.map (fun u => (u.path, u.entry.succeeded))
      = [("a.scss", true), ("b.scss", false)] := by
  have hs : ({} : Store).Unbounded := .of_idle rfl rfl
  have hfull : (run {} impatient.steadfast {} twins.files none).toOption.map (·.calls)
      = some [⟨"a.scss", []⟩, ⟨"b.scss", []⟩] := by
    rw [run_files rfl, execute_eq, tasks, entries_twins]
    decide +kernel
  have hresults : (run {} impatient {} twins.files none).toOption.map
      (·.result.results.map fun u => (u.path, u.entry.succeeded))
      = some [("a.scss", true), ("b.scss", false)] := by
    rw [run_files rfl, execute_eq, tasks, entries_twins]
    decide +kernel
  have hfirst : (ofFiles {} none twins).callsOff impatient ⟨"a.scss", []⟩ = true := by
    decide +kernel
  have hsecond : (ofFiles {} none twins).callsOff impatient ⟨"b.scss", []⟩ = false := by
    decide +kernel
  obtain ⟨e, s', c', -, h, -⟩ | ⟨report, full, h, h', hcases⟩ :=
    run_calledOff (c := {}) rfl impatient hs twins none
  · rw [h] at hresults
    exact absurd hresults (by simp [Except.toOption])
  rw [h] at hresults
  rw [h'] at hfull
  have hcalls : full.calls = [⟨"a.scss", []⟩, ⟨"b.scss", []⟩] := Option.some.inj hfull
  obtain ⟨hquiet, -⟩ | ⟨last, hcalledOff, hagain⟩ := hcases
  · rw [hcalls] at hquiet
    exact absurd (hfirst.symm.trans (hquiet _ List.mem_cons_self)) (by simp)
  obtain ⟨front, call, back, hsplit, -, rfl, hoff, -⟩ := hcalledOff.calls
  have hlast : call = ⟨"a.scss", []⟩ := by
    have hmem : call ∈ full.calls := by simp [hsplit]
    rw [hcalls] at hmem
    rcases List.mem_cons.1 hmem with rfl | hmem
    · rfl
    · obtain rfl := List.mem_singleton.1 hmem
      exact absurd (hsecond.symm.trans hoff) (by simp)
  subst hlast
  obtain ⟨again, hrun, hrepeats⟩ | hlurks := hagain
  · exact ⟨report, full, again, h, h', hcalledOff, hrun, hrepeats, Option.some.inj hresults⟩
  · exact absurd hlurks.1 (not_lurks _ fun d _ _ hd => absurd hd (by simp))

end Build

end SheetBuild
