import SheetBuild.Proofs.Build.Serving
import SheetBuild.Proofs.Cache.Replies
set_option autoImplicit false

/-!
# Units in turn

A batch looks all its units up before it compiles any.  Over a store without a limit this does not
show: each unit comes to what it comes to when it is looked up and compiled in its turn, over the
store as the units before it leave it (`serveAll`, `finish_in_turn`).  Here the store may hold
anything to begin with, documents that are too deep and documents out of reach among it, so what
carries the argument are its replies, and not a ledger.
-/

namespace SheetBuild

open SheetBuild.Cache (Content Ledger Store)
open SheetBuild.Cache.Store (Extends SameReplies Unbounded)
open SheetBuild.Compile (Compiler)

/-- The entries that a store finds. -/
def Cache.Store.found (s : Store) : Ledger := fun key =>
  match s.reply key with
  | .ok found => found
  | .error _ => none

theorem Cache.Store.reply_of_found {s : Store} {key : String} {e : Entry}
    (h : s.found key = some e) : s.reply key = .ok (some e) := by
  unfold found at h
  split at h
  · rename_i heq
    rw [heq, h]
  · exact absurd h (by simp)

theorem Cache.Store.found_of_reply {s : Store} {key : String} {found : Option Entry}
    (h : s.reply key = .ok found) : s.found key = found := by
  unfold Store.found
  rw [h]

theorem Cache.Store.SameReplies.found {s s' : Store} (h : s.SameReplies s') :
    s'.found = s.found := by
  funext key
  rw [Store.found, Store.found, h.reply]

namespace Build

/-- What serving comes to: the result of a unit or the results of units, the calls of the compiler,
and the store afterwards. -/
structure Upshot (α : Type) where
  result : α
  calls : List Call
  store : Store

namespace Batch

variable {b : Batch} {compiler : Compiler} {s s' : Store} {t : Task} {ts : List Task}

/-! ## One unit -/

/-- What a task comes to in its turn. -/
def serve (b : Batch) (compiler : Compiler) (s : Store) (t : Task) : Upshot UnitResult :=
  match t.closure with
  | .error e => ⟨.failed t.file.path b.target .unkeyed e.diagnostic, [], s⟩
  | .ok c =>
    match s.reply (b.key t.file c) with
    | .error e => ⟨.ofCrash t.file.path b.target (b.key t.file c) e.message, [], s⟩
    | .ok (some e) =>
      ⟨⟨t.file.path, b.target, e.ascribe t.file.path, .cached (b.key t.file c)⟩, [], s⟩
    | .ok none =>
      match b.entryOf ⟨t.file, b.key t.file c, c⟩ (b.session compiler t.file).result with
      | .error reason => ⟨.ofCrash t.file.path b.target (b.key t.file c) reason,
          [b.callFor compiler t.file], s⟩
      | .ok e =>
        match s.store (b.key t.file c) e with
        | (some failure, s') =>
          ⟨.ofCrash t.file.path b.target (b.key t.file c) failure.message,
            [b.callFor compiler t.file], s'.claim (b.key t.file c)⟩
        | (none, s') => ⟨⟨t.file.path, b.target, e.ascribe t.file.path, .compiled (b.key t.file c)⟩,
            [b.callFor compiler t.file], s'⟩

/-- The ways in which a task is served. -/
inductive Comes (b : Batch) (compiler : Compiler) (s : Store) (t : Task) :
    Upshot UnitResult → Prop where
  | unkeyed {e : Import.ClosureError} (closure : t.closure = .error e) :
    Comes b compiler s t ⟨.failed t.file.path b.target .unkeyed e.diagnostic, [], s⟩
  | tooDeep {c : List String} {e : Json.TooDeep} (closure : t.closure = .ok c)
    (reply : s.reply (b.key t.file c) = .error e) :
    Comes b compiler s t ⟨.ofCrash t.file.path b.target (b.key t.file c) e.message, [], s⟩
  | cached {c : List String} {e : Entry} (closure : t.closure = .ok c)
    (reply : s.reply (b.key t.file c) = .ok (some e)) :
    Comes b compiler s t
      ⟨⟨t.file.path, b.target, e.ascribe t.file.path, .cached (b.key t.file c)⟩, [], s⟩
  | crashed {c : List String} {reason : String} (closure : t.closure = .ok c)
    (reply : s.reply (b.key t.file c) = .ok none)
    (outcome : b.entryOf ⟨t.file, b.key t.file c, c⟩ (b.session compiler t.file).result
      = .error reason) :
    Comes b compiler s t ⟨.ofCrash t.file.path b.target (b.key t.file c) reason,
      [b.callFor compiler t.file], s⟩
  | unstored {c : List String} {e : Entry} {failure : Cache.StoreError} {s' : Store}
    (closure : t.closure = .ok c) (reply : s.reply (b.key t.file c) = .ok none)
    (outcome : b.entryOf ⟨t.file, b.key t.file c, c⟩ (b.session compiler t.file).result = .ok e)
    (kept : s.store (b.key t.file c) e = (some failure, s')) :
    Comes b compiler s t ⟨.ofCrash t.file.path b.target (b.key t.file c) failure.message,
      [b.callFor compiler t.file], s'.claim (b.key t.file c)⟩
  | compiled {c : List String} {e : Entry} {s' : Store} (closure : t.closure = .ok c)
    (reply : s.reply (b.key t.file c) = .ok none)
    (outcome : b.entryOf ⟨t.file, b.key t.file c, c⟩ (b.session compiler t.file).result = .ok e)
    (kept : s.store (b.key t.file c) e = (none, s')) :
    Comes b compiler s t
      ⟨⟨t.file.path, b.target, e.ascribe t.file.path, .compiled (b.key t.file c)⟩,
        [b.callFor compiler t.file], s'⟩

theorem comes_serve (b : Batch) (compiler : Compiler) (s : Store) (t : Task) :
    b.Comes compiler s t (b.serve compiler s t) := by
  unfold serve
  split
  · exact .unkeyed ‹_›
  · split
    · exact .tooDeep ‹_› ‹_›
    · exact .cached ‹_› ‹_›
    · split
      · exact .crashed ‹_› ‹_› ‹_›
      · split
        · exact .unstored ‹_› ‹_› ‹_› ‹_›
        · exact .compiled ‹_› ‹_› ‹_› ‹_›

namespace Comes

variable {r : Upshot UnitResult}

theorem serve_eq (h : b.Comes compiler s t r) : b.serve compiler s t = r := by
  cases h with
  | unkeyed closure => simp only [serve, closure]
  | tooDeep closure reply => simp only [serve, closure, reply]
  | cached closure reply => simp only [serve, closure, reply]
  | crashed closure reply outcome => simp only [serve, closure, reply, outcome]
  | unstored closure reply outcome kept => simp only [serve, closure, reply, outcome, kept]
  | compiled closure reply outcome kept => simp only [serve, closure, reply, outcome, kept]

theorem path (h : b.Comes compiler s t r) : r.result.path = t.file.path := by
  cases h <;> rfl

/-- The key of a unit does not depend on the store. -/
theorem key (h : b.Comes compiler s t r) :
    r.result.origin.key? = t.closure.toOption.map (b.key t.file) := by
  cases h with
  | unkeyed closure =>
    rw [closure]
    rfl
  | tooDeep closure =>
    rw [closure]
    rfl
  | cached closure =>
    rw [closure]
    rfl
  | crashed closure =>
    rw [closure]
    rfl
  | unstored closure =>
    rw [closure]
    rfl
  | compiled closure =>
    rw [closure]
    rfl

/-- The compiler is called for the file of the task only. -/
theorem calls (h : b.Comes compiler s t r) :
    r.calls = [] ∨ r.calls = [b.callFor compiler t.file] := by
  cases h with
  | unkeyed => exact .inl rfl
  | tooDeep => exact .inl rfl
  | cached => exact .inl rfl
  | crashed => exact .inr rfl
  | unstored => exact .inr rfl
  | compiled => exact .inr rfl

theorem eq_of_mem_calls (h : b.Comes compiler s t r) {call : Call} (hcall : call ∈ r.calls) :
    call = b.callFor compiler t.file := by
  rcases h.calls with hcalls | hcalls
  · rw [hcalls] at hcall
    exact absurd hcall List.not_mem_nil
  · rw [hcalls] at hcall
    exact List.mem_singleton.1 hcall

theorem unbounded (h : b.Comes compiler s t r) (hs : s.Unbounded) : r.store.Unbounded := by
  cases h with
  | @unstored _ e _ _ _ reply _ kept =>
    have hforgotten := Store.forgotten_of_reply reply
    have hstored := hs.store hforgotten e
    have hfind := Store.find?_store hs hforgotten e
    rw [kept] at hstored hfind
    exact hstored.claim ((hfind _).trans (if_pos rfl))
  | @compiled _ e _ _ reply _ kept =>
    have hstored := hs.store (Store.forgotten_of_reply reply) e
    rwa [kept] at hstored
  | _ => exact hs

theorem directory (h : b.Comes compiler s t r) : r.store.directory = s.directory := by
  cases h with
  | @unstored _ _ _ s' _ _ _ kept =>
    have hdirectory : s'.directory = s.directory := Store.directory_of_store kept
    exact hdirectory
  | compiled _ _ _ kept => exact Store.directory_of_store kept
  | _ => rfl

/-- No reply is taken back. -/
theorem extendsTo (h : b.Comes compiler s t r) (hs : s.Unbounded) : s.Extends r.store := by
  cases h with
  | @unstored c e _ _ _ reply _ kept =>
    have hextends := Store.extends_store hs reply e
    rw [kept] at hextends
    exact hextends.trans ((SameReplies.refl _).claim _).extendsTo
  | @compiled _ e _ _ reply _ kept =>
    have hextends := Store.extends_store hs reply e
    rwa [kept] at hextends
  | _ => exact .refl s

end Comes

/-- The entry that a unit comes to is kept under a key: it is compiled, or it could not be stored, and
is in memory only. -/
def Kept (b : Batch) (compiler : Compiler) (directory : Option Disk.Place) (key : String)
    (u : UnitResult) : Prop :=
  u.origin = .compiled key ∨ u.origin = .crashed key ∧ b.Unstored compiler directory u

namespace Comes

variable {r : Upshot UnitResult}

/-- What is held afterwards was held before, or is what the unit came to, which is the reply then. -/
theorem holds (ht : b.Tasked t) (h : b.Comes compiler s t r) (hs : s.Unbounded) {key : String}
    {content : Content} (hheld : r.store.Holds key content) :
    s.Holds key content ∨ b.Kept compiler s.directory key r.result ∧
      ∃ e, r.store.reply key = .ok (some e) := by
  cases h with
  | @unstored c e failure s' closure reply outcome kept =>
    have hclaimed : s'.SameReplies (s'.claim (b.key t.file c)) := (SameReplies.refl s').claim _
    have hreply := Store.reply_store hs reply e
    rw [kept] at hreply
    by_cases hsame : key = b.key t.file c
    · refine .inr ⟨.inr ⟨hsame ▸ rfl, ?_⟩, e, hsame ▸ (hclaimed.reply _).trans hreply⟩
      exact ⟨⟨t.file, b.key t.file c, c⟩, ⟨ht.entry, (ht.walk c).1 closure, rfl⟩,
        strands_of_store outcome kept, failure, rfl⟩
    · refine .inl (Store.holds_of_store (e := e) hs reply hsame ?_)
      rw [kept]
      exact hclaimed.holds hheld
  | @compiled c e s' _ reply _ kept =>
    have hreply := Store.reply_store hs reply e
    rw [kept] at hreply
    by_cases hsame : key = b.key t.file c
    · exact .inr ⟨.inl (hsame ▸ rfl), e, hsame ▸ hreply⟩
    · refine .inl (Store.holds_of_store (e := e) hs reply hsame ?_)
      rw [kept]
      exact hheld
  | _ => exact .inl hheld

end Comes

/-- Over stores that reply alike a task comes to the same, and leaves stores that reply alike. -/
theorem serve_of_sameReplies (b : Batch) (compiler : Compiler) (hs : s.Unbounded)
    (hs' : s'.Unbounded) (h : s.SameReplies s') (t : Task) :
    (b.serve compiler s' t).result = (b.serve compiler s t).result ∧
      (b.serve compiler s' t).calls = (b.serve compiler s t).calls ∧
      (b.serve compiler s t).store.SameReplies (b.serve compiler s' t).store := by
  have hcomes := b.comes_serve compiler s t
  generalize b.serve compiler s t = r at hcomes
  cases hcomes with
  | unkeyed closure =>
    rw [(Comes.unkeyed closure).serve_eq]
    exact ⟨rfl, rfl, h⟩
  | tooDeep closure reply =>
    rw [(Comes.tooDeep closure ((h.reply _).trans reply)).serve_eq]
    exact ⟨rfl, rfl, h⟩
  | cached closure reply =>
    rw [(Comes.cached closure ((h.reply _).trans reply)).serve_eq]
    exact ⟨rfl, rfl, h⟩
  | crashed closure reply outcome =>
    rw [(Comes.crashed closure ((h.reply _).trans reply) outcome).serve_eq]
    exact ⟨rfl, rfl, h⟩
  | @unstored c e failure _ closure reply outcome kept =>
    obtain ⟨hfailure, hsame⟩ := h.store hs hs' reply e
    rw [kept] at hfailure hsame
    have kept' : s'.store (b.key t.file c) e = (some failure, (s'.store (b.key t.file c) e).2) :=
      Prod.ext hfailure rfl
    rw [(Comes.unstored closure ((h.reply _).trans reply) outcome kept').serve_eq]
    exact ⟨rfl, rfl, (hsame.symm.claim _).symm.claim _⟩
  | @compiled c e _ closure reply outcome kept =>
    obtain ⟨hfailure, hsame⟩ := h.store hs hs' reply e
    rw [kept] at hfailure hsame
    have kept' : s'.store (b.key t.file c) e = (none, (s'.store (b.key t.file c) e).2) :=
      Prod.ext hfailure rfl
    rw [(Comes.compiled closure ((h.reply _).trans reply) outcome kept').serve_eq]
    exact ⟨rfl, rfl, hsame⟩

/-! ## Units one after the other -/

/-- What tasks come to one after the other. -/
def serveAll (b : Batch) (compiler : Compiler) (s : Store) :
    List Task → Upshot (List UnitResult)
  | [] => ⟨[], [], s⟩
  | t :: ts =>
    let served := b.serve compiler s t
    let rest := serveAll b compiler served.store ts
    ⟨served.result :: rest.result, served.calls ++ rest.calls, rest.store⟩

theorem serveAll_cons (s : Store) (t : Task) (ts : List Task) :
    b.serveAll compiler s (t :: ts) =
      ⟨(b.serve compiler s t).result
          :: (b.serveAll compiler (b.serve compiler s t).store ts).result,
        (b.serve compiler s t).calls ++ (b.serveAll compiler (b.serve compiler s t).store ts).calls,
        (b.serveAll compiler (b.serve compiler s t).store ts).store⟩ := rfl

theorem serveAll_append (s : Store) (ts us : List Task) :
    b.serveAll compiler s (ts ++ us) =
      ⟨(b.serveAll compiler s ts).result
          ++ (b.serveAll compiler (b.serveAll compiler s ts).store us).result,
        (b.serveAll compiler s ts).calls
          ++ (b.serveAll compiler (b.serveAll compiler s ts).store us).calls,
        (b.serveAll compiler (b.serveAll compiler s ts).store us).store⟩ := by
  induction ts generalizing s with
  | nil => rfl
  | cons t ts ih => simp only [List.cons_append, serveAll_cons, ih, List.append_assoc]

theorem unbounded_serveAll (b : Batch) (compiler : Compiler) (hs : s.Unbounded) (ts : List Task) :
    (b.serveAll compiler s ts).store.Unbounded := by
  induction ts generalizing s with
  | nil => exact hs
  | cons t ts ih => exact ih ((b.comes_serve compiler s t).unbounded hs)

/-- No reply is taken back. -/
theorem extends_serveAll (b : Batch) (compiler : Compiler) (hs : s.Unbounded) (ts : List Task) :
    s.Extends (b.serveAll compiler s ts).store := by
  induction ts generalizing s with
  | nil => exact .refl s
  | cons t ts ih =>
    have hcomes := b.comes_serve compiler s t
    exact (hcomes.extendsTo hs).trans (ih (hcomes.unbounded hs))

/-- What each task comes to over a store with more replies holds of all results. -/
theorem forall₂_serveAll {P : Task → UnitResult → Prop} (hs : s.Unbounded) {ts : List Task}
    (h : ∀ t ∈ ts, ∀ s', s.Extends s' → P t (b.serve compiler s' t).result) :
    List.Forall₂ P ts (b.serveAll compiler s ts).result := by
  induction ts generalizing s with
  | nil => exact .nil
  | cons t ts ih =>
    have hcomes := b.comes_serve compiler s t
    refine .cons (h t List.mem_cons_self s (.refl s)) (ih (hcomes.unbounded hs) ?_)
    intro t' ht' s' hs'
    exact h t' (List.mem_cons_of_mem _ ht') s' ((hcomes.extendsTo hs).trans hs')

theorem forall₂_path_serveAll (hs : s.Unbounded) (ts : List Task) :
    List.Forall₂ (fun t u => u.path = t.file.path) ts (b.serveAll compiler s ts).result :=
  forall₂_serveAll hs fun t _ s' _ => (b.comes_serve compiler s' t).path

/-- The calls are for the files of the tasks. -/
theorem exists_task_of_mem_calls {call : Call} (h : call ∈ (b.serveAll compiler s ts).calls) :
    ∃ t ∈ ts, call = b.callFor compiler t.file := by
  induction ts generalizing s with
  | nil => exact absurd h List.not_mem_nil
  | cons t ts ih =>
    rcases List.mem_append.1 h with h | h
    · exact ⟨t, List.mem_cons_self, (b.comes_serve compiler s t).eq_of_mem_calls h⟩
    · obtain ⟨t', ht', hcall⟩ := ih h
      exact ⟨t', List.mem_cons_of_mem _ ht', hcall⟩

/-- What is held after all of them was held before, or a unit came to it, and it is the reply then. -/
theorem holds_serveAll (hts : ∀ t ∈ ts, b.Tasked t) (hs : s.Unbounded) {key : String}
    {content : Content} (h : (b.serveAll compiler s ts).store.Holds key content) :
    s.Holds key content ∨
      (∃ u ∈ (b.serveAll compiler s ts).result, b.Kept compiler s.directory key u) ∧
        ∃ e, (b.serveAll compiler s ts).store.reply key = .ok (some e) := by
  induction ts generalizing s with
  | nil => exact .inl h
  | cons t ts ih =>
    have hcomes := b.comes_serve compiler s t
    have hs' := hcomes.unbounded hs
    rcases ih (fun t' ht' => hts t' (List.mem_cons_of_mem _ ht')) hs' h with
      h | ⟨⟨u, hu, hkept⟩, hreply⟩
    · rcases hcomes.holds (hts t List.mem_cons_self) hs h with h | ⟨hkept, e, he⟩
      · exact .inl h
      · exact .inr ⟨⟨_, List.mem_cons_self, hkept⟩, e,
          (b.extends_serveAll compiler hs' ts key (by simp [he])).trans he⟩
    · exact .inr ⟨⟨u, List.mem_cons_of_mem _ hu, hcomes.directory ▸ hkept⟩, hreply⟩

/-- Over stores that reply alike tasks come to the same. -/
theorem serveAll_of_sameReplies (hs : s.Unbounded) (hs' : s'.Unbounded) (h : s.SameReplies s')
    (ts : List Task) : (b.serveAll compiler s' ts).result = (b.serveAll compiler s ts).result := by
  induction ts generalizing s s' with
  | nil => rfl
  | cons t ts ih =>
    obtain ⟨hresult, -, hsame⟩ := b.serve_of_sameReplies compiler hs hs' h t
    have hs₁ := (b.comes_serve compiler s t).unbounded hs
    have hs₁' := (b.comes_serve compiler s' t).unbounded hs'
    exact congrArg₂ List.cons hresult (ih hs₁ hs₁' hsame)

/-! ## The two stages -/

/-- The document under the key of a task, if it is there, is not too deep. -/
def Readable (b : Batch) (s : Store) (t : Task) : Prop :=
  ∀ c, t.closure = .ok c → ∃ found, s.reply (b.key t.file c) = .ok found

theorem readable_of_reply {c : List String} {found : Option Entry} (closure : t.closure = .ok c)
    (reply : s.reply (b.key t.file c) = .ok found) : b.Readable s t := by
  intro c' hc'
  obtain rfl := Except.ok.inj (closure.symm.trans hc')
  exact ⟨found, reply⟩

/-- A decision goes by what the store finds, and changes no reply. -/
theorem Decides.of_unbounded {d : Decision} (h : b.Decides s t d s') (hs : s.Unbounded) :
    d = b.decideOver s.found t ∧ b.Readable s t ∧ s'.Unbounded ∧ s.SameReplies s' := by
  cases h with
  | unkeyed closure =>
    refine ⟨by simp only [decideOver, closure], fun c hc => ?_, hs, .refl s⟩
    exact absurd (closure.symm.trans hc) (by simp)
  | found closure look =>
    obtain ⟨reply, hs', hsame⟩ := hs.of_lookup look
    have hfound := Store.found_of_reply reply
    exact ⟨by simp only [decideOver, closure, hfound], readable_of_reply closure reply, hs', hsame⟩
  | missing closure look =>
    obtain ⟨reply, hs', hsame⟩ := hs.of_lookup look
    have hfound := Store.found_of_reply reply
    exact ⟨by simp only [decideOver, closure, hfound], readable_of_reply closure reply, hs', hsame⟩

/-- The first stage fails on a document that is too deep, or decides each task by what the store
finds, and changes no reply. -/
theorem decideTasks_of_unbounded (b : Batch) (hs : s.Unbounded) (ts : List Task) :
    (∃ e s', b.decideTasks s ts = (.error e, s') ∧
      ∃ t ∈ ts, ∃ c, t.closure = .ok c ∧ s.reply (b.key t.file c) = .error e) ∨
    ∃ s', b.decideTasks s ts = (.ok (ts.map (b.decideOver s.found)), s') ∧
      (∀ t ∈ ts, b.Readable s t) ∧ s'.Unbounded ∧ s.SameReplies s' := by
  have hstep : ∀ t ∈ ts, ∀ s₁ d s₂, s₁.Unbounded ∧ s.SameReplies s₁ → b.Decides s₁ t d s₂ →
      (s₂.Unbounded ∧ s.SameReplies s₂) ∧ d = b.decideOver s.found t ∧ b.Readable s t := by
    rintro t - s₁ d s₂ ⟨hs₁, hsame⟩ hd
    obtain ⟨heq, hread, hs₂, hsame₂⟩ := hd.of_unbounded hs₁
    refine ⟨⟨hs₂, hsame.trans hsame₂⟩, hsame.found ▸ heq, fun c hc => ?_⟩
    obtain ⟨found, hfound⟩ := hread c hc
    exact ⟨found, (hsame.reply _).symm.trans hfound⟩
  have hstage := b.decideTasks_invariant hstep ⟨hs, .refl s⟩
  revert hstage
  generalize b.decideTasks s ts = decided
  obtain ⟨reply, s'⟩ := decided
  cases reply with
  | error e =>
    rintro ⟨t, ht, s₁, ⟨hs₁, hsame⟩, herror⟩
    obtain ⟨c, hc, hlook⟩ := lookup_of_decideTask_eq_error herror
    have hreply := (hs₁.of_lookup hlook).1
    exact .inl ⟨e, s', rfl, t, ht, c, hc, (hsame.reply _).symm.trans hreply⟩
  | ok ds =>
    rintro ⟨⟨hs', hsame⟩, hds⟩
    have hmap : ts.map (b.decideOver s.found) = ds := by
      rw [← List.forall₂_eq_eq_eq, List.forall₂_map_left_iff]
      exact hds.imp fun t d h => h.1.symm
    have hread : ∀ t ∈ ts, b.Readable s t := by
      intro t ht
      obtain ⟨d, -, -, hread⟩ := exists_mem_left_of_forall₂ hds.flip ht
      exact hread
    exact .inr ⟨s', by rw [hmap], hread, hs', hsame⟩

/-- A task that is decided over a store comes to the same over every store with more replies. -/
theorem serve_of_decided (hext : s'.Extends s) {u : UnitResult}
    (h : b.decideOver s'.found t = .decided u) : b.serve compiler s t = ⟨u, [], s⟩ := by
  unfold decideOver at h
  split at h
  · rename_i closure
    exact Decision.decided.inj h ▸ (Comes.unkeyed closure).serve_eq
  · rename_i c closure
    split at h
    · rename_i e there
      have reply := Store.reply_of_found there
      have reply' := (hext (b.key t.file c) (by simp [reply])).trans reply
      exact Decision.decided.inj h ▸ (Comes.cached closure reply').serve_eq
    · exact absurd h (by simp)

/-- Whether a call of the compiler calls the batch off. -/
def callsOff (b : Batch) (compiler : Compiler) (call : Call) : Bool :=
  match b.files.get? call.path with
  | none => false
  | some f => (b.session compiler f).cancelled

theorem callsOff_callFor {f : SourceFile} (hf : f ∈ b.files.files) :
    b.callsOff compiler (b.callFor compiler f) = (b.session compiler f).cancelled := by
  rw [callsOff, callFor, FileSet.get?_of_mem hf]

/-- The second stage is as far as units that were served in turn: its store replies as theirs. -/
structure InStep (s : Store) (q : Progress) : Prop where
  ideal : s.Unbounded
  actual : q.store.Unbounded
  same : s.SameReplies q.store

/-- Compiling a pending unit is serving it in its turn. -/
theorem compile_in_turn (compiler : Compiler) {q : Progress} (h : InStep s q)
    (hon : q.cancelled = false) (hfile : t.file ∈ b.files.files) {c : List String}
    (closure : t.closure = .ok c) :
    ∃ q', b.compile compiler q ⟨t.file, b.key t.file c, c⟩
        = (.ok (b.serve compiler s t).result, q') ∧
      InStep (b.serve compiler s t).store q' ∧
      q'.calls = (b.serve compiler s t).calls.reverse ++ q.calls ∧
      q'.cancelled = (b.serve compiler s t).calls.any (b.callsOff compiler) := by
  have hideal := (b.comes_serve compiler s t).unbounded h.ideal
  obtain ⟨u, made, q', heq, hcompiles⟩ | ⟨store, look, hflight, -⟩ :=
    b.compile_cases compiler q ⟨t.file, b.key t.file c, c⟩
  · have hactual := hcompiles.unbounded h.actual
    rw [heq]
    cases hcompiles with
    | calledOff cancelled =>
      rw [hon] at cancelled
      exact absurd cancelled (by simp)
    | found look =>
      obtain ⟨reply, -, hsame⟩ := h.actual.of_lookup look
      rw [(Comes.cached closure ((h.same.reply _).symm.trans reply)).serve_eq]
      exact ⟨_, rfl, ⟨h.ideal, hactual, h.same.trans hsame⟩, rfl, hon⟩
    | tooDeep look =>
      obtain ⟨reply, -, hsame⟩ := h.actual.of_lookup look
      rw [(Comes.tooDeep closure ((h.same.reply _).symm.trans reply)).serve_eq]
      exact ⟨_, rfl, ⟨h.ideal, hactual, h.same.trans hsame⟩, rfl, hon⟩
    | crashed look outcome =>
      obtain ⟨reply, -, hsame⟩ := h.actual.of_lookup look
      rw [(Comes.crashed closure ((h.same.reply _).symm.trans reply) outcome).serve_eq]
      refine ⟨_, rfl, ⟨h.ideal, hactual, h.same.trans hsame⟩, rfl, ?_⟩
      simp [callsOff_callFor hfile]
    | @unstored e store store' failure look outcome kept =>
      obtain ⟨hreply, hs', hlooked⟩ := h.actual.of_lookup look
      have reply := (h.same.reply _).symm.trans hreply
      -- the two stores come to the same with the entry, so it cannot be stored in either
      obtain ⟨hfailure, hsame⟩ := (h.same.trans hlooked).store h.ideal hs' reply e
      rw [kept] at hfailure hsame
      have kept' : s.store (b.key t.file c) e = (some failure, (s.store (b.key t.file c) e).2) :=
        Prod.ext hfailure.symm rfl
      rw [(Comes.unstored closure reply outcome kept').serve_eq] at hideal ⊢
      refine ⟨_, rfl, ⟨hideal, hactual, (hsame.symm.claim _).symm.claim _⟩, rfl, ?_⟩
      simp [callsOff_callFor hfile]
    | @compiled e store store' look outcome kept =>
      obtain ⟨hreply, hs', hlooked⟩ := h.actual.of_lookup look
      have reply := (h.same.reply _).symm.trans hreply
      obtain ⟨hfailure, hsame⟩ := (h.same.trans hlooked).store h.ideal hs' reply e
      rw [kept] at hfailure hsame
      have kept' : s.store (b.key t.file c) e = (none, (s.store (b.key t.file c) e).2) :=
        Prod.ext hfailure.symm rfl
      rw [(Comes.compiled closure reply outcome kept').serve_eq] at hideal ⊢
      refine ⟨_, rfl, ⟨hideal, hactual, hsame⟩, rfl, ?_⟩
      simp [callsOff_callFor hfile]
  · obtain ⟨reply, -, -⟩ := h.actual.of_lookup look
    exact absurd hflight (h.actual.free (Store.forgotten_of_reply reply))

/-- As long as no call calls the batch off, the second stage serves the tasks in turn, whatever was
decided over a store with fewer replies. -/
theorem finish_in_turn (b : Batch) (compiler : Compiler) {q : Progress} (hext : s'.Extends s)
    (h : InStep s q) (hon : q.cancelled = false) (hfiles : ∀ t ∈ ts, t.file ∈ b.files.files)
    (hquiet : ∀ call ∈ (b.serveAll compiler s ts).calls, b.callsOff compiler call = false) :
    ∃ q', b.finish compiler q (ts.map (b.decideOver s'.found))
        = (.ok (b.serveAll compiler s ts).result, q') ∧
      InStep (b.serveAll compiler s ts).store q' ∧ q'.cancelled = false ∧
      q'.calls = (b.serveAll compiler s ts).calls.reverse ++ q.calls := by
  induction ts generalizing s q with
  | nil => exact ⟨q, rfl, h, hon, rfl⟩
  | cons t ts ih =>
    obtain ⟨hfile, hfiles⟩ := List.forall_mem_cons.1 hfiles
    rw [List.map_cons]
    cases hd : b.decideOver s'.found t with
    | decided u =>
      have hserve : b.serve compiler s t = ⟨u, [], s⟩ := serve_of_decided hext hd
      rw [serveAll_cons, hserve] at hquiet ⊢
      obtain ⟨q', hfinish, hq'⟩ := ih hext h hon hfiles hquiet
      refine ⟨q', ?_, hq'⟩
      simp only [finish, hfinish]
      rfl
    | pending p =>
      obtain ⟨c, closure, rfl⟩ := closure_of_decideOver hd
      obtain ⟨q₁, hcompile, h₁, hcalls₁, hcancelled₁⟩ :=
        compile_in_turn compiler h hon hfile closure
      rw [serveAll_cons] at hquiet ⊢
      have hext₁ := hext.trans ((b.comes_serve compiler s t).extendsTo h.ideal)
      have hon₁ : q₁.cancelled = false := by
        rw [hcancelled₁, List.any_eq_false]
        exact fun call hcall => by simp [hquiet call (List.mem_append_left _ hcall)]
      obtain ⟨q', hfinish, h', hon', hcalls'⟩ :=
        ih hext₁ h₁ hon₁ hfiles fun call hcall => hquiet call (List.mem_append_right _ hcall)
      refine ⟨q', ?_, h', hon', ?_⟩
      · simp only [finish, hcompile, hfinish]
        rfl
      · rw [hcalls', hcalls₁, List.reverse_append, List.append_assoc]

end Batch

end Build

end SheetBuild
