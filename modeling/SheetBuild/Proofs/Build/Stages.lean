import Mathlib.Data.List.Forall2
import SheetBuild.Proofs.Build.Digested
import SheetBuild.Proofs.Cache.Document
import SheetBuild.Proofs.Cache.Request
import SheetBuild.Proofs.Import.Queries
set_option autoImplicit false

/-!
# The two stages of a batch

A batch goes over its entries twice: it decides them as far as imports and store allow, and then it
compiles those that are left.  Here each stage is taken apart once.  `decideAll_eq` separates the
closures from the lookups, and no closure depends on those before it (`tasksFrom_eq_map`);
`compile_cases` lists what compiling a pending unit can come to, and `decideTasks_invariant` and
`finish_invariant` carry what every single step keeps over a whole stage.
-/

namespace SheetBuild

/-! ## File sets of distinct paths -/

theorem FileSet.contains_eq_false_iff {s : FileSet} {path : String} :
    s.contains path = false ↔ path ∉ s.files.map (·.path) := by
  rw [contains, Option.isSome_eq_false_iff, Option.isNone_iff_eq_none, get?_eq_none_iff]

theorem FileSet.addDistinct_eq_ok {s : FileSet} {fs : List SourceFile}
    (h : (s.files.map (·.path) ++ fs.map (·.path)).Nodup) :
    ∃ all, s.addDistinct fs = .ok all ∧ all.files = s.files ++ fs := by
  induction fs generalizing s with
  | nil => exact ⟨s, rfl, by simp⟩
  | cons f fs ih =>
    have hnew : f.path ∉ s.files.map (·.path) := by
      intro hf
      exact (List.nodup_append.1 h).2.2 _ hf _ (by simp) rfl
    have hput := files_put hnew
    obtain ⟨all, hall, hfiles⟩ := ih (s := s.put f) (by rw [hput]; simpa using h)
    refine ⟨all, ?_, by rw [hfiles, hput, List.append_assoc]; rfl⟩
    rw [addDistinct, contains_eq_false_iff.2 hnew]
    exact hall

/-- Files that are added make up the end of the set. -/
theorem FileSet.files_of_addDistinct {s all : FileSet} {fs : List SourceFile}
    (h : s.addDistinct fs = .ok all) : all.files = s.files ++ fs := by
  induction fs generalizing s with
  | nil =>
    obtain rfl := Except.ok.inj h
    rw [List.append_nil]
  | cons f fs ih =>
    rw [addDistinct] at h
    split at h
    · exact absurd h (by simp)
    · rename_i hnew
      rw [Bool.not_eq_true, contains_eq_false_iff] at hnew
      rw [ih h, files_put hnew, List.append_assoc, List.singleton_append]

/-- Files are refused exactly when two of them have one path. -/
theorem FileSet.ofDistinct_eq_error_iff {fs : List SourceFile} :
    (∃ p, FileSet.ofDistinct fs = .error p) ↔ ¬ (fs.map (·.path)).Nodup := by
  constructor
  · rintro ⟨p, hp⟩ hnodup
    obtain ⟨all, hall, -⟩ := addDistinct_eq_ok (s := .empty) hnodup
    exact absurd (hp.symm.trans hall) (by simp)
  · intro hrepeated
    cases hall : FileSet.ofDistinct fs with
    | error p => exact ⟨p, rfl⟩
    | ok all =>
      have hnodup := all.nodup
      rw [files_of_addDistinct hall] at hnodup
      exact absurd hnodup hrepeated

/-- The files of a set make it up again. -/
theorem FileSet.ofDistinct_files (files : FileSet) : FileSet.ofDistinct files.files = .ok files := by
  have hnodup : (FileSet.empty.files.map (·.path) ++ files.files.map (·.path)).Nodup := files.nodup
  obtain ⟨all, hall, hfiles⟩ := FileSet.addDistinct_eq_ok hnodup
  obtain ⟨fs, hfs⟩ := all
  obtain rfl : fs = files.files := hfiles
  exact hall

namespace Build

open SheetBuild.Cache (Store)
open SheetBuild.Compile (Compiler Loader Transcript)
open SheetBuild.Import (ClosureError Graph)

/-! ## Failures of closures have a file -/

namespace Batch

variable {g : Graph}

/-- Visits fail with a named file when each of them does. -/
theorem sourceFile_of_visitAll {visit : Graph.Memo → String → Graph.Visit}
    (hv : ∀ memo p e, (visit memo p).1 = .error e → e.diagnostic.sourceFile.isSome = true)
    {memo : Graph.Memo} {acc ps : List String} {e : ClosureError}
    (h : (Graph.visitAll visit memo acc ps).1 = .error e) :
    e.diagnostic.sourceFile.isSome = true := by
  induction ps generalizing memo acc with
  | nil => exact absurd h (by simp [Graph.visitAll])
  | cons p ps ih =>
    have hp := hv memo p
    unfold Graph.visitAll at h
    generalize visit memo p = visited at hp h
    obtain ⟨answer, memo'⟩ := visited
    cases answer with
    | error e' => exact hp e h
    | ok reached => exact ih h

/-- A failed visit names the file that the failure stands in: the importer of a reference, or the
first file of a circle, which has one at least. -/
theorem sourceFile_of_visit {fuel : Nat} {trail : List String} {memo : Graph.Memo} {p : String}
    {e : ClosureError} (h : (g.visit fuel trail memo p).1 = .error e) :
    e.diagnostic.sourceFile.isSome = true := by
  induction fuel generalizing trail memo p e with
  | zero => exact absurd h (by simp [Graph.visit])
  | succ fuel ih =>
    unfold Graph.visit at h
    split at h
    · obtain rfl := Except.error.inj h
      simp [ClosureError.diagnostic, Import.Cycle.diagnostic]
    · split at h
      · exact absurd h (by simp)
      · split at h
        · obtain rfl := Except.error.inj h
          rfl
        · have hall : ∀ e', (Graph.visitAll (g.visit fuel (trail ++ [p])) memo [] (g.imports p)).1
              = .error e' → e'.diagnostic.sourceFile.isSome = true :=
            fun e' => sourceFile_of_visitAll fun memo p e => ih
          generalize Graph.visitAll (g.visit fuel (trail ++ [p])) memo [] (g.imports p) = visited
            at hall h
          obtain ⟨answer, memo'⟩ := visited
          cases answer with
          | error e' => exact hall e h
          | ok reached => exact absurd h (by simp)

end Batch

/-! ## Tasks -/

/-- An entry of a batch and its closure, or why it has none. -/
structure Task where
  file : SourceFile
  closure : Except ClosureError (List String)

namespace Batch

/-- The tasks of entries; the closures found for one serve the next. -/
def tasksFrom (g : Graph) (memo : Graph.Memo) : List SourceFile → List Task
  | [] => []
  | f :: fs => ⟨f, (g.closure memo f.path).1⟩ :: tasksFrom g (g.closure memo f.path).2 fs

/-- The tasks of a batch. -/
def tasks (b : Batch) : List Task := tasksFrom b.graph [] b.entries

/-- Decides a task as far as the store allows. -/
def decideTask (b : Batch) (s : Store) (t : Task) : Except Json.TooDeep Decision × Store :=
  match t.closure with
  | .error e => (.ok (.decided (.failed t.file.path b.target .unkeyed e.diagnostic)), s)
  | .ok closure =>
    let key := b.key t.file closure
    match s.lookup key with
    | (.error e, s) => (.error e, s)
    | (.ok (some e), s) =>
      (.ok (.decided ⟨t.file.path, b.target, e.ascribe t.file.path, .cached key⟩), s)
    | (.ok none, s) => (.ok (.pending ⟨t.file, key, closure⟩), s)

/-- Decides tasks one after the other. -/
def decideTasks (b : Batch) (s : Store) : List Task → Except Json.TooDeep (List Decision) × Store
  | [] => (.ok [], s)
  | t :: ts =>
    match b.decideTask s t with
    | (.error e, s) => (.error e, s)
    | (.ok d, s) =>
      let (ds, s) := decideTasks b s ts
      (ds.map (d :: ·), s)

theorem decide_eq_decideTask (b : Batch) (g : Graph) (memo : Graph.Memo) (s : Store)
    (f : SourceFile) :
    b.decide g memo s f =
      ((b.decideTask s ⟨f, (g.closure memo f.path).1⟩).1, (g.closure memo f.path).2,
        (b.decideTask s ⟨f, (g.closure memo f.path).1⟩).2) := by
  unfold decide decideTask
  generalize g.closure memo f.path = visited
  obtain ⟨answer, memo'⟩ := visited
  cases answer with
  | error e => rfl
  | ok closure =>
    simp only
    generalize s.lookup (b.key f closure) = looked
    obtain ⟨found, s'⟩ := looked
    cases found with
    | error e => rfl
    | ok entry => cases entry <;> rfl

/-- Deciding entries is deciding their tasks. -/
theorem decideAll_eq (b : Batch) (g : Graph) (memo : Graph.Memo) (s : Store)
    (fs : List SourceFile) : b.decideAll g memo s fs = b.decideTasks s (tasksFrom g memo fs) := by
  induction fs generalizing memo s with
  | nil => rfl
  | cons f fs ih =>
    rw [decideAll, tasksFrom, decideTasks, decide_eq_decideTask]
    generalize b.decideTask s ⟨f, (g.closure memo f.path).1⟩ = decided
    obtain ⟨answer, s'⟩ := decided
    cases answer with
    | error e => rfl
    | ok d => simp only [ih]

/-- What the tasks of a batch are: each belongs to an entry, has a closure where there is a walk, and
otherwise a failure with a file. -/
structure Tasked (b : Batch) (t : Task) : Prop where
  entry : t.file ∈ b.entries
  walk : ∀ c, t.closure = .ok c ↔ b.graph.Walk t.file.path c
  named : ∀ e, t.closure = .error e → e.diagnostic.sourceFile.isSome = true

theorem tasked_of_mem_tasksFrom {b : Batch} {memo : Graph.Memo} (hm : b.graph.Asked memo)
    {fs : List SourceFile} (hfs : ∀ f ∈ fs, f ∈ b.entries) :
    ∀ t ∈ tasksFrom b.graph memo fs, b.Tasked t := by
  induction fs generalizing memo with
  | nil => simp [tasksFrom]
  | cons f fs ih =>
    intro t ht
    rw [tasksFrom] at ht
    rcases List.mem_cons.1 ht with rfl | ht
    · exact ⟨hfs f List.mem_cons_self, fun c => Graph.closure_eq_ok_iff hm,
        fun e he => sourceFile_of_visit he⟩
    · exact ih (hm.more f.path) (fun f' hf' => hfs f' (List.mem_cons_of_mem _ hf')) t ht

theorem tasked_of_mem_tasks {b : Batch} : ∀ t ∈ b.tasks, b.Tasked t :=
  tasked_of_mem_tasksFrom .nothing fun _ h => h

theorem map_file_tasksFrom (g : Graph) (memo : Graph.Memo) (fs : List SourceFile) :
    (tasksFrom g memo fs).map (·.file) = fs := by
  induction fs generalizing memo with
  | nil => rfl
  | cons f fs ih => rw [tasksFrom, List.map_cons, ih]

theorem map_file_tasks (b : Batch) : b.tasks.map (·.file) = b.entries := map_file_tasksFrom ..

/-- The task of a file over imports of which nothing has been asked. -/
def freshTask (g : Graph) (f : SourceFile) : Task := ⟨f, (g.closure [] f.path).1⟩

/-- The closures found for one file do not change the task of the next. -/
theorem tasksFrom_eq_map {g : Graph} {memo : Graph.Memo} (hm : g.Asked memo)
    (fs : List SourceFile) : tasksFrom g memo fs = fs.map (freshTask g) := by
  induction fs generalizing memo with
  | nil => rfl
  | cons f fs ih =>
    rw [tasksFrom, Graph.closure_eq_fresh hm, ih (hm.more f.path), List.map_cons]
    rfl

/-- Queries of a graph that are asked one after the other, answered or failed, each come to what they
come to on a graph of which nothing has been asked.  So a batch decides its entries, in whatever order
they stand, as if the imports were gone through anew for each of them. -/
theorem queries_leave_no_trace (g : Graph) (queries : List String) (b : Batch) (s : Store)
    (fs : List SourceFile) :
    g.closures [] queries = queries.map (fun p => (g.closure [] p).1) ∧
      b.decideAll b.graph [] s fs = b.decideTasks s (fs.map (freshTask b.graph)) := by
  refine ⟨Graph.closures_eq_map .nothing queries, ?_⟩
  rw [decideAll_eq, tasksFrom_eq_map .nothing]

/-! ## Whole stages -/

/-- What deciding a task can come to, where it does not end the batch. -/
inductive Decides (b : Batch) (s : Store) (t : Task) : Decision → Store → Prop where
  | unkeyed {e : ClosureError} (closure : t.closure = .error e) :
    Decides b s t (.decided (.failed t.file.path b.target .unkeyed e.diagnostic)) s
  | found {c : List String} {e : Entry} {store : Store} (closure : t.closure = .ok c)
    (look : s.lookup (b.key t.file c) = (.ok (some e), store)) :
    Decides b s t (.decided ⟨t.file.path, b.target, e.ascribe t.file.path,
      .cached (b.key t.file c)⟩) store
  | missing {c : List String} {store : Store} (closure : t.closure = .ok c)
    (look : s.lookup (b.key t.file c) = (.ok none, store)) :
    Decides b s t (.pending ⟨t.file, b.key t.file c, c⟩) store

theorem decideTask_cases (b : Batch) (s : Store) (t : Task) :
    (∃ d s', b.decideTask s t = (.ok d, s') ∧ b.Decides s t d s') ∨
      ∃ c e s', t.closure = .ok c ∧ s.lookup (b.key t.file c) = (.error e, s') ∧
        b.decideTask s t = (.error e, s') := by
  unfold decideTask
  cases hc : t.closure with
  | error e => exact .inl ⟨_, _, rfl, .unkeyed hc⟩
  | ok c =>
    simp only
    cases hl : s.lookup (b.key t.file c) with
    | mk answer store =>
      cases answer with
      | error e => exact .inr ⟨c, e, store, rfl, hl, rfl⟩
      | ok found =>
        cases found with
        | some e => exact .inl ⟨_, _, rfl, .found hc hl⟩
        | none => exact .inl ⟨_, _, rfl, .missing hc hl⟩

theorem decides_of_decideTask {b : Batch} {s s' : Store} {t : Task} {d : Decision}
    (h : b.decideTask s t = (.ok d, s')) : b.Decides s t d s' := by
  obtain ⟨d', s₁, heq, hd⟩ | ⟨c, e, s₁, -, -, heq⟩ := b.decideTask_cases s t
  · rw [h] at heq
    obtain ⟨hd', hs'⟩ := Prod.mk.inj heq
    obtain rfl := Except.ok.inj hd'
    exact hs' ▸ hd
  · rw [h] at heq
    exact absurd (Prod.mk.inj heq).1 (by simp)

theorem lookup_of_decideTask_eq_error {b : Batch} {s s' : Store} {t : Task} {e : Json.TooDeep}
    (h : b.decideTask s t = (.error e, s')) :
    ∃ c, t.closure = .ok c ∧ s.lookup (b.key t.file c) = (.error e, s') := by
  obtain ⟨d', s₁, heq, hd⟩ | ⟨c, e', s₁, hc, hl, heq⟩ := b.decideTask_cases s t
  · rw [h] at heq
    exact absurd (Prod.mk.inj heq).1 (by simp)
  · rw [h] at heq
    obtain ⟨he, hs'⟩ := Prod.mk.inj heq
    obtain rfl := Except.error.inj he
    exact ⟨c, hc, hs' ▸ hl⟩

/-- A unit that waits to be compiled is an entry, with its closure and its key. -/
structure Proper (b : Batch) (p : Pending) : Prop where
  entry : p.file ∈ b.entries
  walk : b.graph.Walk p.file.path p.closure
  key : p.key = b.key p.file p.closure

/-- A unit that waits to be compiled once its task is decided has its closure and its key. -/
theorem Decides.proper {b : Batch} {t : Task} (ht : b.Tasked t) {s s' : Store} {p : Pending}
    (h : b.Decides s t (.pending p) s') : b.Proper p := by
  cases h with
  | missing closure => exact ⟨ht.entry, (ht.walk _).1 closure, rfl⟩

/-- A decision leaves the keys in flight alone. -/
theorem Decides.inFlight {b : Batch} {s s' : Store} {t : Task} {d : Decision}
    (h : b.Decides s t d s') : s'.inFlight = s.inFlight := by
  cases h with
  | unkeyed => rfl
  | found _ look => rw [← Store.inFlight_lookup s, look]
  | missing _ look => rw [← Store.inFlight_lookup s, look]

/-- What stands on the right of two related lists is related to something on the left. -/
theorem exists_mem_left_of_forall₂ {α β : Type} {R : α → β → Prop} {as : List α} {bs : List β}
    (h : List.Forall₂ R as bs) {b : β} (hb : b ∈ bs) : ∃ a ∈ as, R a b := by
  induction h with
  | nil => exact absurd hb List.not_mem_nil
  | @cons a b' as bs hab _ ih =>
    rcases List.mem_cons.1 hb with rfl | hb
    · exact ⟨a, List.mem_cons_self, hab⟩
    · obtain ⟨a', ha', hR⟩ := ih hb
      exact ⟨a', List.mem_cons_of_mem _ ha', hR⟩

/-- What each decision keeps and says holds of the whole first stage, up to the task that ends it. -/
theorem decideTasks_invariant (b : Batch) {I : Store → Prop} {D : Task → Decision → Prop}
    {ts : List Task}
    (step : ∀ t ∈ ts, ∀ s d s', I s → b.Decides s t d s' → I s' ∧ D t d)
    {s : Store} (hs : I s) :
    match b.decideTasks s ts with
    | (.ok ds, s') => I s' ∧ List.Forall₂ D ts ds
    | (.error e, s') => ∃ t ∈ ts, ∃ s₁, I s₁ ∧ b.decideTask s₁ t = (.error e, s') := by
  induction ts generalizing s with
  | nil => exact ⟨hs, .nil⟩
  | cons t ts ih =>
    rw [decideTasks]
    cases hd : b.decideTask s t with
    | mk answer s₁ =>
      cases answer with
      | error e => exact ⟨t, List.mem_cons_self, s, hs, hd⟩
      | ok d =>
        obtain ⟨hs₁, hD⟩ := step t List.mem_cons_self s d s₁ hs (decides_of_decideTask hd)
        have hrest := ih (fun t' ht' => step t' (List.mem_cons_of_mem _ ht')) hs₁
        simp only
        revert hrest
        generalize b.decideTasks s₁ ts = decided
        obtain ⟨answer, s'⟩ := decided
        cases answer with
        | error e =>
          rintro ⟨t', ht', s₂, hs₂, he⟩
          exact ⟨t', List.mem_cons_of_mem _ ht', s₂, hs₂, he⟩
        | ok ds =>
          rintro ⟨hs', hds⟩
          exact ⟨hs', .cons hD hds⟩

/-- The result of a decision in the second stage: the one there is, or one of the compilation. -/
def Finished (Q : Pending → UnitResult → Prop) : Decision → UnitResult → Prop
  | .decided r, u => u = r
  | .pending p, u => Q p u

/-- What each compilation keeps and says holds of the whole second stage, up to the unit that it is stuck
at. -/
theorem finish_invariant (b : Batch) (compiler : Compiler) {I : Progress → Prop}
    {Q : Pending → UnitResult → Prop} {ds : List Decision}
    (step : ∀ p, .pending p ∈ ds → ∀ s u s', I s → b.compile compiler s p = (.ok u, s') →
      I s' ∧ Q p u)
    {s : Progress} (hs : I s) :
    match b.finish compiler s ds with
    | (.ok us, s') => I s' ∧ List.Forall₂ (Finished Q) ds us
    | (.error e, s') => ∃ p, .pending p ∈ ds ∧ ∃ s₁, I s₁ ∧ b.compile compiler s₁ p = (.error e, s')
    := by
  induction ds generalizing s with
  | nil => exact ⟨hs, .nil⟩
  | cons d ds ih =>
    have ih := fun {s} => ih (s := s) fun p hp => step p (List.mem_cons_of_mem _ hp)
    cases d with
    | decided r =>
      have hrest := ih hs
      rw [finish]
      revert hrest
      generalize b.finish compiler s ds = finished
      obtain ⟨answer, s'⟩ := finished
      cases answer with
      | error e =>
        rintro ⟨p, hp, hstuck⟩
        exact ⟨p, List.mem_cons_of_mem _ hp, hstuck⟩
      | ok us =>
        rintro ⟨hI, hds⟩
        exact ⟨hI, .cons rfl hds⟩
    | pending p =>
      rw [finish]
      cases hc : b.compile compiler s p with
      | mk answer s₁ =>
        cases answer with
        | error e => exact ⟨p, List.mem_cons_self, s, hs, hc⟩
        | ok u =>
          obtain ⟨hI, hQ⟩ := step p List.mem_cons_self s u s₁ hs hc
          have hrest := ih hI
          simp only
          revert hrest
          generalize b.finish compiler s₁ ds = finished
          obtain ⟨answer, s'⟩ := finished
          cases answer with
          | error e =>
            rintro ⟨p', hp', hstuck⟩
            exact ⟨p', List.mem_cons_of_mem _ hp', hstuck⟩
          | ok us =>
            rintro ⟨hI', hds⟩
            exact ⟨hI', .cons hQ hds⟩

theorem finish_append (b : Batch) (compiler : Compiler) (s : Progress) (ds es : List Decision) :
    b.finish compiler s (ds ++ es) =
      match b.finish compiler s ds with
      | (.error e, s') => (.error e, s')
      | (.ok us, s') =>
        ((b.finish compiler s' es).1.map (us ++ ·), (b.finish compiler s' es).2) := by
  induction ds generalizing s with
  | nil =>
    simp only [List.nil_append, finish]
    generalize b.finish compiler s es = finished
    obtain ⟨answer, s'⟩ := finished
    cases answer <;> rfl
  | cons d ds ih =>
    cases d with
    | decided r =>
      simp only [List.cons_append, finish, ih]
      generalize b.finish compiler s ds = finished
      obtain ⟨answer, s'⟩ := finished
      cases answer with
      | error e => rfl
      | ok us =>
        simp only [Except.map]
        generalize (b.finish compiler s' es).1 = answer
        cases answer <;> rfl
    | pending p =>
      simp only [List.cons_append, finish]
      generalize b.compile compiler s p = compiled
      obtain ⟨answer, s₁⟩ := compiled
      cases answer with
      | error e => rfl
      | ok u =>
        simp only [ih]
        generalize b.finish compiler s₁ ds = finished
        obtain ⟨answer, s'⟩ := finished
        cases answer with
        | error e => rfl
        | ok us =>
          simp only [Except.map]
          generalize (b.finish compiler s' es).1 = answer
          cases answer <;> rfl

/-- The second stage is stuck at one of its units, behind some that it comes to. -/
theorem finish_eq_error {b : Batch} {compiler : Compiler} {s s' : Progress} {ds : List Decision}
    {e : Stuck} (h : b.finish compiler s ds = (.error e, s')) :
    ∃ front p back us s₁, ds = front ++ .pending p :: back ∧
      b.finish compiler s front = (.ok us, s₁) ∧ b.compile compiler s₁ p = (.error e, s') := by
  induction ds generalizing s with
  | nil => exact absurd (Prod.mk.inj h).1 (by simp)
  | cons d ds ih =>
    cases d with
    | decided r =>
      rw [finish] at h
      cases hrest : b.finish compiler s ds with
      | mk answer s₂ =>
        rw [hrest] at h
        cases answer with
        | ok us => exact absurd (Prod.mk.inj h).1 (by simp [Except.map])
        | error e' =>
          obtain ⟨he, rfl⟩ := Prod.mk.inj h
          obtain rfl := Except.error.inj he
          obtain ⟨front, p, back, us, s₁, rfl, hfront, hstuck⟩ := ih hrest
          exact ⟨.decided r :: front, p, back, r :: us, s₁, rfl, by simp [finish, hfront, Except.map],
            hstuck⟩
    | pending p =>
      rw [finish] at h
      cases hc : b.compile compiler s p with
      | mk answer s₁ =>
        rw [hc] at h
        cases answer with
        | error e' =>
          simp only [Prod.mk.injEq, Except.error.injEq] at h
          obtain ⟨rfl, rfl⟩ := h
          exact ⟨[], p, ds, [], s, rfl, rfl, hc⟩
        | ok u =>
          simp only at h
          cases hrest : b.finish compiler s₁ ds with
          | mk answer s₂ =>
            rw [hrest] at h
            cases answer with
            | ok us => exact absurd (Prod.mk.inj h).1 (by simp [Except.map])
            | error e' =>
              obtain ⟨he, rfl⟩ := Prod.mk.inj h
              obtain rfl := Except.error.inj he
              obtain ⟨front, p', back, us, s₃, rfl, hfront, hstuck⟩ := ih hrest
              exact ⟨.pending p :: front, p', back, u :: us, s₃, rfl,
                by simp [finish, hc, hfront, Except.map], hstuck⟩

/-! ## One compilation -/

/-- The session that compiles a file, followed with the loader of the batch. -/
def session (b : Batch) (compiler : Compiler) (f : SourceFile) :
    Transcript (Except Compile.Fault Compile.Output) :=
  (compiler f b.options).run b.load

/-- The call of the compiler for a file. -/
def callFor (b : Batch) (compiler : Compiler) (f : SourceFile) : Call :=
  ⟨f.path, (b.session compiler f).requests⟩

/-- What a compilation comes to is made of whole texts, so no halves in it belong together. -/
theorem isApart_of_entryOf {b : Batch} {p : Pending} {result : Except Compile.Fault Compile.Output} {e : Entry}
    (h : b.entryOf p result = .ok e) : e.IsApart := by
  unfold entryOf at h
  split at h
  · obtain rfl := Except.ok.inj h
    intro t ht
    simp only [Entry.texts, Entry.css?, Entry.diagnostic?, List.mem_append, Option.mem_toList,
      Option.map_eq_some_iff, List.mem_map, Option.toList_some, List.mem_singleton, Option.map_none,
      Option.getD_none, List.not_mem_nil, or_false] at ht
    rcases ht with (rfl | ⟨s, -, rfl⟩) | ⟨s, -, rfl⟩
    · exact Text.Loose.isApart_whole _
    · exact Text.Loose.isApart_whole s
    · exact Text.Loose.isApart_whole s
  · obtain rfl := Except.ok.inj h
    intro t ht
    simp only [Entry.texts, Entry.css?, Entry.diagnostic?, Diagnostic.texts,
      Compile.Rejection.diagnostic, List.mem_append, Option.toList_none, List.not_mem_nil,
      false_or, List.mem_map, Option.map_some, Option.getD_some, List.mem_cons, Option.mem_toList,
      Option.map_eq_some_iff] at ht
    rcases ht with ⟨s, -, rfl⟩ | rfl | ⟨s, -, rfl⟩
    · exact Text.Loose.isApart_whole s
    · exact Text.Loose.isApart_whole _
    · exact Text.Loose.isApart_whole s
  · exact absurd h (by simp)
  · exact absurd h (by simp)
  · exact absurd h (by simp)

/-- What compiling a pending unit can come to, with the calls that it makes, where it is not stuck. -/
inductive Compiles (b : Batch) (compiler : Compiler) (p : Pending) (s : Progress) :
    UnitResult → List Call → Progress → Prop where
  | calledOff (cancelled : s.cancelled = true) :
    Compiles b compiler p s (.ofCancelled p.file.path b.target p.key) [] s
  | found {e : Entry} {store : Store} (look : s.store.lookup p.key = (.ok (some e), store)) :
    Compiles b compiler p s ⟨p.file.path, b.target, e.ascribe p.file.path, .cached p.key⟩ []
      { s with store }
  | tooDeep {e : Json.TooDeep} {store : Store} (look : s.store.lookup p.key = (.error e, store)) :
    Compiles b compiler p s (.ofCrash p.file.path b.target p.key e.message) [] { s with store }
  | crashed {reason : String} {store : Store} (look : s.store.lookup p.key = (.ok none, store))
    (outcome : b.entryOf p (b.session compiler p.file).result = .error reason) :
    Compiles b compiler p s (.ofCrash p.file.path b.target p.key reason)
      [b.callFor compiler p.file]
      ⟨store, b.callFor compiler p.file :: s.calls, (b.session compiler p.file).cancelled⟩
  | unstored {e : Entry} {store store' : Store} {failure : Cache.StoreError}
    (look : s.store.lookup p.key = (.ok none, store))
    (outcome : b.entryOf p (b.session compiler p.file).result = .ok e)
    (kept : store.store p.key e = (some failure, store')) :
    Compiles b compiler p s (.ofCrash p.file.path b.target p.key failure.message)
      [b.callFor compiler p.file]
      ⟨store'.claim p.key, b.callFor compiler p.file :: s.calls,
        (b.session compiler p.file).cancelled⟩
  | compiled {e : Entry} {store store' : Store}
    (look : s.store.lookup p.key = (.ok none, store))
    (outcome : b.entryOf p (b.session compiler p.file).result = .ok e)
    (kept : store.store p.key e = (none, store')) :
    Compiles b compiler p s ⟨p.file.path, b.target, e.ascribe p.file.path, .compiled p.key⟩
      [b.callFor compiler p.file]
      ⟨store', b.callFor compiler p.file :: s.calls, (b.session compiler p.file).cancelled⟩

/-- Compiling a pending unit comes to one of these, or the unit is stuck: its key is in flight, and
nothing is found under it. -/
theorem compile_cases (b : Batch) (compiler : Compiler) (s : Progress) (p : Pending) :
    (∃ u made s', b.compile compiler s p = (.ok u, s') ∧ b.Compiles compiler p s u made s') ∨
      ∃ store, s.store.lookup p.key = (.ok none, store) ∧ p.key ∈ s.store.inFlight ∧
        b.compile compiler s p = (.error ⟨p.key⟩, { s with store }) := by
  obtain ⟨start, calls, cancelled⟩ := s
  unfold compile
  cases cancelled with
  | true => exact .inl ⟨_, [], _, rfl, .calledOff rfl⟩
  | false =>
    by_cases hflight : p.key ∈ start.inFlight
    · cases hl : start.lookup p.key with
      | mk answer store =>
        have hclaimed : store.inFlight.contains p.key = true := by
          rw [← Store.inFlight_lookup start p.key, hl] at hflight
          simpa using hflight
        simp only [Store.getOrCompute, hl, Bool.false_eq_true, if_false]
        cases answer with
        | error e => exact .inl ⟨_, _, _, rfl, .tooDeep hl⟩
        | ok found =>
          cases found with
          | some e => exact .inl ⟨_, _, _, rfl, .found hl⟩
          | none =>
            simp only [hclaimed, if_true]
            exact .inr ⟨store, rfl, hflight, rfl⟩
    · left
      simp only [Store.getOrCompute_of_free hflight, Bool.false_eq_true, if_false]
      cases hl : start.lookup p.key with
      | mk answer store =>
        cases answer with
        | error e => exact ⟨_, _, _, rfl, .tooDeep hl⟩
        | ok found =>
          cases found with
          | some e => exact ⟨_, _, _, rfl, .found hl⟩
          | none =>
            simp only
            cases ho : b.entryOf p (b.session compiler p.file).result with
            | error reason =>
              have ho' := ho
              rw [session] at ho'
              rw [ho']
              exact ⟨_, _, _, rfl, .crashed hl ho⟩
            | ok e =>
              have ho' := ho
              rw [session] at ho'
              rw [ho']
              simp only
              cases hk : store.store p.key e with
              | mk failure store' =>
                cases failure with
                | some failure => exact ⟨_, _, _, rfl, .unstored hl ho hk⟩
                | none => exact ⟨_, _, _, rfl, .compiled hl ho hk⟩

variable {b : Batch} {compiler : Compiler}

theorem compiles_of_compile {p : Pending} {s s' : Progress} {u : UnitResult}
    (h : b.compile compiler s p = (.ok u, s')) : ∃ made, b.Compiles compiler p s u made s' := by
  obtain ⟨u', made, s₁, heq, hc⟩ | ⟨store, -, -, heq⟩ := b.compile_cases compiler s p
  · rw [h] at heq
    obtain ⟨hu, hs'⟩ := Prod.mk.inj heq
    obtain rfl := Except.ok.inj hu
    exact ⟨made, hs' ▸ hc⟩
  · rw [h] at heq
    exact absurd (Prod.mk.inj heq).1 (by simp)

/-- A unit is stuck where its key is in flight and nothing is found under it. -/
theorem stuck_of_compile {p : Pending} {s s' : Progress} {e : Stuck}
    (h : b.compile compiler s p = (.error e, s')) :
    e = ⟨p.key⟩ ∧ p.key ∈ s.store.inFlight ∧
      ∃ store, s.store.lookup p.key = (.ok none, store) ∧ s' = { s with store } := by
  obtain ⟨u', made, s₁, heq, -⟩ | ⟨store, hl, hflight, heq⟩ := b.compile_cases compiler s p
  · rw [h] at heq
    exact absurd (Prod.mk.inj heq).1 (by simp)
  · rw [h] at heq
    obtain ⟨he, hs'⟩ := Prod.mk.inj heq
    exact ⟨Except.error.inj he, hflight, store, hl, hs'⟩

/-- A compilation makes one call at most. -/
theorem Compiles.made {p : Pending} {s s' : Progress} {u : UnitResult} {made : List Call}
    (h : b.Compiles compiler p s u made s') : made.reverse = made := by
  cases h <;> rfl

/-- A compilation adds its calls to those before. -/
theorem Compiles.calls {p : Pending} {s s' : Progress} {u : UnitResult} {made : List Call}
    (h : b.Compiles compiler p s u made s') : s'.calls = made ++ s.calls := by
  cases h <;> rfl

/-! ## Whole batches -/

/-- The two stages of a batch over its tasks. -/
theorem execute_eq (b : Batch) (compiler : Compiler) (s : Store) :
    b.execute compiler s =
      match b.decideTasks s b.tasks with
      | (.error e, s') => (.error (.tooDeep e), s')
      | (.ok ds, s') =>
        match b.finish compiler ⟨s', [], false⟩ ds with
        | (.error e, progress) => (.error (.stuck e), progress.store)
        | (.ok results, progress) => (.ok (results, progress.calls.reverse), progress.store) := by
  have hdecided : b.decideAll b.graph [] s b.entries = b.decideTasks s b.tasks := decideAll_eq ..
  unfold execute
  exact hdecided ▸ rfl

/-- The batch over the files that take part in a build for a target. -/
def ofFiles (o : CompileOptions) (target : Option String) (files : FileSet) : Batch :=
  ⟨o, target, files.visible target⟩

end Batch

/-- The report of a batch that was executed. -/
def Context.report (c : Context) (b : Batch) :
    Except Batch.Halt (List UnitResult × List Call) × Store → Except BatchError Report
  | (.error (.tooDeep e), s) => .error (.tooDeep e s { c with graph := some b.graph })
  | (.error (.stuck e), s) => .error (.stuck e.key s { c with graph := some b.graph })
  | (.ok (results, calls), s) => .ok ⟨⟨results⟩, s, calls, { c with graph := some b.graph }⟩

/-- An open context refuses files exactly when two of them have one path. -/
theorem run_eq_duplicate_iff {c : Context} (hopen : c.closed = false) (compiler : Compiler) (s : Store)
    (files : List SourceFile) (target : Option String) :
    (∃ p, run c compiler s files target = .error (.duplicate p)) ↔ ¬ (files.map (·.path)).Nodup := by
  rw [← FileSet.ofDistinct_eq_error_iff]
  unfold run
  rw [hopen]
  cases FileSet.ofDistinct files with
  | error p => simp
  | ok all =>
    simp only [Bool.false_eq_true, if_false]
    split <;> simp

/-- An open context executes the batch over the files of a set. -/
theorem run_files {c : Context} (hopen : c.closed = false) (compiler : Compiler) (s : Store)
    (files : FileSet) (target : Option String) :
    run c compiler s files.files target
      = c.report (.ofFiles c.options target files)
        ((Batch.ofFiles c.options target files).execute compiler s) := by
  obtain ⟨options, graph, closed⟩ := c
  obtain rfl : closed = false := hopen
  simp only [run, FileSet.ofDistinct_files, Batch.ofFiles, Bool.false_eq_true, if_false]
  generalize Batch.execute _ compiler s = executed
  obtain ⟨answer, s'⟩ := executed
  cases answer with
  | error e => cases e <;> rfl
  | ok p => rfl

end Build

end SheetBuild
