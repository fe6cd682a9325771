import SheetBuild.Compile.Compiler
import SheetBuild.Proofs.Import.Files
set_option autoImplicit false

/-!
# What an engine asks for

An engine knows the entry by a name of its own, so it meets the loader of a build through `importer`.
A compilation is then the run of the engine with that loader, and what the engine comes to depends on
the job and on the answers only (`run_compiler`).

`AsksReported` says of a series of requests that each is for a reference that scanning finds in a
text that was given before it.  Such an engine never leaves the texts that its references lead to:
what holds of the job, and of every text that is served for a reference of a text of which it holds,
holds of every text that the engine asks in.
-/

namespace SheetBuild.Compile

open SheetBuild.Import (Reference Reported)

/-- The loader as an engine meets it that compiles an entry. -/
def importer (load : Loader) (entry : String) : Loader :=
  fun reference name => load reference (importerPath entry name)

/-- A request of an engine as the loader meets it. -/
def Request.forEntry (entry : String) (q : Request) : Request :=
  { q with importer := importerPath entry q.importer }

namespace Session

variable {α β : Type}

theorem run_renameImporters (load : Loader) (f : String → String) (s : Session α) :
    (s.renameImporters f).run load
      = ⟨(s.run fun r i => load r (f i)).result,
        (s.run fun r i => load r (f i)).requests.map fun q => { q with importer := f q.importer },
        (s.run fun r i => load r (f i)).cancelled⟩ := by
  induction s with
  | finish a => rfl
  | ask r i k ih => simp [renameImporters, run, ih]
  | cancel s ih => simp [renameImporters, run, ih]

theorem run_map (load : Loader) (f : α → β) (s : Session α) :
    (s.map f).run load
      = ⟨f (s.run load).result, (s.run load).requests, (s.run load).cancelled⟩ := by
  induction s with
  | finish a => rfl
  | ask r i k ih =>
    have hk := ih (load r i)
    simp only [map] at hk
    simp [map, bind, run, hk]
  | cancel s ih =>
    simp only [map] at ih
    simp [map, bind, run, ih]

/-- Every answer in a run is the loader's. -/
theorem answer_eq_of_mem_requests {load : Loader} {s : Session α} {q : Request}
    (h : q ∈ (s.run load).requests) : q.answer = load q.reference q.importer := by
  induction s with
  | finish a => simp [run] at h
  | ask r i k ih =>
    rcases List.mem_cons.1 h with rfl | h
    · rfl
    · exact ih (load r i) h
  | cancel s ih => exact ih h

end Session

/-- A compilation is the run of the engine with the loader as it meets it. -/
theorem run_compiler (engine : Engine) (root : Option String) (f : SourceFile)
    (o : CompileOptions) (load : Loader) :
    (engine.compiler root f o).run load
      = ⟨ofEngine f o ((engine (job root f o)).run (importer load f.path)).result,
        ((engine (job root f o)).run (importer load f.path)).requests.map (.forEntry f.path),
        ((engine (job root f o)).run (importer load f.path)).cancelled⟩ := by
  rw [Engine.compiler, Session.run_map, Session.run_renameImporters]
  rfl

/-- The path does not go into the job of a file, but for the spelling that it tells. -/
theorem job_congr {f g : SourceFile} (root : Option String) (o : CompileOptions)
    (hc : f.content = g.content) (hi : f.isIndented = g.isIndented) :
    job root f o = job root g o := by
  simp only [job, SourceFile.text, hc, hi]

/-! ## Texts given to an engine -/

/-- A text that an engine was given, under the name by which the engine refers to it. -/
structure Given where
  name : String
  indented : Bool
  text : List Char
  deriving DecidableEq, Repr

namespace Given

/-- The text of a job: the entry goes by its own name, and by none. -/
def ofJob (j : Job) : List Given :=
  [⟨entryName, j.indented, j.text⟩, ⟨"", j.indented, j.text⟩]

/-- The text that an answer gives, in the spelling that its path tells. -/
def ofAnswer : Option (String × String) → List Given
  | none => []
  | some (path, text) => [⟨path, Path.isIndented path.toList, text.toList⟩]

end Given

/-- Every request is for a reference that scanning finds in a text given before, by the name of that
text. -/
def AsksReported : List Given → List Request → Prop
  | _, [] => True
  | given, q :: qs =>
    (∃ t ∈ given, t.name = q.importer ∧
        ∃ r, Reported t.indented t.text r ∧ r.target = q.reference) ∧
      AsksReported (given ++ Given.ofAnswer q.answer) qs

/-- On a job and with a loader, the engine asks for nothing but what scanning finds in the texts that
it was given. -/
def Engine.AsksReported (engine : Engine) (j : Job) (load : Loader) : Prop :=
  Compile.AsksReported (Given.ofJob j) ((engine j).run load).requests

/-- What holds of the texts given, and passes from a text to those served for its references, holds of
every text in which a request is made. -/
theorem exists_given_of_asksReported {load : Loader} {P : Given → Prop}
    (hstep : ∀ t, P t → ∀ r, Reported t.indented t.text r →
      ∀ u ∈ Given.ofAnswer (load r.target t.name), P u) :
    ∀ {qs : List Request} {given : List Given}, (∀ t ∈ given, P t) →
      (∀ q ∈ qs, q.answer = load q.reference q.importer) → AsksReported given qs →
      ∀ q ∈ qs, ∃ t, P t ∧ t.name = q.importer ∧
        ∃ r, Reported t.indented t.text r ∧ r.target = q.reference := by
  intro qs
  induction qs with
  | nil => simp
  | cons q qs ih =>
    intro given hgiven hanswer hasks p hp
    obtain ⟨⟨t, ht, hname, r, hr, htarget⟩, hrest⟩ := hasks
    rcases List.mem_cons.1 hp with rfl | hp
    · exact ⟨t, hgiven t ht, hname, r, hr, htarget⟩
    · refine ih (fun u hu => ?_) (fun q' hq' => hanswer q' (List.mem_cons_of_mem _ hq')) hrest p hp
      rcases List.mem_append.1 hu with hu | hu
      · exact hgiven u hu
      · rw [hanswer q List.mem_cons_self, ← htarget, ← hname] at hu
        exact hstep t (hgiven t ht) r hr u hu

/-- An engine that asks for reported references comes to the same end with two loaders that answer
alike in every text that it can be given. -/
theorem run_eq_of_asksReported {engine : Engine} {j : Job} {load load' : Loader}
    {P : Given → Prop} (hasks : engine.AsksReported j load) (hjob : ∀ t ∈ Given.ofJob j, P t)
    (hstep : ∀ t, P t → ∀ r, Reported t.indented t.text r →
      load' r.target t.name = load r.target t.name ∧
        ∀ u ∈ Given.ofAnswer (load r.target t.name), P u) :
    (engine j).run load' = (engine j).run load := by
  apply Session.run_congr
  intro q hq
  have hanswer : ∀ q ∈ ((engine j).run load).requests, q.answer = load q.reference q.importer :=
    fun q hq => Session.answer_eq_of_mem_requests hq
  obtain ⟨t, ht, hname, r, hr, htarget⟩ := exists_given_of_asksReported
    (fun t ht r hr => (hstep t ht r hr).2) hjob hanswer hasks q hq
  rw [hanswer q hq, ← hname, ← htarget]
  exact (hstep t ht r hr).1

end SheetBuild.Compile
