import SheetBuild.Proofs.Compile.Requests
set_option autoImplicit false

/-!
# Results that may stand for each other

Where two files share a stored result, one is given what was made of the other.  That is sound when
the results are `Interchangeable`: the same stylesheet, or the same refusal, with each file in the
place of the other where the refusal names it.

For files of one content, every engine comes to interchangeable results exactly when the files have
the same spelling and every reference has the same answer in both (`interchangeable_iff`).  For
engines that ask for reported references only, the references of the text are enough
(`interchangeable_iff_of_asksReported`).
-/

namespace SheetBuild.Compile

open SheetBuild.Import (Refers)

/-- The results of two files may stand for each other: they are equal, up to the file itself where a
refusal names it. -/
inductive Interchangeable (p q : String) : Except Fault Output → Except Fault Output → Prop where
  | output (out : Output) : Interchangeable p q (.ok out) (.ok out)
  | rejected {r s : Rejection} (message : r.message = s.message) (line : r.line = s.line)
    (column : r.column = s.column)
    (file : r.sourceFile = s.sourceFile ∨ r.sourceFile = some p ∧ s.sourceFile = some q) :
    Interchangeable p q (.error (.rejected r)) (.error (.rejected s))
  | fault (e : Fault) : Interchangeable p q (.error e) (.error e)

/-- Interchangeable outputs are equal. -/
theorem Interchangeable.output_eq {p q : String} {a b : Output}
    (h : Interchangeable p q (.ok a) (.ok b)) : a = b := by
  cases h
  rfl

/-- A report is read alike for every entry, up to the entry itself. -/
theorem interchangeable_ofReport (p q message : String) :
    Interchangeable p q (.error (.ofReport message p)) (.error (.ofReport message q)) := by
  simp only [Fault.ofReport, Rejection.ofReport]
  generalize place? (Text.trim message.toList) = place
  cases place with
  | none => exact .rejected rfl rfl rfl (.inr ⟨rfl, rfl⟩)
  | some place =>
    dsimp only
    generalize number place.line = line
    generalize number place.column = column
    cases line with
    | error e => exact .fault e
    | ok line =>
      cases column with
      | error e => exact .fault e
      | ok column =>
        refine .rejected rfl rfl rfl ?_
        by_cases hfile : place.file = entryName
        · exact .inr ⟨congrArg some (if_pos hfile), congrArg some (if_pos hfile)⟩
        · exact .inl (congrArg some ((if_neg hfile).trans (if_neg hfile).symm))

/-- What an engine comes to is read alike for every file, up to the file itself. -/
theorem interchangeable_ofEngine (f g : SourceFile) (o : CompileOptions)
    (result : Except EngineFault String) :
    Interchangeable f.path g.path (ofEngine f o result) (ofEngine g o result) := by
  have hrefl : ∀ r : Except Fault Output, Interchangeable f.path g.path r r := by
    rintro (e | out)
    · exact .fault e
    · exact .output out
  cases result with
  | error e =>
    cases e with
    | reported message => exact interchangeable_ofReport f.path g.path message
    | crashed reason => exact hrefl _
  | ok css => exact hrefl _

/-! ## Engines that tell files apart -/

/-- A stylesheet that tells one bit. -/
def verdict (b : Bool) : String := if b then "1" else "0"

/-- A verdict holds no source map. -/
theorem ofEngine_verdict (f : SourceFile) (o : CompileOptions) (b : Bool) :
    ofEngine f o (.ok (verdict b)) = .ok ⟨verdict b, none⟩ := by
  have hsplit : EmbeddedMap.split (verdict b).toList = .ok ((verdict b).toList, none) := by
    cases b <;> decide +kernel
  simp only [ofEngine, hsplit, Option.map_none, String.ofList_toList, ite_self]

theorem eq_of_interchangeable_verdict {p q : String} {a b : Bool}
    (h : Interchangeable p q (.ok ⟨verdict a, none⟩) (.ok ⟨verdict b, none⟩)) : a = b := by
  have hverdict : verdict a = verdict b := congrArg (·.css) h.output_eq
  cases a <;> cases b <;> simp_all [verdict]

/-- An engine that tells the spelling of the entry. -/
def tellSpelling : Engine := fun j => .finish (.ok (verdict j.indented))

/-- An engine that tells whether a reference in the entry has an answer. -/
def tellAnswer (reference : String) (answer : Option (String × String)) : Engine := fun _ =>
  .ask reference entryName fun a => .finish (.ok (verdict (a = answer)))

variable {f g : SourceFile} {o : CompileOptions} {load : Loader}

theorem result_tellSpelling (root : Option String) (f : SourceFile) (o : CompileOptions)
    (load : Loader) :
    ((tellSpelling.compiler root f o).run load).result = .ok ⟨verdict f.isIndented, none⟩ := by
  have hrun : ((tellSpelling (job root f o)).run (importer load f.path)).result
      = .ok (verdict f.isIndented) := rfl
  rw [run_compiler, hrun, ofEngine_verdict]

theorem result_tellAnswer (root : Option String) (f : SourceFile) (o : CompileOptions)
    (load : Loader) (reference : String) (answer : Option (String × String)) :
    (((tellAnswer reference answer).compiler root f o).run load).result
      = .ok ⟨verdict (load reference f.path = answer), none⟩ := by
  have hentry : importer load f.path reference entryName = load reference f.path := by
    simp [importer, importerPath]
  rw [run_compiler, tellAnswer, Session.run, hentry, Session.run_finish, ofEngine_verdict]

/-! ## When two files may share a result -/

/-- A file compiles to interchangeable results wherever the run of the engine is the same. -/
theorem interchangeable_of_run_eq {engine : Engine} {root : Option String}
    (hjob : job root g o = job root f o)
    (hrun : (engine (job root f o)).run (importer load g.path)
      = (engine (job root f o)).run (importer load f.path)) :
    Interchangeable f.path g.path ((engine.compiler root f o).run load).result
      ((engine.compiler root g o).run load).result := by
  rw [run_compiler, run_compiler, hjob, hrun]
  exact interchangeable_ofEngine f g o _

/-- Files of one content may share their result for every engine exactly when they are spelled alike
and every reference has one answer in both. -/
theorem interchangeable_iff (root : Option String) (hcontent : f.content = g.content) :
    (∀ engine : Engine, Interchangeable f.path g.path ((engine.compiler root f o).run load).result
        ((engine.compiler root g o).run load).result) ↔
      f.isIndented = g.isIndented ∧
        ∀ reference, load reference f.path = load reference g.path := by
  constructor
  · intro h
    refine ⟨?_, ?_⟩
    · have hspelling := h tellSpelling
      rw [result_tellSpelling, result_tellSpelling] at hspelling
      exact eq_of_interchangeable_verdict hspelling
    · intro reference
      have hanswer := h (tellAnswer reference (load reference f.path))
      rw [result_tellAnswer, result_tellAnswer] at hanswer
      have hbit := eq_of_interchangeable_verdict hanswer
      rw [decide_eq_true rfl] at hbit
      exact (of_decide_eq_true hbit.symm).symm
  · rintro ⟨hindented, hload⟩ engine
    refine interchangeable_of_run_eq (job_congr root o hcontent hindented).symm ?_
    have himporter : importer load g.path = importer load f.path := by
      funext reference name
      unfold importer importerPath
      split
      · exact (hload reference).symm
      · rfl
    rw [himporter]

/-- For engines that ask for reported references, where served texts are not mistaken for the entry,
the references of the text decide. -/
theorem interchangeable_iff_of_asksReported (root : Option String)
    (hcontent : f.content = g.content)
    (hserved : ∀ reference place path text entry, load reference place = some (path, text) →
      importerPath entry path = path) :
    (∀ engine : Engine, engine.AsksReported (job root f o) (importer load f.path) →
        Interchangeable f.path g.path ((engine.compiler root f o).run load).result
          ((engine.compiler root g o).run load).result) ↔
      f.isIndented = g.isIndented ∧
        ∀ r, Refers f r → load r.target f.path = load r.target g.path := by
  constructor
  · intro h
    refine ⟨?_, ?_⟩
    · have hspelling := h tellSpelling trivial
      rw [result_tellSpelling, result_tellSpelling] at hspelling
      exact eq_of_interchangeable_verdict hspelling
    · intro r hr
      have hanswer := h (tellAnswer r.target (load r.target f.path))
        ⟨⟨_, List.mem_cons_self, rfl, r, hr, rfl⟩, trivial⟩
      rw [result_tellAnswer, result_tellAnswer] at hanswer
      have hbit := eq_of_interchangeable_verdict hanswer
      rw [decide_eq_true rfl] at hbit
      exact (of_decide_eq_true hbit.symm).symm
  · rintro ⟨hindented, hload⟩ engine hasks
    refine interchangeable_of_run_eq (job_congr root o hcontent hindented).symm ?_
    -- a text is the entry's, or it goes by a name that means one path for both entries
    refine run_eq_of_asksReported (P := fun t => t ∈ Given.ofJob (job root f o) ∨
      ∀ entry, importerPath entry t.name = t.name) hasks (fun t ht => .inl ht) ?_
    intro t ht r hr
    constructor
    · rcases ht with ht | hname
      · have hentry : ∀ entry, importerPath entry t.name = entry ∧ Refers f r := by
          intro entry
          rcases List.mem_cons.1 ht with rfl | ht
          · exact ⟨by simp [importerPath], hr⟩
          · obtain rfl := List.mem_singleton.1 ht
            exact ⟨by simp [importerPath], hr⟩
        rw [importer, importer, (hentry g.path).1, (hentry f.path).1]
        exact (hload r (hentry f.path).2).symm
      · rw [importer, importer, hname, hname]
    · intro u hu
      right
      intro entry
      cases hanswer : importer load f.path r.target t.name with
      | none =>
        rw [hanswer] at hu
        exact absurd hu List.not_mem_nil
      | some served =>
        obtain ⟨path, text⟩ := served
        rw [hanswer, Given.ofAnswer, List.mem_singleton] at hu
        subst hu
        exact hserved _ _ path text entry hanswer

end SheetBuild.Compile
