import SheetBuild.Proofs.Build.Digested
import SheetBuild.Proofs.Build.Loading
set_option autoImplicit false

/-!
# Equal keys in two batches

The key of an entry records which files it reaches, in order, but not which reference led to which
file.  It does not have to: where an entry has one key in two batches, both batches hold all files
that it reaches in either, so neither can hold a file that shadows an answer of the other.  Hence
every reference on the way has one answer in both batches, and so has the compilation
(`compile_eq_of_key_eq`).
-/

namespace SheetBuild.Build

open SheetBuild.Compile (Engine Given importer importerPath job)
open SheetBuild.Import (Graph Refers Reported Resolution resolve)

/-- Two answers that leave a reference to the compiler, or name files with one path and one
content. -/
inductive SameAnswer : Resolution → Resolution → Prop where
  | external : SameAnswer .external .external
  | found {f g : SourceFile} (path : f.path = g.path) (content : f.content = g.content) :
    SameAnswer (.found f) (.found g)

namespace Batch

variable {b₁ b₂ : Batch}

/-- References in a file that two walks have in common have one answer. -/
theorem sameAnswer_of_walks {p : String} {c : List String} (hoptions : b₁.options = b₂.options)
    (hagree : AgreeAt b₁ b₂ (p :: c)) (hc₁ : b₁.graph.Walk p c) (hc₂ : b₂.graph.Walk p c)
    {q : String} (hq : q ∈ p :: c) {g : SourceFile} (hg : b₁.files.get? q = some g)
    {r : Import.Reference} (hr : Refers g r) :
    SameAnswer (resolve b₁.files b₁.options.includePaths q r.target)
      (resolve b₂.files b₂.options.includePaths q r.target) := by
  obtain ⟨g₁, g₂, hg₁, hg₂, hcontent, -⟩ := hagree q hq
  obtain rfl : g = g₁ := Option.some.inj (hg.symm.trans hg₁)
  have hpath : g.path = g₂.path :=
    (FileSet.mem_of_get? hg₁).2.trans (FileSet.mem_of_get? hg₂).2.symm
  have hr₂ := (Import.refers_congr hpath hcontent).1 hr
  rcases hc₁.resolve_of_refers hq hg₁ hr with hx₁ | ⟨t₁, ht₁, hmem₁⟩
  · have hx := Import.resolve_eq_external_iff.1 hx₁
    rw [hx₁, Import.resolve_eq_external_iff.2 hx]
    exact .external
  rcases hc₂.resolve_of_refers hq hg₂ hr₂ with hx₂ | ⟨t₂, ht₂, hmem₂⟩
  · rw [Import.resolve_eq_external_iff.2 (Import.resolve_eq_external_iff.1 hx₂)] at ht₁
    exact absurd ht₁ (by simp)
  -- each answer is reached, so the other batch holds it as well, and neither shadows the other
  obtain ⟨s₁, s₂, hs₁, hs₂, hs, -⟩ := hagree t₁.path (List.mem_cons_of_mem _ hmem₁)
  obtain ⟨u₁, -, hu₁, -, -⟩ := hagree t₂.path (List.mem_cons_of_mem _ hmem₂)
  have hsame : t₁.path = t₂.path := by
    rw [hoptions] at ht₁
    exact Import.path_eq_of_resolve ht₁ ht₂ (by simp [hs₂]) (by simp [hu₁])
  have ht₁' := FileSet.get?_of_mem (Import.mem_of_resolve_eq_found ht₁)
  have ht₂' := FileSet.get?_of_mem (Import.mem_of_resolve_eq_found ht₂)
  rw [← hsame] at ht₂'
  rw [ht₁, ht₂]
  refine .found hsame ?_
  rw [Option.some.inj (ht₁'.symm.trans hs₁), Option.some.inj (ht₂'.symm.trans hs₂), hs]

/-- Loaders serve one text where references have one answer. -/
theorem load_eq_of_sameAnswer {reference place : String}
    (h : SameAnswer (resolve b₁.files b₁.options.includePaths place reference)
      (resolve b₂.files b₂.options.includePaths place reference)) :
    b₁.load reference place = b₂.load reference place := by
  unfold load
  generalize resolve b₁.files b₁.options.includePaths place reference = answer₁ at h ⊢
  generalize resolve b₂.files b₂.options.includePaths place reference = answer₂ at h ⊢
  cases h with
  | external => rfl
  | found path content => simp only [SourceFile.text, path, content]

/-- A text of a file that a walk starts from or finds, under the name by which an engine that compiles
the start refers to it. -/
def OnWalk (b : Batch) (entry : String) (ps : List String) (t : Given) : Prop :=
  ∃ q ∈ ps, ∃ g, b.files.get? q = some g ∧ importerPath entry t.name = q ∧
    t.indented = g.isIndented ∧ t.text = g.text

/-- The text of the job is on the walk. -/
theorem onWalk_of_mem_ofJob {b : Batch} {f : SourceFile} (hf : f ∈ b.files.files)
    (root : Option String) {c : List String} {t : Given}
    (ht : t ∈ Given.ofJob (job root f b.options)) : b.OnWalk f.path (f.path :: c) t := by
  refine ⟨f.path, List.mem_cons_self, f, FileSet.get?_of_mem hf, ?_⟩
  rcases List.mem_cons.1 ht with rfl | ht
  · exact ⟨by simp [importerPath], rfl, rfl⟩
  · obtain rfl := List.mem_singleton.1 ht
    exact ⟨by simp [importerPath], rfl, rfl⟩

/-- What is served for a reference of a text on the walk is on the walk. -/
theorem onWalk_of_mem_ofAnswer {b : Batch} {p : String} {c : List String} {t u : Given}
    {r : Import.Reference} (hc : b.graph.Walk p c) (ht : b.OnWalk p (p :: c) t)
    (hr : Import.Reported t.indented t.text r)
    (hu : u ∈ Given.ofAnswer (importer b.load p r.target t.name)) : b.OnWalk p (p :: c) u := by
  obtain ⟨q, hq, g, hg, hname, hindented, htext⟩ := ht
  rw [hindented, htext] at hr
  rw [importer, hname] at hu
  rcases hc.resolve_of_refers hq hg hr with hx | ⟨s, hs, hmem⟩
  · rw [load_of_external hx] at hu
    exact absurd hu List.not_mem_nil
  · rw [load_of_found hs, given_of_found, List.mem_singleton] at hu
    subst hu
    exact ⟨s.path, List.mem_cons_of_mem _ hmem, s,
      FileSet.get?_of_mem (Import.mem_of_resolve_eq_found hs), importerPath_of_resolve hs p, rfl,
      rfl⟩

/-- Files of one path and content are compiled alike in two batches that have a walk in common and
agree on it. -/
theorem run_compiler_eq_of_walks {f₁ f₂ : SourceFile} {c : List String} {engine : Engine}
    {root : Option String} (hoptions : b₁.options = b₂.options) (hpath : f₁.path = f₂.path)
    (hcontent : f₁.content = f₂.content) (hf₁ : f₁ ∈ b₁.files.files)
    (hagree : AgreeAt b₁ b₂ (f₁.path :: c)) (hc₁ : b₁.graph.Walk f₁.path c)
    (hc₂ : b₂.graph.Walk f₁.path c)
    (hasks : engine.AsksReported (job root f₁ b₁.options) (importer b₁.load f₁.path)) :
    (engine.compiler root f₁ b₁.options).run b₁.load
      = (engine.compiler root f₂ b₂.options).run b₂.load := by
  have hrun : (engine (job root f₁ b₁.options)).run (importer b₂.load f₁.path)
      = (engine (job root f₁ b₁.options)).run (importer b₁.load f₁.path) := by
    apply Compile.run_eq_of_asksReported (P := b₁.OnWalk f₁.path (f₁.path :: c)) hasks
    · intro t ht
      exact onWalk_of_mem_ofJob hf₁ root ht
    · intro t ht r hr
      refine ⟨?_, fun u hu => onWalk_of_mem_ofAnswer hc₁ ht hr hu⟩
      obtain ⟨q, hq, g, hg, hname, hindented, htext⟩ := ht
      rw [hindented, htext] at hr
      rw [importer, importer, hname]
      have hsame := sameAnswer_of_walks hoptions hagree hc₁ hc₂ hq hg hr
      exact (load_eq_of_sameAnswer hsame).symm
  have hindented : f₁.isIndented = f₂.isIndented := by
    rw [SourceFile.isIndented, SourceFile.isIndented, hpath]
  have hjob : job root f₂ b₂.options = job root f₁ b₁.options := by
    rw [← hoptions]
    exact (Compile.job_congr root _ hcontent hindented).symm
  rw [Compile.run_compiler, Compile.run_compiler, hjob, ← hpath, hrun]
  simp only [Compile.ofEngine, hpath, hoptions]

/-- An entry that has one key in two batches is compiled alike in both: the options are the same, it
reaches the same paths in the same order with the same contents, every reference in it and in them has
the same answer, and an engine that asks for nothing else comes to the same result by the same
requests. -/
theorem compile_eq_of_key_eq {f₁ f₂ : SourceFile} {memo₁ memo₂ : Graph.Memo}
    {c₁ c₂ : List String} (hdig₁ : b₁.files.Digested) (hdig₂ : b₂.files.Digested)
    (hcf : Digest.CollisionFree (b₁.digested ++ b₂.digested))
    (hf₁ : f₁ ∈ b₁.entries) (hf₂ : f₂ ∈ b₂.entries) (hpath : f₁.path = f₂.path)
    (hm₁ : b₁.graph.Asked memo₁) (hm₂ : b₂.graph.Asked memo₂)
    (hc₁ : (b₁.graph.closure memo₁ f₁.path).1 = .ok c₁)
    (hc₂ : (b₂.graph.closure memo₂ f₂.path).1 = .ok c₂)
    (hkey : b₁.key f₁ c₁ = b₂.key f₂ c₂) :
    b₁.options = b₂.options ∧ c₁ = c₂ ∧ AgreeAt b₁ b₂ (f₁.path :: c₁) ∧
      (∀ q ∈ f₁.path :: c₁, ∀ g, b₁.files.get? q = some g → ∀ r, Refers g r →
        SameAnswer (resolve b₁.files b₁.options.includePaths q r.target)
          (resolve b₂.files b₂.options.includePaths q r.target) ∧
        b₁.load r.target q = b₂.load r.target q) ∧
      ∀ (engine : Engine) (root : Option String),
        engine.AsksReported (job root f₁ b₁.options) (importer b₁.load f₁.path) →
        (engine.compiler root f₁ b₁.options).run b₁.load
          = (engine.compiler root f₂ b₂.options).run b₂.load := by
  have hw₁ := (Graph.closure_eq_ok_iff hm₁).1 hc₁
  have hw₂ := (Graph.closure_eq_ok_iff hm₂).1 hc₂
  obtain ⟨hoptions, rfl, hentry, hfiles⟩ :=
    inputs_eq_of_key_eq hdig₁ hdig₂ hcf hf₁ hf₂ hw₁ hw₂ hkey
  have hmem₁ := mem_of_mem_entries hf₁
  have hmem₂ := mem_of_mem_entries hf₂
  have hagree : AgreeAt b₁ b₂ (f₁.path :: c₁) := by
    intro q hq
    rcases List.mem_cons.1 hq with rfl | hq
    · exact ⟨f₁, f₂, FileSet.get?_of_mem hmem₁, hpath ▸ FileSet.get?_of_mem hmem₂, hentry⟩
    · exact hfiles q hq
  rw [← hpath] at hw₂
  refine ⟨hoptions, rfl, hagree, ?_, ?_⟩
  · intro q hq g hg r hr
    have hsame := sameAnswer_of_walks hoptions hagree hw₁ hw₂ hq hg hr
    exact ⟨hsame, load_eq_of_sameAnswer hsame⟩
  · intro engine root hasks
    exact run_compiler_eq_of_walks hoptions hpath hentry.1 hmem₁ hagree hw₁ hw₂ hasks

/-! ## A sheet with one key in two batches -/

/-- A sheet that imports a partial. -/
def sheet : SourceFile := .ofText "a.scss" "@import 'm';"

/-- The partial, below an include path. -/
def part : SourceFile := .ofText "lib/_m.scss" "b{}"

/-- The sheet with its partial. -/
def plain : Batch := ⟨{ includePaths := ["lib"] }, none, .ofList [sheet, part]⟩

/-- The same sheet among other files, of which one is named like the partial. -/
def crowded : Batch where
  options := { includePaths := ["lib"] }
  target := some "web"
  files := .ofList [part, .ofText "lib/_m.sass" "@import 'm';", sheet]

/-- An engine that gives back what it is served for `m`. -/
def echo : Engine := fun _ => .ask "m" "stdin" fun answer =>
  .finish (.ok ((answer.map (·.2)).getD ""))

/-- The sheet is compiled alike among the other files. -/
theorem compile_plain_crowded :
    plain.options = crowded.options ∧ plain.AgreeAt crowded ["a.scss", "lib/_m.scss"] ∧
      plain.load "m" "a.scss" = crowded.load "m" "a.scss" ∧
      (echo.compiler none sheet plain.options).run plain.load
        = (echo.compiler none sheet crowded.options).run crowded.load := by
  have hdig : plain.files.Digested := FileSet.digested_ofList (by simp [sheet, part])
  have hdig' : crowded.files.Digested := FileSet.digested_ofList (by simp [sheet, part])
  have hcf : Digest.CollisionFree (plain.digested ++ crowded.digested) := by decide +kernel
  have hc : (plain.graph.closure [] sheet.path).1 = .ok ["lib/_m.scss"] := by decide +kernel
  have hc' : (crowded.graph.closure [] sheet.path).1 = .ok ["lib/_m.scss"] := by decide +kernel
  have hkey : plain.key sheet ["lib/_m.scss"] = crowded.key sheet ["lib/_m.scss"] := by
    refine congrArg Digest.sha256Hex (Cache.keyMaterial_eq_iff.2 ⟨rfl, ?_, rfl⟩)
    decide +kernel
  obtain ⟨hoptions, -, hagree, hload, hrun⟩ := compile_eq_of_key_eq hdig hdig' hcf
    (mem_entries.2 (by decide +kernel)) (mem_entries.2 (by decide +kernel)) rfl .nothing .nothing
    hc hc' hkey
  have hm : Refers sheet ⟨.import_, "m", 1, 9⟩ :=
    ⟨_, by decide +kernel, List.mem_singleton_self _⟩
  refine ⟨hoptions, hagree, ?_, hrun echo none ?_⟩
  · exact (hload "a.scss" List.mem_cons_self sheet (by decide +kernel) _ hm).2
  · exact ⟨⟨_, List.mem_cons_self, rfl, _, hm, rfl⟩, trivial⟩

end Batch

end SheetBuild.Build
