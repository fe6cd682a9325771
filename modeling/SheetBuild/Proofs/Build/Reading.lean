import SheetBuild.Compile.Listing
import SheetBuild.Proofs.Build.Digested
import SheetBuild.Proofs.Build.Loading
import SheetBuild.Proofs.Compile.Reading
set_option autoImplicit false

/-!
# Reading an entry

The closure of an entry is found before anything is compiled, each file once, and what a compilation
reads is found by its requests.  For an engine that reads everything the two are the same: reading
comes to an end, a request goes unanswered only when its reference is external, and the paths that
are served, each at its first time, are the closure (`servedPaths_eq_closure`).
-/

namespace SheetBuild.Build

open SheetBuild.Compile (Engine Reads Request entryName importer importerPath job servedPaths)
open SheetBuild.Import (Graph Node Reference isExternal resolve scan)

namespace Batch

variable {b : Batch} {entry : String}

/-- A request is left unanswered exactly when its reference is external. -/
def AnswersAll (qs : List Request) : Prop :=
  ∀ q ∈ qs, q.answer = none ↔ isExternal q.reference.toList = true

/-- While an entry is compiled, reading the references of the text `name` comes to an end, leaves
unanswered what is external, and finds these paths. -/
def ReadsAs (b : Batch) (entry name : String) (references : List Reference)
    (found : List String) : Prop :=
  ∃ qs, Reads (importer b.load entry) name references qs ∧ AnswersAll qs ∧
    (servedPaths qs).eraseDups = found

/-- Reading a text finds each file that it refers to, with what is found below that file. -/
theorem readsAs_of_references {p name : String} {below : String → List String}
    (hname : importerPath entry name = p) (rs : List Reference)
    (hbelow : ∀ r ∈ rs, resolve b.files b.options.includePaths p r.target = .external ∨
      ∃ t references, resolve b.files b.options.includePaths p r.target = .found t ∧
        scan t.isIndented t.text = .ok references ∧
        b.ReadsAs entry t.path references (below t.path)) :
    b.ReadsAs entry name rs
      ((rs.filterMap (Node.leadsTo? b.files b.options.includePaths p)).flatMap
        fun d => d :: below d).eraseDups := by
  induction rs with
  | nil => exact ⟨[], .done name, fun q hq => absurd hq List.not_mem_nil, rfl⟩
  | cons r rs ih =>
    obtain ⟨qs, hreads, hanswers, hserved⟩ :=
      ih fun r' hr' => hbelow r' (List.mem_cons_of_mem _ hr')
    have hload : importer b.load entry r.target name = b.load r.target p := by
      rw [importer, hname]
    rcases hbelow r List.mem_cons_self with
      hx | ⟨t, references, ht, hscan, inner, hinside, hinner, hpaths⟩
    · have hleads : Node.leadsTo? b.files b.options.includePaths p r = none := by
        rw [Node.leadsTo?, hx]
      refine ⟨_, .unserved (hload.trans (load_of_external hx)) hreads, ?_, ?_⟩
      · intro q hq
        rcases List.mem_cons.1 hq with rfl | hq
        · simpa using Import.resolve_eq_external_iff.1 hx
        · exact hanswers q hq
      · rw [Compile.servedPaths_cons_none, List.filterMap_cons_none hleads, hserved]
    · have hleads : Node.leadsTo? b.files b.options.includePaths p r = some t.path :=
        Node.leadsTo?_eq_some_iff.2 ⟨t, ht, rfl⟩
      refine ⟨_, .served (hload.trans (load_of_found ht))
        (by rw [String.toList_ofList]; exact hscan) hinside hreads, ?_, ?_⟩
      · intro q hq
        rcases List.mem_cons.1 hq with rfl | hq
        · simp [(Import.resolve_eq_found_iff.1 ht).1]
        · exact (List.mem_append.1 hq).elim (hinner q) (hanswers q)
      · have hfirst : (t.path :: servedPaths inner).eraseDups
            = (t.path :: below t.path).eraseDups := by
          rw [← hpaths]
          exact Graph.eraseDups_append_congr (a := [t.path]) rfl
            (Graph.eraseDups_eraseDups _).symm
        rw [Compile.servedPaths_cons_some, Compile.servedPaths_append,
          List.filterMap_cons_some hleads, List.flatMap_cons, ← List.cons_append]
        exact Graph.eraseDups_append_congr hfirst hserved

/-- Reading a file that has a walk finds what the walk finds. -/
theorem readsAs_of_walk {p : String} {c : List String} (h : b.graph.Walk p c) :
    ∀ {name : String} {f : SourceFile}, importerPath entry name = p → b.files.get? p = some f →
      ∃ references, scan f.isIndented f.text = .ok references ∧
        b.ReadsAs entry name references c := by
  induction h with
  | @node p below clean down ih =>
    intro name f hname hf
    have hwalk : b.graph.Walk p _ := .node below clean down
    obtain ⟨references, hscan, hresolve⟩ := hwalk.exists_scan List.mem_cons_self hf
    have himports : b.graph.imports p
        = (references.filterMap (Node.leadsTo? b.files b.options.includePaths p)).eraseDups := by
      obtain ⟨-, rfl⟩ := FileSet.mem_of_get? hf
      rw [graph_eq, Graph.imports_ofFiles hf, Node.imports_ofFile hscan]
    have hreads : b.ReadsAs entry name references
        ((references.filterMap (Node.leadsTo? b.files b.options.includePaths p)).flatMap
          fun d => d :: below d).eraseDups := by
      apply readsAs_of_references hname references
      intro r hr
      rcases hresolve r hr with hx | ⟨t, ht, -⟩
      · exact .inl hx
      · have hmem : t.path ∈ b.graph.imports p := by
          rw [himports, List.mem_eraseDups, List.mem_filterMap]
          exact ⟨r, hr, Node.leadsTo?_eq_some_iff.2 ⟨t, ht, rfl⟩⟩
        obtain ⟨inside, hinside, hbelow⟩ := ih t.path hmem (importerPath_of_resolve ht entry)
          (FileSet.get?_of_mem (Import.mem_of_resolve_eq_found ht))
        exact .inr ⟨t, inside, ht, hinside, hbelow⟩
    -- the graph keeps each import once, and the second time it would add nothing
    refine ⟨references, hscan, ?_⟩
    rwa [himports, ← Graph.merge_nil, Graph.merge_eraseDups_flatMap, Graph.merge_nil]

end Batch

/-- A compilation reads exactly the closure that goes into the key of its entry.  Reading the entry
comes to an end; a request is left unanswered exactly when its reference is external; what is served
is a file that takes part, with its text; the paths in the order in which they are first served are
the closure; and an engine that reads everything makes just these requests. -/
theorem servedPaths_eq_closure {b : Batch} {all : FileSet} {f : SourceFile} {memo : Graph.Memo}
    {c : List String} (hfiles : b.files = all.visible b.target) (hf : f ∈ b.entries)
    (hm : b.graph.Asked memo) (hc : (b.graph.closure memo f.path).1 = .ok c) :
    ∃ references qs, scan f.isIndented f.text = .ok references ∧
      Reads (importer b.load f.path) entryName references qs ∧
      (∀ q ∈ qs, q.answer = none ↔ isExternal q.reference.toList = true) ∧
      (∀ q ∈ qs, ∀ path text, q.answer = some (path, text) →
        ∃ t ∈ all.files, t.isVisibleTo b.target ∧ t.path = path ∧ String.ofList t.text = text) ∧
      (servedPaths qs).eraseDups = c ∧
      ∀ (engine : Engine) (root : Option String),
        engine.ReadsThrough (job root f b.options) (importer b.load f.path) →
        ((engine.compiler root f b.options).run b.load).requests = qs.map (.forEntry f.path) := by
  have hwalk := (Graph.closure_eq_ok_iff hm).1 hc
  have hentry : importerPath f.path entryName = f.path := by simp [importerPath]
  obtain ⟨references, hscan, qs, hreads, hanswers, hserved⟩ :=
    Batch.readsAs_of_walk hwalk hentry (FileSet.get?_of_mem (Batch.mem_of_mem_entries hf))
  refine ⟨references, qs, hscan, hreads, hanswers, ?_, hserved, ?_⟩
  · intro q hq path text hanswer
    rw [hreads.answer_eq hq] at hanswer
    obtain ⟨t, ht, hpath, htext⟩ := Batch.exists_found_of_load hanswer
    have hmem := Import.mem_of_resolve_eq_found ht
    rw [hfiles] at hmem
    obtain ⟨hmem, hvisible⟩ := List.mem_filter.1 hmem
    exact ⟨t, hmem, hvisible, hpath, htext⟩
  · intro engine root hengine
    exact Compile.requests_of_readsThrough hengine hscan hreads

/-! ## A sheet that reaches a file twice -/

/-- A sheet that imports two partials, of which the first uses the second. -/
def twofold : SourceFile := .ofText "a.scss" "@import 'm', 'x.css', 'n'"

/-- The sheet, its partials, and a file of another target. -/
def shelf : FileSet :=
  .ofList [twofold, .ofText "_m.scss" "@use 'n'", .ofText "_n.scss" "",
    { SourceFile.ofText "m.scss" "@import 'a'" with target := some "print" }]

/-- What the listing engine asks for when it compiles the sheet. -/
def askedInTwofold : List Request :=
  [⟨"m", "stdin", some ("_m.scss", "@use 'n'")⟩, ⟨"n", "_m.scss", some ("_n.scss", "")⟩,
    ⟨"x.css", "stdin", none⟩, ⟨"n", "stdin", some ("_n.scss", "")⟩]

/-- The build of the sheet for a target. -/
def shelved : Batch := ⟨{}, some "web", shelf.visible (some "web")⟩

/-- On the sheet the listing engine reads everything, so what it reads is the closure. -/
theorem servedPaths_twofold :
    (servedPaths ((Compile.Listing.engine.compiler none twofold shelved.options).run
      shelved.load).requests).eraseDups = ["_m.scss", "_n.scss"] := by
  have hthrough : Compile.Listing.engine.ReadsThrough (job none twofold shelved.options)
      (importer shelved.load twofold.path) := by
    intro references qs hscan hreads
    have hreferences : references
        = [⟨.import_, "m", 1, 9⟩, ⟨.import_, "x.css", 1, 14⟩, ⟨.import_, "n", 1, 23⟩] :=
      Except.ok.inj (hscan.symm.trans (by decide +kernel))
    subst hreferences
    have hempty : scan (Path.isIndented "_n.scss".toList) "".toList = .ok [] := by
      decide +kernel
    have hpartial : Reads (importer shelved.load twofold.path) "_m.scss" [⟨.use, "n", 1, 6⟩]
        [⟨"n", "_m.scss", some ("_n.scss", "")⟩] :=
      .served (by decide +kernel) hempty (.done _) (.done _)
    have hasked : qs = askedInTwofold :=
      hreads.unique (.served (by decide +kernel) (by decide +kernel) hpartial
        (.unserved (by decide +kernel)
          (.served (by decide +kernel) hempty (.done _) (.done _))))
    rw [hasked]
    decide +kernel
  have hc : (shelved.graph.closure [] twofold.path).1 = .ok ["_m.scss", "_n.scss"] := by
    decide +kernel
  obtain ⟨references, qs, -, -, -, -, hserved, hrequests⟩ :=
    servedPaths_eq_closure rfl (Batch.mem_entries.2 (by decide +kernel)) .nothing hc
  rw [hrequests Compile.Listing.engine none hthrough, Compile.servedPaths_map_forEntry, hserved]

end SheetBuild.Build
