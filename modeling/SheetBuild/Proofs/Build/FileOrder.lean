import SheetBuild.Proofs.Build.Outcomes
set_option autoImplicit false

/-!
# The order of the files

A batch looks files up by their paths, follows references from file to file, and takes its entries
in the order of their paths.  So the order in which files are reported does not show in it, and a
file of another target never takes part: batches over two lists with the same visible files, in any
order and among any others, cannot be told apart (`run_of_visible_perm`).
-/

namespace SheetBuild

variable {files files' : FileSet}

/-- Files are found by their paths, in whatever order they stand. -/
theorem FileSet.get?_eq_of_perm (h : files.files.Perm files'.files) : files.get? = files'.get? := by
  funext path
  refine Option.ext fun f => ?_
  rw [get?_eq_some_iff, get?_eq_some_iff, h.mem_iff]

namespace Import

/-! ## References and closures -/

theorem resolve_eq_of_perm (h : files.files.Perm files'.files) :
    resolve files = resolve files' := by
  funext includePaths importer reference
  rw [resolve, resolve, FileSet.get?_eq_of_perm h]

theorem Node.ofFile_eq_of_perm (h : files.files.Perm files'.files) :
    ofFile files = ofFile files' := by
  funext includePaths f
  exact ofFile_congr rfl rfl fun r _ => by rw [follow, follow, resolve_eq_of_perm h]

namespace Graph

/-- The graph of files in another order has its nodes in another order. -/
theorem nodes_perm (h : files.files.Perm files'.files) (includePaths : List String) :
    (ofFiles files includePaths).nodes.Perm (ofFiles files' includePaths).nodes := by
  rw [ofFiles, ofFiles, Node.ofFile_eq_of_perm h]
  exact h.map _

theorem node?_eq_of_perm (h : files.files.Perm files'.files) (includePaths : List String) :
    (ofFiles files includePaths).node? = (ofFiles files' includePaths).node? := by
  funext p
  rw [node?_ofFiles, node?_ofFiles, FileSet.get?_eq_of_perm h, Node.ofFile_eq_of_perm h]

/-- A visit asks for the nodes of paths only. -/
theorem visit_congr {g g' : Graph} (h : g.node? = g'.node?) (fuel : Nat) :
    g.visit fuel = g'.visit fuel := by
  induction fuel with
  | zero => rfl
  | succ fuel ih =>
    funext trail memo path
    rw [visit, visit, imports, imports, problems, problems, h, ih]

/-- Queries come to the same closures and the same failures, in whatever order the files stand: the
bound on the depth counts the files. -/
theorem closure_eq_of_perm (h : files.files.Perm files'.files) (includePaths : List String) :
    (ofFiles files includePaths).closure = (ofFiles files' includePaths).closure := by
  funext memo path
  rw [closure, closure, (nodes_perm h includePaths).length_eq,
    visit_congr (node?_eq_of_perm h includePaths)]

end Graph

end Import

namespace Build

open SheetBuild.Cache (Store)
open SheetBuild.Compile (Compiler)
open SheetBuild.Import (Graph)

namespace Batch

/-! ## The two stages -/

variable {o : CompileOptions} {target : Option String}

theorem entries_eq_of_perm (h : files.files.Perm files'.files) :
    (⟨o, target, files⟩ : Batch).entries = (⟨o, target, files'⟩ : Batch).entries :=
  entries_eq_of_perm_of_pairwise ((h.filter _).trans (perm_entries ⟨o, target, files'⟩).symm)
    (pairwise_path_entries ⟨o, target, files'⟩)

theorem key_eq_of_perm (h : files.files.Perm files'.files) :
    (⟨o, target, files⟩ : Batch).key = (⟨o, target, files'⟩ : Batch).key := by
  funext f closure
  simp only [key, FileSet.get?_eq_of_perm h]

theorem load_eq_of_perm (h : files.files.Perm files'.files) :
    (⟨o, target, files⟩ : Batch).load = (⟨o, target, files'⟩ : Batch).load := by
  funext reference importer
  simp only [load, Import.resolve_eq_of_perm h]

theorem tasksFrom_congr {g g' : Graph} (h : g.closure = g'.closure) (memo : Graph.Memo)
    (fs : List SourceFile) : tasksFrom g memo fs = tasksFrom g' memo fs := by
  induction fs generalizing memo with
  | nil => rfl
  | cons f fs ih => rw [tasksFrom, tasksFrom, h, ih]

theorem tasks_eq_of_perm (h : files.files.Perm files'.files) :
    (⟨o, target, files⟩ : Batch).tasks = (⟨o, target, files'⟩ : Batch).tasks := by
  rw [tasks, tasks, entries_eq_of_perm h]
  exact tasksFrom_congr (Graph.closure_eq_of_perm h o.includePaths) [] _

theorem decideTask_eq_of_perm (h : files.files.Perm files'.files) :
    (⟨o, target, files⟩ : Batch).decideTask = (⟨o, target, files'⟩ : Batch).decideTask := by
  funext s t
  simp only [decideTask, key_eq_of_perm h]

theorem decideTasks_eq_of_perm (h : files.files.Perm files'.files) (s : Store) (ts : List Task) :
    (⟨o, target, files⟩ : Batch).decideTasks s ts
      = (⟨o, target, files'⟩ : Batch).decideTasks s ts := by
  induction ts generalizing s with
  | nil => rfl
  | cons t ts ih => simp only [decideTasks, decideTask_eq_of_perm h, ih]

theorem compile_eq_of_perm (h : files.files.Perm files'.files) :
    (⟨o, target, files⟩ : Batch).compile = (⟨o, target, files'⟩ : Batch).compile := by
  funext compiler s p
  simp only [compile, load_eq_of_perm h]
  rfl

theorem finish_eq_of_perm (h : files.files.Perm files'.files) (compiler : Compiler) (s : Progress)
    (ds : List Decision) :
    (⟨o, target, files⟩ : Batch).finish compiler s ds
      = (⟨o, target, files'⟩ : Batch).finish compiler s ds := by
  induction ds generalizing s with
  | nil => rfl
  | cons d ds ih =>
    cases d with
    | decided r => simp only [finish, ih]
    | pending p => simp only [finish, compile_eq_of_perm h, ih]

theorem execute_eq_of_perm (h : files.files.Perm files'.files) (compiler : Compiler) (s : Store) :
    (⟨o, target, files⟩ : Batch).execute compiler s
      = (⟨o, target, files'⟩ : Batch).execute compiler s := by
  simp only [execute_eq, tasks_eq_of_perm h, decideTasks_eq_of_perm h, finish_eq_of_perm h]

end Batch

/-! ## Whole batches -/

/-- Two contexts with the imports of the same files, which may stand in another order. -/
structure Context.SameFiles (c c' : Context) : Prop where
  options : c.options = c'.options
  closed : c.closed = c'.closed
  graph : Option.Rel (fun g g' => g.nodes.Perm g'.nodes) c.graph c'.graph

/-- Two runs of batches that cannot be told apart: the same refusal, or the same results, calls and
store, up to the order in which the context has noted the files. -/
inductive Alike : Except BatchError Report → Except BatchError Report → Prop where
  | closed : Alike (.error .closed) (.error .closed)
  | tooDeep {c c' : Context} (context : c.SameFiles c') (e : Json.TooDeep) (s : Store) :
    Alike (.error (.tooDeep e s c)) (.error (.tooDeep e s c'))
  | stuck {c c' : Context} (context : c.SameFiles c') (key : String) (s : Store) :
    Alike (.error (.stuck key s c)) (.error (.stuck key s c'))
  | done {c c' : Context} (context : c.SameFiles c') (result : BatchResult) (s : Store)
    (calls : List Call) : Alike (.ok ⟨result, s, calls, c⟩) (.ok ⟨result, s, calls, c'⟩)

/-- What a batch comes to depends on the files that are visible to its target, and not on their
order or on the other files. -/
theorem run_of_visible_perm (c : Context) (compiler : Compiler) (s : Store) {target : Option String}
    (h : (files.visible target).files.Perm (files'.visible target).files) :
    Alike (run c compiler s files.files target) (run c compiler s files'.files target) := by
  cases hclosed : c.closed with
  | true =>
    rw [run, run, hclosed]
    exact .closed
  | false =>
    have hcontext : Context.SameFiles
        { c with graph := some (Batch.ofFiles c.options target files).graph }
        { c with graph := some (Batch.ofFiles c.options target files').graph } :=
      ⟨rfl, rfl, .some (Graph.nodes_perm h c.options.includePaths)⟩
    rw [run_files hclosed, run_files hclosed, Batch.ofFiles, Batch.ofFiles,
      Batch.execute_eq_of_perm h]
    generalize Batch.execute _ compiler s = executed
    obtain ⟨answer, s'⟩ := executed
    cases answer with
    | error e =>
      cases e with
      | tooDeep e => exact .tooDeep hcontext e s'
      | stuck e => exact .stuck hcontext e.key s'
    | ok p => exact .done hcontext ⟨p.1⟩ s' p.2

/-! ## A sheet and its partial among files of another target -/

/-- A sheet that uses a partial. -/
def pair : FileSet := .ofList [.ofText "a.scss" "@use 'm'", .ofText "_m.sass" "b"]

/-- The two files the other way round, among files of another target: one that the reference would
resolve to, which imports itself, and one that cannot be scanned. -/
def pairAmongOthers : FileSet := .ofList [
  { SourceFile.ofText "_m.scss" "@import 'm';" with target := some "app" }, .ofText "_m.sass" "b",
  { SourceFile.ofText "open.scss" "@import 'a" with target := some "app" },
  .ofText "a.scss" "@use 'm'"]

/-- A compiler that gives back what it is served for `m`. -/
def repeatM : Compiler := fun f _ => .ask "m" f.path fun answer =>
  .finish (.ok ⟨(answer.map (·.2)).getD "", none⟩)

/-- A batch for the first target comes to the same among the other files, and the partial that takes
part is served. -/
theorem run_pairAmongOthers :
    Alike (run {} repeatM {} pair.files (some "web"))
      (run {} repeatM {} pairAmongOthers.files (some "web")) ∧
    ((run {} repeatM {} pairAmongOthers.files (some "web")).toOption.map (·.calls)) = some
      [⟨"a.scss", [⟨"m", "a.scss", some ("_m.sass", "b")⟩]⟩] := by
  refine ⟨run_of_visible_perm {} repeatM {} ?_, by decide +kernel⟩
  have hswap : (pairAmongOthers.visible (some "web")).files
      = (pair.visible (some "web")).files.reverse := by
    decide +kernel
  rw [hswap]
  exact (List.reverse_perm _).symm

end Build

end SheetBuild
