import SheetBuild.Import.Problem
import SheetBuild.Import.Resolve
set_option autoImplicit false

/-!
# The import graph

The files of a build with their direct imports.  Building the graph does not fail: a reference that
resolves to nothing is kept with the file it stands in, and shows when the closure of an entry comes
to that file.

`closure` gives every file that an entry reaches, in the order of a depth-first walk, and keeps the
closures it has found for later queries.  `dependents` gives the files that reach a path.
-/

namespace SheetBuild.Import

/-- A file of the graph. -/
structure Node where
  path : String
  /-- the files it imports, in the order of their first reference -/
  imports : List String
  /-- the references that resolve to nothing -/
  problems : List Problem
  deriving DecidableEq, Repr

/-- The import graph of a build. -/
structure Graph where
  nodes : List Node
  deriving DecidableEq, Repr

namespace Node

/-- The file that a reference resolves to, or its problem; nothing for an external reference. -/
def follow (files : FileSet) (includePaths : List String) (importer : String) (r : Reference) :
    Option (Except Problem String) :=
  match resolve files includePaths importer r.target with
  | .external => none
  | .found f => some (.ok f.path)
  | .unresolved => some (.error (.ofReference importer r))

/-- The target of a followed reference. -/
def target? : Except Problem String → Option String
  | .ok p => some p
  | .error _ => none

/-- The problem of a followed reference. -/
def problem? : Except Problem String → Option Problem
  | .ok _ => none
  | .error p => some p

/-- The node of a file. -/
def ofFile (files : FileSet) (includePaths : List String) (f : SourceFile) : Node :=
  match scan f.isIndented f.text with
  | .error e => ⟨f.path, [], [.ofScanError f.path e]⟩
  | .ok references =>
    let followed := references.filterMap (follow files includePaths f.path)
    ⟨f.path, (followed.filterMap target?).eraseDups, followed.filterMap problem?⟩

end Node

namespace Graph

/-- The graph of a file set. -/
def ofFiles (files : FileSet) (includePaths : List String) : Graph :=
  ⟨files.files.map (Node.ofFile files includePaths)⟩

/-- The files of the graph, in their order. -/
def paths (g : Graph) : List String := g.nodes.map (·.path)

/-- The node of a path. -/
def node? (g : Graph) (path : String) : Option Node := g.nodes.find? fun n => n.path = path

/-- The direct imports of a path; none for a path that is no file of the graph. -/
def imports (g : Graph) (path : String) : List String := ((g.node? path).map (·.imports)).getD []

/-- The problems of a path. -/
def problems (g : Graph) (path : String) : List Problem :=
  ((g.node? path).map (·.problems)).getD []

/-! ## Closures -/

/-- The closures found so far. -/
abbrev Memo : Type := List (String × List String)

/-- The answer of a visit, and the closures known after it. -/
abbrev Visit : Type := Except ClosureError (List String) × Memo

/-- Adds the items that are not there yet, in their order. -/
def merge (acc : List String) (more : List String) : List String :=
  more.foldl (fun acc p => if acc.contains p then acc else acc ++ [p]) acc

/-- Visits paths one after the other and merges each with what it reaches; the first failure ends
it. -/
def visitAll (visit : Memo → String → Visit) (memo : Memo) (acc : List String) :
    List String → Visit
  | [] => (.ok acc, memo)
  | p :: ps =>
    match visit memo p with
    | (.error e, memo') => (.error e, memo')
    | (.ok reached, memo') => visitAll visit memo' (merge acc (p :: reached)) ps

/-- Visits a path.  `trail` holds the paths on the way to it: meeting one of them again closes a
circle.  The first argument bounds the depth of the walk. -/
def visit (g : Graph) : Nat → List String → Memo → String → Visit
  | 0, _, memo, _ => (.ok [], memo)
  | fuel + 1, trail, memo, path =>
    if trail.contains path then
      (.error (.cycle ⟨trail.dropWhile (· ≠ path) ++ [path]⟩), memo)
    else match memo.lookup path with
      | some reached => (.ok reached, memo)
      | none =>
        match g.problems path with
        | p :: _ => (.error (.problem p), memo)
        | [] =>
          match visitAll (visit g fuel (trail ++ [path])) memo [] (g.imports path) with
          | (.error e, memo') => (.error e, memo')
          | (.ok reached, memo') => (.ok reached, (path, reached) :: memo')

/-- The files that a path reaches, in depth-first order, and the closures known afterwards.  A trail
holds each file of the graph at most once, so their number bounds the depth. -/
def closure (g : Graph) (memo : Memo) (path : String) : Visit :=
  g.visit (g.nodes.length + 1) [] memo path

/-! ## Dependents -/

/-- The files that import a path directly. -/
def importers (g : Graph) (path : String) : List String :=
  (g.nodes.filter fun n => n.imports.contains path).map (·.path)

theorem length_filter_cons_lt {paths found : List String} {p : String} (hp : p ∈ paths)
    (hn : p ∉ found) :
    (paths.filter fun q => !(p :: found).contains q).length
      < (paths.filter fun q => !found.contains q).length := by
  have h : (paths.filter fun q => !(p :: found).contains q)
      = (paths.filter fun q => !found.contains q).filter (· ≠ p) := by
    rw [List.filter_filter]
    refine List.filter_congr fun q _ => ?_
    by_cases hq : q = p <;> simp [hq]
  rw [h, List.length_filter_lt_length_iff_exists]
  exact ⟨p, by simp [hp, hn], by simp⟩

/-- Spreads from the pending paths to everything that imports them. -/
def spread (g : Graph) (found : List String) : List String → List String
  | [] => found
  | p :: pending =>
    if found.contains p || !g.paths.contains p then spread g found pending
    else spread g (p :: found) (g.importers p ++ pending)
termination_by pending => ((g.paths.filter fun q => !found.contains q).length, pending.length)
decreasing_by
  · exact Prod.Lex.right _ (by simp)
  · rename_i h
    refine Prod.Lex.left _ _ (length_filter_cons_lt ?_ ?_) <;> simp_all

/-- Paths in the order of their code points. -/
def sortPaths (paths : List String) : List String := paths.mergeSort fun a b => decide (a ≤ b)

/-- The files other than a path that reach it, in the order of their paths. -/
def dependents (g : Graph) (path : String) : List String :=
  sortPaths ((g.spread [] (g.importers path)).filter (· ≠ path))

end Graph

end SheetBuild.Import
