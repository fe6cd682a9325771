import SheetBuild.Build.Unit
import SheetBuild.Cache.Key
import SheetBuild.Cache.Store
import SheetBuild.Compile.Compiler
import SheetBuild.Import.Graph
set_option autoImplicit false

/-!
# Batches

A batch takes all files of a build to one result for each entry.  It looks at the entries in the
order of their paths.  First each gets its closure and its cache key, and the store is asked for it;
then the entries that the store does not have are compiled one after the other.  A unit that fails
never stops another one.  A unit that has to wait for another request does: in a batch that is run by
one worker there is nobody who could end its wait.

`run` gives the results together with the store as it is afterwards and the calls of the compiler.
-/

namespace SheetBuild.Build

open SheetBuild.Cache (Store)
open SheetBuild.Compile (Compiler Loader Request Transcript)
open SheetBuild.Import (Graph)

/-- What a series of batches shares: the options, and the imports of the latest batch. -/
structure Context where
  options : CompileOptions := {}
  graph : Option Graph := none
  closed : Bool := false
  deriving DecidableEq, Repr

/-- Closes a context: it runs no batch any more. -/
def Context.close (c : Context) : Context := { c with closed := true }

/-- Why there is no batch. -/
inductive BatchError where
  | closed
  /-- a path is reported more than once -/
  | duplicate (path : String)
  /-- what is persisted for an entry is too deep; nothing was compiled, and this is what the lookups
  before it left behind -/
  | tooDeep (e : Json.TooDeep) (store : Store) (context : Context)
  /-- a unit waits for a key that stays in flight; this is where the batch stands still -/
  | stuck (key : String) (store : Store) (context : Context)
  deriving DecidableEq, Repr

/-- What is said of a unit that waits for a key. -/
def waitingMessage (key : String) : String :=
  "Waiting for in-flight compilation of " ++ String.ofList (key.toList.take 12)

/-- The wording of a batch error. -/
def BatchError.message : BatchError → String
  | .closed => "BuildContext is closed"
  | .duplicate p => "Source file '" ++ p ++ "' is reported more than once"
  | .tooDeep e _ _ => e.message
  | .stuck key _ _ => waitingMessage key

/-- A call of the compiler: the entry, and what the compiler asked for. -/
structure Call where
  path : String
  requests : List Request
  deriving DecidableEq, Repr

/-- The fixed surroundings of the units of a batch. -/
structure Batch where
  options : CompileOptions
  target : Option String
  /-- the files that take part -/
  files : FileSet

namespace Batch

/-- The imports of the files. -/
def graph (b : Batch) : Graph := .ofFiles b.files b.options.includePaths

/-- The files that compile on their own, in the order of their paths. -/
def entries (b : Batch) : List SourceFile :=
  (b.files.files.filter (·.isEntryFor b.target)).mergeSort fun f g => decide (f.path ≤ g.path)

/-- Serves the imports of a compiler from the files. -/
def load (b : Batch) : Loader := fun reference importer =>
  match Import.resolve b.files b.options.includePaths importer reference with
  | .found f => some (f.path, String.ofList f.text)
  | .external => none
  | .unresolved => none

/-- The key of a unit whose imports are known. -/
def key (b : Batch) (f : SourceFile) (closure : List String) : String :=
  Cache.key f (closure.filterMap b.files.get?) b.options

/-- A unit that has to be compiled. -/
structure Pending where
  file : SourceFile
  key : String
  closure : List String

/-- What is known of a unit before anything is compiled. -/
inductive Decision where
  | decided (result : UnitResult)
  | pending (unit : Pending)

/-- Decides a unit as far as imports and store allow. -/
def decide (b : Batch) (g : Graph) (memo : Graph.Memo) (s : Store) (f : SourceFile) :
    Except Json.TooDeep Decision × Graph.Memo × Store :=
  match g.closure memo f.path with
  | (.error e, memo) => (.ok (.decided (.failed f.path b.target .unkeyed e.diagnostic)), memo, s)
  | (.ok closure, memo) =>
    let key := b.key f closure
    match s.lookup key with
    | (.error e, s) => (.error e, memo, s)
    | (.ok (some e), s) =>
      (.ok (.decided ⟨f.path, b.target, e.ascribe f.path, .cached key⟩), memo, s)
    | (.ok none, s) => (.ok (.pending ⟨f, key, closure⟩), memo, s)

/-- Decides units one after the other. -/
def decideAll (b : Batch) (g : Graph) (memo : Graph.Memo) (s : Store) :
    List SourceFile → Except Json.TooDeep (List Decision) × Store
  | [] => (.ok [], s)
  | f :: fs =>
    match b.decide g memo s f with
    | (.error e, _, s) => (.error e, s)
    | (.ok d, memo, s) =>
      let (ds, s) := decideAll b g memo s fs
      (ds.map (d :: ·), s)

/-- The entry that a compilation comes to, or the reason why it broke down.  A refusal at the entry
itself is stored without a file, since other entries may share it. -/
def entryOf (b : Batch) (p : Pending) : Except Compile.Fault Compile.Output → Except String Entry
  | .ok out =>
    let sourceMap := if b.options.sourceMaps then out.sourceMap else none
    .ok ⟨.css out.css, sourceMap.map .whole, p.closure.map .whole⟩
  | .error (.rejected r) =>
    let r := if r.sourceFile = some p.file.path then { r with sourceFile := none } else r
    .ok ⟨.failed r.diagnostic, none, p.closure.map .whole⟩
  | .error (.longNumber digits) => .error (Number.Integer.limitMessage digits)
  | .error (.badMap e) => .error e.message
  | .error (.crashed reason) => .error reason

/-- The run of a batch after its first units. -/
structure Progress where
  store : Store
  /-- the calls of the compiler, the latest first -/
  calls : List Call := []
  /-- whether the batch was called off -/
  cancelled : Bool := false

/-- Notes a call of the compiler. -/
def Progress.called (s : Progress) (path : String) (t : Transcript (Except Compile.Fault Compile.Output))
    (store : Store) : Progress :=
  ⟨store, ⟨path, t.requests⟩ :: s.calls, t.cancelled⟩

/-- A unit waits for a key that stays in flight. -/
structure Stuck where
  key : String
  deriving DecidableEq, Repr

/-- Compiles a unit, unless the batch has been called off. -/
def compile (b : Batch) (compiler : Compiler) (s : Progress) (p : Pending) :
    Except Stuck UnitResult × Progress :=
  let path := p.file.path
  if s.cancelled then (.ok (.ofCancelled path b.target p.key), s)
  else
    let t := (compiler p.file b.options).run b.load
    match s.store.getOrCompute p.key fun store => (b.entryOf p t.result, store) with
    | (.ok answer, store) =>
      let entry := answer.entry.ascribe path
      if answer.computed then
        (.ok ⟨path, b.target, entry, .compiled p.key⟩, s.called path t store)
      else (.ok ⟨path, b.target, entry, .cached p.key⟩, { s with store })
    | (.error (.failed reason), store) =>
      (.ok (.ofCrash path b.target p.key reason), s.called path t store)
    | (.error (.unstored e), store) =>
      (.ok (.ofCrash path b.target p.key e.message), s.called path t store)
    | (.error (.tooDeep e), store) =>
      (.ok (.ofCrash path b.target p.key e.message), { s with store })
    | (.error .waiting, store) => (.error ⟨p.key⟩, { s with store })

/-- The results of units, of which the pending ones are compiled. -/
def finish (b : Batch) (compiler : Compiler) (s : Progress) :
    List Decision → Except Stuck (List UnitResult) × Progress
  | [] => (.ok [], s)
  | .decided r :: ds =>
    let (rs, s) := finish b compiler s ds
    (rs.map (r :: ·), s)
  | .pending p :: ds =>
    match b.compile compiler s p with
    | (.error e, s) => (.error e, s)
    | (.ok r, s) =>
      let (rs, s) := finish b compiler s ds
      (rs.map (r :: ·), s)

/-- Why a batch does not come to an end. -/
inductive Halt where
  | tooDeep (e : Json.TooDeep)
  | stuck (s : Stuck)
  deriving DecidableEq, Repr

/-- Runs the units of a batch. -/
def execute (b : Batch) (compiler : Compiler) (s : Store) :
    Except Halt (List UnitResult × List Call) × Store :=
  match b.decideAll b.graph [] s b.entries with
  | (.error e, s) => (.error (.tooDeep e), s)
  | (.ok ds, s) =>
    match b.finish compiler ⟨s, [], false⟩ ds with
    | (.error e, progress) => (.error (.stuck e), progress.store)
    | (.ok results, progress) => (.ok (results, progress.calls.reverse), progress.store)

end Batch

/-- Whether a batch over all files of a build makes a key: some unit in it has imports that are known. -/
def makesKey (c : Context) (files : List SourceFile) (target : Option String) : Bool :=
  match FileSet.ofDistinct files with
  | .error _ => false
  | .ok all =>
    let b : Batch := ⟨c.options, target, all.visible target⟩
    b.entries.any fun f => (b.graph.closure [] f.path).1.isOk

/-- What a batch came to. -/
structure Report where
  result : BatchResult
  store : Store
  /-- the calls of the compiler, in order -/
  calls : List Call
  context : Context

/-- Runs a batch over all files of a build; those of another target do not take part. -/
def run (c : Context) (compiler : Compiler) (s : Store) (files : List SourceFile)
    (target : Option String) : Except BatchError Report :=
  if c.closed then .error .closed
  else match FileSet.ofDistinct files with
    | .error p => .error (.duplicate p)
    | .ok all =>
      let b : Batch := ⟨c.options, target, all.visible target⟩
      let context := { c with graph := some b.graph }
      match b.execute compiler s with
      | (.error (.tooDeep e), s) => .error (.tooDeep e s context)
      | (.error (.stuck e), s) => .error (.stuck e.key s context)
      | (.ok (results, calls), s) => .ok ⟨⟨results⟩, s, calls, context⟩

end SheetBuild.Build
