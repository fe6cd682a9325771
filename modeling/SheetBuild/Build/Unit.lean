import SheetBuild.Entry
set_option autoImplicit false

/-!
# Unit results

A unit of a batch is one entry file that is compiled on its own.  Its result is an entry, together
with the way in which the batch came to it.
-/

namespace SheetBuild.Build

open SheetBuild.Json (Value)

/-- How a batch came to the outcome of a unit. -/
inductive Origin where
  /-- the imports of the unit have no closure, so it has no cache key -/
  | unkeyed
  /-- the entry was there already under this key -/
  | cached (key : String)
  /-- the entry was compiled and stored under this key -/
  | compiled (key : String)
  /-- the compiler broke down, or the entry could not be stored -/
  | crashed (key : String)
  /-- the batch was called off before the unit was compiled -/
  | cancelled (key : String)
  deriving DecidableEq, Repr

/-- The cache key of a unit. -/
def Origin.key? : Origin → Option String
  | .unkeyed => none
  | .cached k => some k
  | .compiled k => some k
  | .crashed k => some k
  | .cancelled k => some k

attribute [simp] Origin.key?

/-- The outcome of one unit. -/
structure UnitResult where
  path : String
  /-- the target of the batch -/
  target : Option String
  entry : Entry
  origin : Origin
  deriving DecidableEq, Repr

namespace UnitResult

/-- Whether the entry was there already. -/
def fromCache (u : UnitResult) : Bool :=
  match u.origin with
  | .cached _ => true
  | _ => false

/-- Whether the compiler broke down, or the entry could not be stored. -/
def crashed (u : UnitResult) : Bool :=
  match u.origin with
  | .crashed _ => true
  | _ => false

/-- Whether the unit was compiled by this batch. -/
def compiled (u : UnitResult) : Bool :=
  match u.origin with
  | .compiled _ => true
  | _ => false

/-- The failure of a unit. -/
def diagnostic? (u : UnitResult) : Option Diagnostic := u.entry.diagnostic?

/-- A unit result as a JSON object. -/
def toJson (u : UnitResult) : Value :=
  .object [("path", .text u.path), ("target", .ofText? u.target),
    ("cache_key", .ofText? u.origin.key?), ("entry", u.entry.toJson),
    ("from_cache", .bool u.fromCache), ("crashed", .bool u.crashed),
    ("succeeded", .bool u.entry.succeeded)]

/-- The result of a unit that fails without a stored entry. -/
def failed (path : String) (target : Option String) (origin : Origin) (d : Diagnostic) :
    UnitResult :=
  ⟨path, target, ⟨.failed d, none, []⟩, origin⟩

/-- The result of a unit that was called off. -/
def ofCancelled (path : String) (target : Option String) (key : String) : UnitResult :=
  failed path target (.cancelled key) ⟨.cancelled, "Compilation cancelled", some path, none, none⟩

/-- The result of a unit on which the compiler broke down, or whose entry could not be stored. -/
def ofCrash (path : String) (target : Option String) (key reason : String) : UnitResult :=
  failed path target (.crashed key)
    ⟨.compiler, .whole ("Compiler crashed: " ++ reason), some path, none, none⟩

@[simp] theorem origin_failed (path : String) (target : Option String) (o : Origin)
    (d : Diagnostic) : (failed path target o d).origin = o := rfl

@[simp] theorem origin_ofCrash (path : String) (target : Option String) (key reason : String) :
    (ofCrash path target key reason).origin = .crashed key := rfl

@[simp] theorem crashed_ofCrash (path : String) (target : Option String) (key reason : String) :
    (ofCrash path target key reason).crashed = true := rfl

theorem fromCache_iff {u : UnitResult} : u.fromCache = true ↔ ∃ key, u.origin = .cached key := by
  unfold fromCache
  cases u.origin <;> simp

/-- A unit whose entry was there was neither compiled nor broke down. -/
theorem compiled_or_crashed_of_fromCache {u : UnitResult} (h : u.fromCache = true) :
    (u.compiled || u.crashed) = false := by
  obtain ⟨key, hkey⟩ := fromCache_iff.1 h
  simp [compiled, crashed, hkey]

end UnitResult

/-- The results of the units of a batch, in the order of their paths. -/
structure BatchResult where
  results : List UnitResult
  deriving DecidableEq, Repr

namespace BatchResult

/-- The failures, in the order of the results. -/
def diagnostics (r : BatchResult) : List Diagnostic := r.results.filterMap (·.diagnostic?)

/-- Whether a unit failed. -/
def hasErrors (r : BatchResult) : Bool := !r.diagnostics.isEmpty

/-- The number of units that this batch compiled. -/
def compiledCount (r : BatchResult) : Nat := r.results.countP (·.compiled)

/-- The number of units whose entry was there already. -/
def cachedCount (r : BatchResult) : Nat := r.results.countP (·.fromCache)

/-- The result of a unit. -/
def get? (r : BatchResult) (path : String) : Option UnitResult :=
  r.results.find? fun u => u.path = path

/-- The result of a batch as a JSON object without the outer braces. -/
def toFields (r : BatchResult) : List (String × Value) :=
  [("results", .array (r.results.map (·.toJson))),
    ("diagnostics", .array (r.diagnostics.map fun d => .ofLoose d.format)),
    ("has_errors", .bool r.hasErrors), ("compiled_count", .int r.compiledCount),
    ("cached_count", .int r.cachedCount)]

end BatchResult

end SheetBuild.Build
