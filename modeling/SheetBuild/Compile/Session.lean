set_option autoImplicit false

/-!
# Compiler sessions

A compiler is known only by what it does: it asks for imported files, may call the build off, and
comes to a result.  A session is that behaviour as a tree, so a compiler that is a function to
sessions reads nothing but its arguments and the answers to its requests.  `run` follows a session
with a loader that answers.
-/

namespace SheetBuild.Compile

/-- Answers a request for `reference` as it stands in the file `importer`: the path and the text of
the file, or nothing for a reference that the compiler has to resolve by itself. -/
abbrev Loader : Type := String → String → Option (String × String)

/-- The behaviour of a compiler up to a result. -/
inductive Session (α : Type) where
  | finish (result : α)
  /-- asks the loader and goes on with its answer -/
  | ask (reference importer : String) (resume : Option (String × String) → Session α)
  /-- calls the running build off and goes on -/
  | cancel (next : Session α)

/-- A request and its answer. -/
structure Request where
  reference : String
  importer : String
  answer : Option (String × String)
  deriving DecidableEq, Repr

/-- What a session came to. -/
structure Transcript (α : Type) where
  result : α
  /-- the requests in the order in which they were made -/
  requests : List Request
  /-- whether the build was called off -/
  cancelled : Bool

namespace Session

variable {α β : Type}

/-- Goes on from the result of a session. -/
def bind : Session α → (α → Session β) → Session β
  | finish a, f => f a
  | ask r i k, f => ask r i fun answer => (k answer).bind f
  | cancel s, f => cancel (s.bind f)

/-- Changes the result of a session. -/
def map (f : α → β) (s : Session α) : Session β := s.bind fun a => finish (f a)

/-- Changes the names under which a session asks. -/
def renameImporters (f : String → String) : Session α → Session α
  | finish a => finish a
  | ask r i k => ask r (f i) fun answer => (k answer).renameImporters f
  | cancel s => cancel (s.renameImporters f)

/-- Follows a session with a loader. -/
def run (load : Loader) : Session α → Transcript α
  | finish a => ⟨a, [], false⟩
  | ask r i k =>
    let answer := load r i
    let t := (k answer).run load
    ⟨t.result, ⟨r, i, answer⟩ :: t.requests, t.cancelled⟩
  | cancel s =>
    let t := s.run load
    ⟨t.result, t.requests, true⟩

@[simp] theorem run_finish (load : Loader) (a : α) : (finish a).run load = ⟨a, [], false⟩ := rfl

theorem result_run_bind (load : Loader) (s : Session α) (f : α → Session β) :
    ((s.bind f).run load).result = ((f (s.run load).result).run load).result := by
  induction s with
  | finish a => rfl
  | ask r i k ih => exact ih (load r i)
  | cancel s ih => exact ih

@[simp] theorem result_run_map (load : Loader) (s : Session α) (f : α → β) :
    ((s.map f).run load).result = f (s.run load).result := result_run_bind load s _

/-- Two loaders that answer every request of a session alike lead it to the same end. -/
theorem run_congr {load load' : Loader} {s : Session α}
    (h : ∀ q ∈ (s.run load).requests, load' q.reference q.importer = q.answer) :
    s.run load' = s.run load := by
  induction s with
  | finish a => rfl
  | ask r i k ih =>
    have ha : load' r i = load r i := h ⟨r, i, load r i⟩ (by simp [run])
    have hk : (k (load r i)).run load' = (k (load r i)).run load :=
      ih (load r i) fun q hq => h q (by simp [run, hq])
    simp [run, ha, hk]
  | cancel s ih =>
    have hs : s.run load' = s.run load := ih fun q hq => h q (by simpa [run] using hq)
    simp [run, hs]

end Session

end SheetBuild.Compile
