import SheetBuild.Proofs.Build.Stages
set_option autoImplicit false

/-!
# Histories of batches

A series of batches over one store, which may be opened again on its directory in between.  Each
batch has its own context, compiler, files and target.  What every batch keeps of the store holds over
the whole series (`outcomes_invariant`).
-/

namespace SheetBuild.Build

open SheetBuild.Cache (Store)
open SheetBuild.Compile (Compiler)

/-- A batch that is asked for. -/
structure Turn where
  context : Context
  compiler : Compiler
  files : FileSet
  target : Option String

namespace Turn

/-- The units of a turn, with their surroundings. -/
def batch (t : Turn) : Batch := .ofFiles t.context.options t.target t.files

/-- What a turn comes to over a store. -/
def run (t : Turn) (s : Store) : Except BatchError Report :=
  Build.run t.context t.compiler s t.files.files t.target

end Turn

/-- The store that a batch leaves behind. -/
def leftBy (s : Store) : Except BatchError Report → Store
  | .ok report => report.store
  | .error (.tooDeep _ store _) => store
  | .error (.stuck _ store _) => store
  | .error _ => s

/-- What happens to a store. -/
inductive Event where
  | batch (turn : Turn)
  /-- the store is opened again, with a limit -/
  | reopen (limit : Option Int)

/-- The batch of an event. -/
def Event.turn? : Event → Option Turn
  | .batch t => some t
  | .reopen _ => none

/-- The batches of a series of events. -/
def turns (events : List Event) : List Turn := events.filterMap (·.turn?)

/-- What the batches of a series of events come to, one after the other. -/
def outcomes (s : Store) : List Event → List (Turn × Except BatchError Report)
  | [] => []
  | .batch t :: events => (t, t.run s) :: outcomes (leftBy s (t.run s)) events
  | .reopen limit :: events => outcomes (s.reopen limit) events

@[simp] theorem turns_batch (t : Turn) (events : List Event) :
    turns (.batch t :: events) = t :: turns events := rfl

@[simp] theorem turns_reopen (limit : Option Int) (events : List Event) :
    turns (.reopen limit :: events) = turns events := rfl

/-- What each batch keeps and says holds of all of them. -/
theorem outcomes_invariant {I : Store → Prop} {Q : Turn → Except BatchError Report → Prop}
    {events : List Event}
    (step : ∀ t ∈ turns events, ∀ s, I s → I (leftBy s (t.run s)) ∧ Q t (t.run s))
    (reopened : ∀ s limit, I s → I (s.reopen limit)) {s : Store} (hs : I s) :
    ∀ o ∈ outcomes s events, Q o.1 o.2 := by
  induction events generalizing s with
  | nil => exact fun o ho => absurd ho List.not_mem_nil
  | cons event events ih =>
    cases event with
    | batch t =>
      obtain ⟨hI, hQ⟩ := step t List.mem_cons_self s hs
      intro o ho
      rcases List.mem_cons.1 ho with rfl | ho
      · exact hQ
      · exact ih (fun t' ht' => step t' (List.mem_cons_of_mem _ ht')) hI o ho
    | reopen limit => exact ih step (reopened s limit hs)

/-- The outcome of a turn is that of its batch, unless its context is closed. -/
theorem Turn.run_eq (t : Turn) (s : Store) :
    t.run s = if t.context.closed then .error .closed
      else t.context.report t.batch (t.batch.execute t.compiler s) := by
  cases hclosed : t.context.closed with
  | true => simp [Turn.run, Build.run, hclosed]
  | false => exact run_files hclosed t.compiler s t.files t.target

end SheetBuild.Build
