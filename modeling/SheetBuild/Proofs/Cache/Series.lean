import SheetBuild.Proofs.Cache.Request
set_option autoImplicit false

/-!
# Series of requests

A store is asked for one thing after the other.  `Request` lists what it can be asked for, and
`Store.after` gives the store that a request leaves behind; a series of requests is a list of them.
-/

namespace SheetBuild.Cache

variable {ε : Type}

/-- What a store is asked for. -/
inductive Request (ε : Type) where
  | store (key : String) (e : Entry)
  | lookup (key : String)
  /-- an entry that is computed where it is not there, and what its computation comes to then -/
  | getOrCompute (key : String) (result : Except ε Entry)
  | clear

namespace Store

/-- The answer to a request for an entry that is computed where it is not there. -/
def answer (s : Store) (key : String) (result : Except ε Entry) : Except (Refusal ε) Answer :=
  (s.getOrCompute key fun s => (result, s)).1

/-- The store that a request leaves behind. -/
def after (s : Store) : Request ε → Store
  | .store key e => (s.store key e).2
  | .lookup key => (s.lookup key).2
  | .getOrCompute key result => (s.getOrCompute key fun s => (result, s)).2
  | .clear => s.clear.2

/-- What a request for an entry comes to, by what the lookup of its key finds and whether what is
computed can be stored. -/
def answerOf (found : Option Entry) (result : Except ε Entry) (failure : Option StoreError) :
    Except (Refusal ε) Answer :=
  match found, result, failure with
  | some e, _, _ => .ok ⟨e, false⟩
  | none, .error f, _ => .error (.failed f)
  | none, .ok _, some failure => .error (.unstored failure)
  | none, .ok e, none => .ok ⟨e, true⟩

/-- Keeps the entry that a request has computed, if it has computed one.  Its key stays in flight where
it cannot be stored. -/
def keep (s : Store) (key : String) (found : Option Entry) (result : Except ε Entry) :
    Option StoreError × Store :=
  match found, result with
  | none, .ok e =>
    match s.store key e with
    | (some failure, s) => (some failure, s.claim key)
    | (none, s) => (none, s)
  | _, _ => (none, s)

variable {s s' : Store} {key : String} {found : Option Entry}

/-- Where the key is not in flight, a request for an entry comes to what the lookup finds, or else to
what the computation comes to, and leaves what the lookup leaves, with the entry stored where it has been
computed. -/
theorem getOrCompute_of_lookup (hfree : key ∉ s.inFlight) (h : s.lookup key = (.ok found, s'))
    (result : Except ε Entry) :
    s.getOrCompute key (fun s => (result, s))
      = (answerOf found result (s'.keep key found result).1, (s'.keep key found result).2) := by
  rw [getOrCompute_of_free hfree, h]
  cases found with
  | some e => rfl
  | none =>
    cases result with
    | error e => rfl
    | ok e =>
      simp only [keep]
      generalize s'.store key e = stored
      obtain ⟨failure, s''⟩ := stored
      cases failure <;> rfl

end Store

/-- An entry with a sheet only. -/
def sheet (css : String) : Entry := ⟨.css css, none, []⟩

end SheetBuild.Cache
