import SheetBuild.Proofs.Cache.Replies
set_option autoImplicit false

/-!
# Computations that use the store they are computed for

A computation may itself look entries up, store entries and request entries, whose computations may
do the same (`Work`).  Whatever it does, what comes in flight goes out again, but for the keys of entries
that were computed and could not be stored (`inFlight_run`).  That a key is in flight meanwhile does not
show to work on other keys (`run_claim`).
-/

namespace SheetBuild.Cache

open SheetBuild.Disk (Place)

variable {ε : Type}

/-- What a computation does: it uses the store, goes on with what it gets, and comes to a result. -/
inductive Work (ε : Type) where
  | finish (result : Except ε Entry)
  | lookup (key : String) (resume : Except Json.TooDeep (Option Entry) → Work ε)
  | store (key : String) (e : Entry) (resume : Option StoreError → Work ε)
  | request (key : String) (inner : Work ε) (resume : Except (Store.Refusal ε) Store.Answer → Work ε)

namespace Work

/-- Carries work out on a store. -/
def run : Work ε → Store → Except ε Entry × Store
  | finish result => fun s => (result, s)
  | lookup key resume => fun s => (resume (s.lookup key).1).run (s.lookup key).2
  | store key e resume => fun s => (resume (s.store key e).1).run (s.store key e).2
  | request key inner resume => fun s =>
    (resume (s.getOrCompute key inner.run).1).run (s.getOrCompute key inner.run).2

/-- The work is on other keys throughout, whatever it gets. -/
def Avoids (key : String) : Work ε → Prop
  | finish _ => True
  | lookup k resume => k ≠ key ∧ ∀ found, (resume found).Avoids key
  | store k _ resume => k ≠ key ∧ ∀ failure, (resume failure).Avoids key
  | request k inner resume => k ≠ key ∧ inner.Avoids key ∧ ∀ answer, (resume answer).Avoids key

/-- The work comes to entries without long numbers throughout, whatever it gets. -/
def YieldsShort : Work ε → Prop
  | finish result => ∀ e, result = .ok e → e.IsShort
  | lookup _ resume => ∀ found, (resume found).YieldsShort
  | store _ _ resume => ∀ failure, (resume failure).YieldsShort
  | request _ inner resume => inner.YieldsShort ∧ ∀ answer, (resume answer).YieldsShort

end Work

namespace Store

variable {s s' s'' : Store} {key other : String}

/-! ## Requests and their computations -/

/-- A request for the key runs its computation: nothing is found under the key, and it is not in
flight. -/
structure Computes (s : Store) (key : String) : Prop where
  missing : (s.lookup key).1 = .ok none
  free : key ∉ s.inFlight

theorem computes_iff : s.Computes key ↔ (s.lookup key).1 = .ok none ∧ key ∉ s.inFlight :=
  ⟨fun h => ⟨h.missing, h.free⟩, fun h => ⟨h.1, h.2⟩⟩

instance (s : Store) (key : String) : Decidable (s.Computes key) :=
  decidable_of_iff _ computes_iff.symm

/-- The answer to a request that does not run its computation, by what the lookup comes to. -/
def answered : Except Json.TooDeep (Option Entry) → Except (Refusal ε) Answer
  | .error e => .error (.tooDeep e)
  | .ok (some e) => .ok ⟨e, false⟩
  | .ok none => .error .waiting

/-- A request that runs its computation. -/
theorem Computes.getOrCompute (h : s.Computes key) (compute : Store → Except ε Entry × Store) :
    s.getOrCompute key compute =
      match compute ((s.lookup key).2.claim key) with
      | (.error e, s') => (.error (.failed e), s'.release key)
      | (.ok e, s') =>
        match s'.store key e with
        | (some failure, s'') => (.error (.unstored failure), s'')
        | (none, s'') => (.ok ⟨e, true⟩, s''.release key) := by
  obtain ⟨hmissing, hfree⟩ := h
  have hflight : key ∉ (s.lookup key).2.inFlight := by rwa [inFlight_lookup]
  unfold Store.getOrCompute
  generalize s.lookup key = looked at hmissing hflight ⊢
  obtain ⟨answer, s₁⟩ := looked
  obtain rfl : answer = .ok none := hmissing
  exact if_neg (by simpa using hflight)

/-- A request that does not run its computation looks its key up and does nothing else. -/
theorem getOrCompute_of_not_computes (h : ¬ s.Computes key)
    (compute : Store → Except ε Entry × Store) :
    s.getOrCompute key compute = (answered (s.lookup key).1, (s.lookup key).2) := by
  have hflight : (s.lookup key).1 = .ok none → key ∈ (s.lookup key).2.inFlight := by
    intro hmissing
    rw [inFlight_lookup]
    exact Decidable.not_not.1 fun hfree => h ⟨hmissing, hfree⟩
  unfold Store.getOrCompute
  generalize s.lookup key = looked at hflight ⊢
  obtain ⟨answer, s₁⟩ := looked
  cases answer with
  | error e => rfl
  | ok found =>
    cases found with
    | some e => rfl
    | none =>
      have hmem : key ∈ s₁.inFlight := hflight rfl
      simp [hmem, answered]

/-- The ways in which a request ends.  It looks its key up and does nothing else, or it runs its
computation, which fails, or comes to an entry that cannot be stored, or to one that is. -/
inductive Ends (s : Store) (key : String) (compute : Store → Except ε Entry × Store) :
    Except (Refusal ε) Answer × Store → Prop where
  | looked (idle : ¬ s.Computes key) :
    Ends s key compute (answered (s.lookup key).1, (s.lookup key).2)
  | failed {e : ε} {s' : Store} (computes : s.Computes key)
    (ran : compute ((s.lookup key).2.claim key) = (.error e, s')) :
    Ends s key compute (.error (.failed e), s'.release key)
  | unstored {e : Entry} {s' s'' : Store} {failure : StoreError} (computes : s.Computes key)
    (ran : compute ((s.lookup key).2.claim key) = (.ok e, s'))
    (kept : s'.store key e = (some failure, s'')) :
    Ends s key compute (.error (.unstored failure), s'')
  | stored {e : Entry} {s' s'' : Store} (computes : s.Computes key)
    (ran : compute ((s.lookup key).2.claim key) = (.ok e, s'))
    (kept : s'.store key e = (none, s'')) :
    Ends s key compute (.ok ⟨e, true⟩, s''.release key)

theorem ends (s : Store) (key : String) (compute : Store → Except ε Entry × Store) :
    s.Ends key compute (s.getOrCompute key compute) := by
  by_cases h : s.Computes key
  · rw [h.getOrCompute]
    cases hran : compute ((s.lookup key).2.claim key) with
    | mk result s' =>
      cases result with
      | error e => exact .failed h hran
      | ok e =>
        simp only
        cases hkept : s'.store key e with
        | mk failure s'' =>
          cases failure with
          | some failure => exact .unstored h hran hkept
          | none => exact .stored h hran hkept
  · exact getOrCompute_of_not_computes h compute ▸ .looked h

variable {compute : Store → Except ε Entry × Store}

/-- What holds from one store to the next at every step of a request holds from its beginning to its
end: it looks the key up, takes it in flight, runs the computation, stores the entry, and lets go of the
key. -/
theorem related_getOrCompute {R : Store → Store → Prop}
    (htrans : ∀ {s s' s''}, R s s' → R s' s'' → R s s'')
    (hlookup : ∀ s : Store, R s (s.lookup key).2) (hclaim : ∀ s : Store, R s (s.claim key))
    (hcompute : ∀ s, R s (compute s).2) (hstore : ∀ (s : Store) (e : Entry), R s (s.store key e).2)
    (hrelease : ∀ s : Store, R s (s.release key)) (s : Store) :
    R s (s.getOrCompute key compute).2 := by
  have hran {result : Except ε Entry} {s' : Store}
      (ran : compute ((s.lookup key).2.claim key) = (result, s')) : R s s' := by
    have hcomputed := hcompute ((s.lookup key).2.claim key)
    rw [ran] at hcomputed
    exact htrans (htrans (hlookup s) (hclaim _)) hcomputed
  have hkept {s' s'' : Store} {e : Entry} {failure : Option StoreError}
      (kept : s'.store key e = (failure, s'')) : R s' s'' := by
    have hstored := hstore s' e
    rwa [kept] at hstored
  have hends := s.ends key compute
  generalize s.getOrCompute key compute = ended at hends
  cases hends with
  | looked => exact hlookup s
  | failed _ ran => exact htrans (hran ran) (hrelease _)
  | unstored _ ran kept => exact htrans (hran ran) (hkept kept)
  | stored _ ran kept => exact htrans (htrans (hran ran) (hkept kept)) (hrelease _)

/-- A request fails with what its computation fails with, and only where that runs. -/
theorem getOrCompute_eq_failed_iff {e : ε} :
    (s.getOrCompute key compute).1 = .error (.failed e) ↔
      s.Computes key ∧ (compute ((s.lookup key).2.claim key)).1 = .error e := by
  have hends := s.ends key compute
  generalize s.getOrCompute key compute = ended at hends
  cases hends with
  | looked idle =>
    simp only [idle, false_and, iff_false]
    unfold answered
    split <;> simp
  | failed computes ran => simp [computes, ran]
  | unstored computes ran => simp [computes, ran]
  | stored computes ran => simp [computes, ran]

/-- A request has computed its answer where its computation comes to it and it can be stored. -/
theorem getOrCompute_eq_computed_iff {e : Entry} :
    (s.getOrCompute key compute).1 = .ok ⟨e, true⟩ ↔
      s.Computes key ∧ (compute ((s.lookup key).2.claim key)).1 = .ok e ∧
        ((compute ((s.lookup key).2.claim key)).2.store key e).1 = none := by
  have hends := s.ends key compute
  generalize s.getOrCompute key compute = ended at hends
  cases hends with
  | looked idle =>
    simp only [idle, false_and, iff_false]
    unfold answered
    split <;> simp
  | failed computes ran => simp [computes, ran]
  | @unstored e' _ _ _ computes ran kept =>
    simp only [computes, ran, true_and, reduceCtorEq, Except.ok.injEq, false_iff, not_and]
    rintro rfl
    simp [kept]
  | @stored e' _ _ computes ran kept =>
    simp only [computes, ran, true_and, Except.ok.injEq, Answer.mk.injEq, and_true]
    refine ⟨?_, And.left⟩
    rintro rfl
    exact ⟨rfl, by rw [kept]⟩

/-- A request whose computation comes to an entry fails where that cannot be stored. -/
theorem getOrCompute_eq_unstored_iff {failure : StoreError} :
    (s.getOrCompute key compute).1 = .error (.unstored failure) ↔
      s.Computes key ∧ ∃ e, (compute ((s.lookup key).2.claim key)).1 = .ok e ∧
        ((compute ((s.lookup key).2.claim key)).2.store key e).1 = some failure := by
  have hends := s.ends key compute
  generalize s.getOrCompute key compute = ended at hends
  cases hends with
  | looked idle =>
    simp only [idle, false_and, iff_false]
    unfold answered
    split <;> simp
  | failed computes ran => simp [computes, ran]
  | unstored computes ran kept => simp [computes, ran, kept]
  | stored computes ran kept => simp [computes, ran, kept]

/-- A key that is in flight and not found makes every request for it wait. -/
theorem getOrCompute_of_stranded (hflight : key ∈ s.inFlight)
    (hmissing : (s.lookup key).1 = .ok none) :
    s.getOrCompute key compute = (.error .waiting, (s.lookup key).2) := by
  rw [getOrCompute_of_not_computes fun h => h.free hflight, hmissing]
  rfl

/-! ## Keys in flight -/

/-- The key of a request that is left in flight at its end: its entry could not be stored. -/
def ownStranded (key : String) : Except (Refusal ε) Answer → List String
  | .error (.unstored _) => [key]
  | _ => []

/-- The keys that a request leaves in flight, by those that its computation leaves. -/
def strandedBy (s : Store) (key : String) (compute : Store → Except ε Entry × Store)
    (inner : Store → List String) : List String :=
  if s.Computes key then
    inner ((s.lookup key).2.claim key) ++ ownStranded key (s.getOrCompute key compute).1
  else []

/-- What is in flight after work is what was before it, behind keys that were not. -/
structure Strands (after : Store → Store) (inner : Store → List String) : Prop where
  inFlight : ∀ s, (after s).inFlight = inner s ++ s.inFlight
  fresh : ∀ s, ∀ key ∈ inner s, key ∉ s.inFlight

variable {inner : Store → List String}

theorem erase_append_cons {keys rest : List String} (h : key ∉ keys) :
    (keys ++ key :: rest).erase key = keys ++ rest := by
  rw [List.erase_append_right _ h, List.erase_cons_head]

/-- The key that a computation is for stands behind the keys that the computation leaves in flight. -/
theorem Strands.claimed (h : Strands (fun s => (compute s).2) inner) {result : Except ε Entry}
    (ran : compute ((s.lookup key).2.claim key) = (result, s')) :
    s'.inFlight = inner ((s.lookup key).2.claim key) ++ key :: s.inFlight ∧
      key ∉ inner ((s.lookup key).2.claim key) := by
  have hflight := h.inFlight ((s.lookup key).2.claim key)
  have hclaim : ((s.lookup key).2.claim key).inFlight = key :: s.inFlight := by
    rw [claim, inFlight_lookup]
  rw [ran, hclaim] at hflight
  refine ⟨hflight, fun hmem => h.fresh _ key hmem ?_⟩
  rw [hclaim]
  exact List.mem_cons_self

/-- A request leaves in flight what its computation leaves, and its key where the entry cannot be
stored. -/
theorem Strands.getOrCompute (h : Strands (fun s => (compute s).2) inner) (key : String) :
    Strands (fun s => (s.getOrCompute key compute).2) fun s => s.strandedBy key compute inner := by
  refine ⟨fun s => ?_, fun s k hk => ?_⟩
  · have hends := s.ends key compute
    simp only [strandedBy]
    generalize s.getOrCompute key compute = ended at hends
    cases hends with
    | looked idle => simp [idle]
    | failed computes ran =>
      obtain ⟨hflight, hnot⟩ := h.claimed ran
      simp [computes, ownStranded, release, hflight, erase_append_cons hnot]
    | unstored computes ran kept =>
      simp [computes, ownStranded, inFlight_of_store kept, (h.claimed ran).1]
    | stored computes ran kept =>
      obtain ⟨hflight, hnot⟩ := h.claimed ran
      simp [computes, ownStranded, release, inFlight_of_store kept, hflight, erase_append_cons hnot]
  · unfold strandedBy at hk
    split at hk
    · rename_i computes
      rcases List.mem_append.1 hk with hk | hk
      · intro hmem
        refine h.fresh _ k hk ?_
        rw [claim, inFlight_lookup]
        exact List.mem_cons_of_mem _ hmem
      · unfold ownStranded at hk
        split at hk
        · exact List.mem_singleton.1 hk ▸ computes.free
        · exact absurd hk List.not_mem_nil
    · exact absurd hk List.not_mem_nil

/-- Two lists of keys in flight are alike, one key apart. -/
def AlikeBut (key : String) (keys keys' : List String) : Prop := ∀ k, k ≠ key → (k ∈ keys' ↔ k ∈ keys)

theorem AlikeBut.append {keys keys' : List String} (h : AlikeBut key keys keys')
    (front : List String) : AlikeBut key (front ++ keys) (front ++ keys') := by
  intro k hk
  rw [List.mem_append, List.mem_append, h k hk]

/-- The computation does not see whether a key is in flight. -/
def Blind (key : String) (compute : Store → Except ε Entry × Store) (inner : Store → List String) :
    Prop :=
  ∀ s keys, AlikeBut key s.inFlight keys →
    compute (s.withFlight keys) = ((compute s).1, (compute s).2.withFlight (inner s ++ keys))

/-- A request for another key does not see whether a key is in flight, if its computation does not. -/
theorem getOrCompute_withFlight {keys : List String} (hcompute : Blind key compute inner)
    (hstrands : Strands (fun s => (compute s).2) inner) (hne : other ≠ key)
    (hkeys : AlikeBut key s.inFlight keys) :
    (s.withFlight keys).getOrCompute other compute
      = ((s.getOrCompute other compute).1,
        (s.getOrCompute other compute).2.withFlight (s.strandedBy other compute inner ++ keys)) := by
  have hlookup := lookup_withFlight s keys other
  have hcomputes : s.Computes other ↔ (s.withFlight keys).Computes other := by
    rw [computes_iff, computes_iff, hlookup, ← hkeys other hne]
    rfl
  by_cases h : s.Computes other
  · have hclaim : ((s.withFlight keys).lookup other).2.claim other
        = ((s.lookup other).2.claim other).withFlight (other :: keys) := by
      rw [hlookup]
      rfl
    have halike : AlikeBut key ((s.lookup other).2.claim other).inFlight (other :: keys) := by
      have hcons := hkeys.append [other]
      rwa [List.singleton_append, List.singleton_append, ← inFlight_lookup s other] at hcons
    rw [(hcomputes.1 h).getOrCompute, h.getOrCompute, strandedBy, if_pos h, h.getOrCompute, hclaim,
      hcompute _ _ halike]
    cases hran : compute ((s.lookup other).2.claim other) with
    | mk result s' =>
      have herase : (inner ((s.lookup other).2.claim other) ++ other :: keys).erase other
          = inner ((s.lookup other).2.claim other) ++ keys :=
        erase_append_cons (hstrands.claimed hran).2
      cases result with
      | error e => simp [release, withFlight, ownStranded, herase]
      | ok e =>
        simp only [store_withFlight]
        generalize s'.store other e = stored
        obtain ⟨failure, s''⟩ := stored
        cases failure with
        | some failure => simp [withFlight, ownStranded]
        | none => simp [release, withFlight, ownStranded, herase]
  · rw [getOrCompute_of_not_computes h, getOrCompute_of_not_computes (mt hcomputes.2 h), hlookup,
      strandedBy, if_neg h]
    rfl

end Store

namespace Work

open Store (AlikeBut Blind Strands)

variable {key : String} {w : Work ε}

/-- The keys that work leaves in flight, the latest first. -/
def stranded : Work ε → Store → List String
  | finish _ => fun _ => []
  | lookup key resume => fun s => (resume (s.lookup key).1).stranded (s.lookup key).2
  | store key e resume => fun s => (resume (s.store key e).1).stranded (s.store key e).2
  | request key inner resume => fun s =>
    (resume (s.getOrCompute key inner.run).1).stranded (s.getOrCompute key inner.run).2
      ++ s.strandedBy key inner.run inner.stranded

/-- Work leaves in flight what was in flight, and nothing else but what it strands. -/
theorem strands (w : Work ε) : Strands (fun s => (w.run s).2) w.stranded := by
  induction w with
  | finish result => exact ⟨fun _ => rfl, fun _ _ h => absurd h List.not_mem_nil⟩
  | lookup k resume ih =>
    refine ⟨fun s => ?_, fun s key hkey => ?_⟩
    · exact ((ih _).inFlight _).trans (by rw [Store.inFlight_lookup]; rfl)
    · exact Store.inFlight_lookup s k ▸ (ih _).fresh _ key hkey
  | store k e resume ih =>
    refine ⟨fun s => ?_, fun s key hkey => ?_⟩
    · exact ((ih _).inFlight _).trans (by rw [Store.inFlight_store]; rfl)
    · exact Store.inFlight_store s k e ▸ (ih _).fresh _ key hkey
  | request k inner resume ihInner ihResume =>
    have hrequest := ihInner.getOrCompute k
    refine ⟨fun s => ?_, fun s key hkey => ?_⟩
    · have hrest := (ihResume (s.getOrCompute k inner.run).1).inFlight (s.getOrCompute k inner.run).2
      rw [hrequest.inFlight s, ← List.append_assoc] at hrest
      exact hrest
    · rcases List.mem_append.1 hkey with hkey | hkey
      · intro hmem
        refine (ihResume _).fresh _ key hkey ?_
        rw [hrequest.inFlight s]
        exact List.mem_append_right _ hmem
      · exact hrequest.fresh s key hkey

/-- Work on other keys does not leave a key in flight. -/
theorem not_mem_stranded (h : w.Avoids key) (s : Store) : key ∉ w.stranded s := by
  induction w generalizing s with
  | finish result => exact List.not_mem_nil
  | lookup k resume ih => exact ih _ (h.2 _) _
  | store k e resume ih => exact ih _ (h.2 _) _
  | request k inner resume ihInner ihResume =>
    obtain ⟨hne, hinner, hresume⟩ := h
    intro hmem
    rcases List.mem_append.1 hmem with hmem | hmem
    · exact ihResume _ (hresume _) _ hmem
    · unfold Store.strandedBy at hmem
      split at hmem
      · rcases List.mem_append.1 hmem with hmem | hmem
        · exact ihInner hinner _ hmem
        · unfold Store.ownStranded at hmem
          split at hmem
          · exact hne (List.mem_singleton.1 hmem).symm
          · exact absurd hmem List.not_mem_nil
      · exact absurd hmem List.not_mem_nil

/-- Work on other keys does not see whether a key is in flight. -/
theorem blind_run (h : w.Avoids key) : Blind key w.run w.stranded := by
  induction w with
  | finish result => exact fun s keys _ => rfl
  | lookup k resume ih =>
    intro s keys hkeys
    simp only [run, stranded, Store.lookup_withFlight]
    exact ih _ (h.2 _) _ keys (by rwa [Store.inFlight_lookup])
  | store k e resume ih =>
    intro s keys hkeys
    simp only [run, stranded, Store.store_withFlight]
    exact ih _ (h.2 _) _ keys (by rwa [Store.inFlight_store])
  | request k inner resume ihInner ihResume =>
    intro s keys hkeys
    obtain ⟨hne, hinner, hresume⟩ := h
    simp only [run, stranded,
      Store.getOrCompute_withFlight (ihInner hinner) inner.strands hne hkeys, List.append_assoc]
    refine ihResume _ (hresume _) _ _ ?_
    rw [(inner.strands.getOrCompute k).inFlight]
    exact hkeys.append _

/-- That the key it is done for is in flight makes no difference to work on other keys. -/
theorem run_claim (h : w.Avoids key) (s : Store) :
    w.run (s.claim key)
      = ((w.run s).1, (w.run s).2.withFlight (w.stranded s ++ key :: s.inFlight)) := by
  have halike : AlikeBut key s.inFlight (key :: s.inFlight) := by
    intro k hk
    simp [hk]
  exact blind_run h s (key :: s.inFlight) halike

/-- What is in flight after work, without what was before it. -/
theorem inFlight_run (w : Work ε) (s : Store) :
    (w.run s).2.inFlight = w.stranded s ++ s.inFlight := w.strands.inFlight s

end Work

end SheetBuild.Cache
