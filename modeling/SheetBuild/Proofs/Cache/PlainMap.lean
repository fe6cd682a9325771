import SheetBuild.Proofs.Cache.Ledger
import SheetBuild.Proofs.Cache.Series
set_option autoImplicit false

/-!
# Stores as plain maps

A store with a directory of its own answers as a plain map from keys to entries does, whatever is done
with it: neither what its memory pushes out nor opening it again is seen (`answers_of_plain_map`).

An entry that is not legible is lost with the memory (`lookup_storedBefore`).  What is said of a key
supposes that the map has no such entry under it (`Ledger.Legible`), and that none with a number that is
too long to be written was computed for it, which would have left the key in flight (`Step.Strands`).  The
entries of other keys have no part in it, nor have those that were stored under the key before.
-/

namespace SheetBuild.Cache

open SheetBuild.Disk (Node Place Tree)

variable {ε : Type}

/-! ## Steps -/

/-- What is done with a store. -/
inductive Step (ε : Type) where
  | request (r : Request ε)
  /-- another store is opened on the directory, with a limit or without one -/
  | reopen (limit : Option Int)

/-- The store that a step leaves behind. -/
def Store.next (s : Store) : Step ε → Store
  | .request r => s.after r
  | .reopen limit => s.reopen limit

/-- Writes an entry down that is computed, where none has been found. -/
def Ledger.keep (l : Ledger) (key : String) (found : Option Entry) (result : Except ε Entry) :
    Ledger :=
  match found, result with
  | none, .ok e => Function.update l key (some e)
  | _, _ => l

/-- The ledger after a request. -/
def Ledger.after (l : Ledger) : Request ε → Ledger
  | .store key e => Function.update l key (some e)
  | .lookup _ => l
  | .getOrCompute key result => l.keep key (l key) result
  | .clear => fun _ => none

/-- The ledger after a step. -/
def Ledger.next (l : Ledger) : Step ε → Ledger
  | .request r => l.after r
  | .reopen _ => l

variable {l l' : Ledger} {key other : String}

theorem Ledger.keep_of_ne (l : Ledger) (hne : other ≠ key) (found : Option Entry)
    (result : Except ε Entry) : l.keep key found result other = l other := by
  unfold Ledger.keep
  split
  · exact Function.update_of_ne hne ..
  · rfl

theorem Ledger.keep_of_some {e : Entry} (hl : l key = some e) (result : Except ε Entry) :
    l.keep key (l key) result = l := by
  rw [hl]
  rfl

/-- What stands in a ledger is not taken out when an entry is written down. -/
theorem Ledger.keep_ne_none (h : l other ≠ none) (key : String) (found : Option Entry)
    (result : Except ε Entry) : l.keep key found result other ≠ none := by
  unfold Ledger.keep
  split
  · rw [Function.update_apply]
    split
    · simp
    · exact h
  · exact h

/-- The entry under a key is read back from its document, if there is one. -/
structure Ledger.Legible (l : Ledger) (key : String) : Prop where
  digest : isDigest key = true
  /-- the numbers in its entry have no more digits than are written, and no halves of a surrogate pair
  in it belong together -/
  entry : ∀ e, l key = some e → e.IsLegible

theorem Ledger.Legible.congr (h : l.Legible key) (heq : l' key = l key) : l'.Legible key :=
  ⟨h.digest, fun e he => h.entry e (heq ▸ he)⟩

/-- An entry is written down only where there is none. -/
theorem Ledger.Legible.of_keep {result : Except ε Entry}
    (h : (l.keep key (l key) result).Legible other) : l.Legible other := by
  by_cases hsame : other = key
  · subst hsame
    cases hl : l other with
    | none => exact ⟨h.digest, fun e he => absurd (hl.symm.trans he) (by simp)⟩
    | some e => rwa [Ledger.keep_of_some hl] at h
  · exact h.congr (l.keep_of_ne hsame _ _).symm

/-- A step strands a key: an entry is computed for it that cannot be stored, so the key stays in flight. -/
def Step.Strands (key : String) : Step ε → Prop
  | .request (.getOrCompute k result) => k = key ∧ ∃ e, result = .ok e ∧ ¬ e.IsShort
  | _ => False

namespace Store

variable {s s' : Store} {t : Tree} {d : Place} {K : String → Prop} {l₁ : Ledger} {e : Entry}

/-- What a store on a directory holds of some keys, none of which is in flight, is what a ledger says
of those among them that are legible. -/
structure Trails (d : Place) (K : String → Prop) (l l₁ : Ledger) (s : Store) : Prop where
  mirrors : Mirrors (some d) l₁ s
  agrees : ∀ key, K key → l.Legible key → l₁ key = l key ∧ s.Settled (some d) key
  within : ∀ key, l₁ key ≠ none → l key ≠ none
  flight : ∀ key ∈ s.inFlight, ¬ K key

/-- A store on a directory follows a ledger in some of its keys. -/
def Follows (d : Place) (K : String → Prop) (l : Ledger) (s : Store) : Prop :=
  ∃ l₁, Trails d K l l₁ s

namespace Trails

/-- A lookup gives what the ledger says, and leaves the store as it is described. -/
theorem lookup (h : Trails d K l l₁ s) (key : String) :
    ∃ found s', s.lookup key = (.ok found, s') ∧ Trails d K l l₁ s' ∧
      (K key → l.Legible key → found = l key) := by
  obtain ⟨found, s', hlookup, hs', hfound, hmemory⟩ := h.mirrors.lookup key
  have hflight := inFlight_lookup s key
  rw [hlookup] at hflight
  refine ⟨found, s', hlookup, ⟨hs', fun other hother hlegible => ?_, h.within, ?_⟩,
    fun hkey hlegible => ?_⟩
  · obtain ⟨heq, hsettled⟩ := h.agrees other hother hlegible
    refine ⟨heq, fun e hfind => ?_⟩
    exact (hmemory other e hfind).elim (hsettled e) (h.mirrors.lasting other e)
  · intro other hother
    exact h.flight other (hflight ▸ hother)
  · obtain ⟨heq, hsettled⟩ := h.agrees key hkey hlegible
    rw [hfound hsettled, heq]

/-- An entry that cannot be stored has a number that is too long. -/
theorem not_isShort_of_store (h : Trails d K l l₁ s) (hfailed : (s.store key e).1 ≠ none) :
    ¬ e.IsShort := fun hshort => hfailed (h.mirrors.store_of_isShort hshort)

/-- An entry is stored under a key, where the ledger says so or says nothing that is legible. -/
theorem stored (h : Trails d K l l₁ s) (hwithin : ∀ other, l other ≠ none → l' other ≠ none)
    (hsame : l' key = some e ∨ (l' key ≠ none ∧ ¬ (K key ∧ l'.Legible key)))
    (hother : ∀ other, other ≠ key → l' other = l other) :
    Follows d K l' (s.store key e).2 := by
  have hsettled : ∀ other, other ≠ key → s.Settled (some d) other →
      (s.store key e).2.Settled (some d) other := by
    intro other hne hsettled e' hfind
    rcases find?_of_store h.mirrors.distinct hfind with ⟨heq, -⟩ | ⟨-, hfind⟩
    · exact absurd heq hne
    · exact hsettled e' hfind
  have hflight : ∀ other ∈ (s.store key e).2.inFlight, ¬ K other := by
    rw [inFlight_store]
    exact h.flight
  have hthere : l' key ≠ none := by
    rcases hsame with heq | ⟨hsome, -⟩
    · simp [heq]
    · exact hsome
  by_cases hlasts : Lasts (some d) key e
  · refine ⟨_, (h.mirrors.store hlasts).2, fun other hK hlegible => ?_, fun other hsome => ?_,
      hflight⟩
    · by_cases heq : other = key
      · subst heq
        rcases hsame with heq | ⟨-, hnot⟩
        · refine ⟨by rw [heq, Function.update_self], fun e' hfind => ?_⟩
          rcases find?_of_store h.mirrors.distinct hfind with ⟨-, rfl⟩ | ⟨hne, -⟩
          · exact hlasts
          · exact absurd rfl hne
        · exact absurd ⟨hK, hlegible⟩ hnot
      · obtain ⟨hl, hheld⟩ := h.agrees other hK (hlegible.congr (hother other heq).symm)
        exact ⟨by rw [Function.update_of_ne heq, hl, hother other heq], hsettled other heq hheld⟩
    · by_cases heq : other = key
      · exact heq ▸ hthere
      · rw [Function.update_of_ne heq] at hsome
        exact hwithin other (h.within other hsome)
  · obtain ⟨l₂, hmirrors, hothers⟩ := h.mirrors.store_others key e
    refine ⟨l₂, hmirrors, fun other hK hlegible => ?_, fun other hsome => ?_, hflight⟩
    · by_cases heq : other = key
      · subst heq
        rcases hsame with heq | ⟨-, hnot⟩
        · exact absurd (fun _ => ⟨hlegible.digest, hlegible.entry e heq⟩) hlasts
        · exact absurd ⟨hK, hlegible⟩ hnot
      · obtain ⟨hl, hheld⟩ := h.agrees other hK (hlegible.congr (hother other heq).symm)
        exact ⟨by rw [hothers other heq, hl, hother other heq], hsettled other heq hheld⟩
    · by_cases heq : other = key
      · exact heq ▸ hthere
      · rw [hothers other heq] at hsome
        exact hwithin other (h.within other hsome)

end Trails

namespace Follows

/-- A key that is not among those in question may come in flight. -/
theorem claim (h : Follows d K l s) (hkey : ¬ K key) : Follows d K l (s.claim key) := by
  obtain ⟨l₁, h⟩ := h
  refine ⟨l₁, h.mirrors.claim key, h.agrees, h.within, fun other hother => ?_⟩
  rcases List.mem_cons.1 hother with rfl | hother
  · exact hkey
  · exact h.flight other hother

/-- Storing an entry writes it down. -/
theorem store (h : Follows d K l s) (key : String) (e : Entry) :
    Follows d K (Function.update l key (some e)) (s.store key e).2 := by
  obtain ⟨l₁, h⟩ := h
  refine h.stored (fun other hsome => ?_) (.inl (Function.update_self ..)) fun other hne =>
    Function.update_of_ne hne ..
  rw [Function.update_apply]
  split
  · simp
  · exact hsome

/-- A request for an entry computes it where the ledger has none. -/
theorem getOrCompute (h : Follows d K l s) (key : String) (result : Except ε Entry)
    (hstrands : K key → ∀ e, result = .ok e → e.IsShort) :
    Follows d K (l.keep key (l key) result) (s.after (.getOrCompute key result)) := by
  obtain ⟨l₁, h⟩ := h
  obtain ⟨found, s', hlookup, hs', hfound⟩ := h.lookup key
  -- where nothing is stored, the ledger says the same of the keys in question
  have hkept : (K key → l.Legible key → l.keep key (l key) result = l) →
      Follows d K (l.keep key (l key) result) s' := by
    intro hsame
    refine ⟨l₁, hs'.mirrors, fun other hK hlegible => ?_, fun other hsome => ?_, hs'.flight⟩
    · have hlegible' := hlegible.of_keep
      obtain ⟨heq, hsettled⟩ := hs'.agrees other hK hlegible'
      refine ⟨?_, hsettled⟩
      by_cases hother : other = key
      · subst hother
        rw [hsame hK hlegible', heq]
      · rw [l.keep_of_ne hother, heq]
    · exact Ledger.keep_ne_none (hs'.within other hsome) key _ _
  by_cases hfree : key ∈ s.inFlight
  · -- the key is in flight, so nothing is computed; it is none of those in question
    have hleft : s.after (.getOrCompute key result) = s' := by
      have hflight : s'.inFlight.contains key = true := by
        have hsame : s'.inFlight = s.inFlight := by
          rw [← inFlight_lookup s key, hlookup]
        simpa [hsame] using hfree
      rw [Store.after, Store.getOrCompute, hlookup]
      cases found with
      | some e => rfl
      | none => simp only [hflight, if_true]
    rw [hleft]
    exact hkept fun hK => absurd hK (h.flight key hfree)
  rw [Store.after, getOrCompute_of_lookup hfree hlookup]
  cases found with
  | some e =>
    refine hkept fun hK hlegible => ?_
    exact Ledger.keep_of_some (hfound hK hlegible).symm result
  | none =>
    cases result with
    | error f =>
      refine hkept fun _ _ => ?_
      rw [Ledger.keep]
      · simp
    | ok e =>
      have hstored : Follows d K (l.keep key (l key) (.ok e : Except ε Entry)) (s'.store key e).2 := by
        refine hs'.stored (fun other hsome => Ledger.keep_ne_none hsome key _ _) ?_ fun other hne =>
          l.keep_of_ne hne _ _
        cases hl : l key with
        | none => exact .inl (by rw [Ledger.keep, Function.update_self])
        | some e' =>
          have hsame : l.keep key (some e') (.ok e : Except ε Entry) = l := rfl
          rw [hsame]
          refine .inr ⟨by simp [hl], fun ⟨hK, hlegible⟩ => ?_⟩
          exact absurd ((hfound hK hlegible).trans hl) (by simp)
      have hfailed : (s'.store key e).1 ≠ none → ¬ e.IsShort := hs'.not_isShort_of_store
      simp only [Store.keep]
      generalize s'.store key e = stored at hstored hfailed
      obtain ⟨failure, s''⟩ := stored
      cases failure with
      | none => exact hstored
      | some f => exact hstored.claim fun hK => hfailed (by simp) (hstrands hK e rfl)

/-- Every step that strands none of the keys is written down. -/
theorem next (h : Follows d K l s) {x : Step ε} (hx : ∀ key, K key → ¬ x.Strands key) :
    Follows d K (l.next x) (s.next x) := by
  cases x with
  | reopen limit =>
    obtain ⟨l₁, h⟩ := h
    have hreopened := h.mirrors.reopen limit
    refine ⟨l₁, hreopened, fun key hK hlegible => ?_, h.within, ?_⟩
    · obtain ⟨heq, hsettled⟩ := h.agrees key hK hlegible
      exact ⟨heq, fun e hfind => hsettled e (find?_of_reopen hfind)⟩
    · exact fun key hmem => h.flight key (mem_inFlight_of_reopen hmem)
  | request r =>
    cases r with
    | store key e => exact h.store key e
    | lookup key =>
      obtain ⟨l₁, h⟩ := h
      obtain ⟨found, s', hlookup, hs', -⟩ := h.lookup key
      simp only [Store.next, Store.after, hlookup]
      exact ⟨l₁, hs'⟩
    | getOrCompute key result =>
      refine h.getOrCompute key result fun hK e he => ?_
      by_contra hlong
      exact hx key hK ⟨rfl, e, he, hlong⟩
    | clear =>
      obtain ⟨l₁, h⟩ := h
      have hsettled : ∀ key, s.clear.2.Settled (some d) key := by
        intro key e hfind
        rw [find?_clear] at hfind
        exact absurd hfind (by simp)
      refine ⟨_, h.mirrors.clear.2, fun key _ _ => ⟨rfl, hsettled key⟩, fun _ h => absurd rfl h, ?_⟩
      rw [Store.next, Store.after, inFlight_clear]
      exact h.flight

/-- Every series of steps that strand none of the keys is written down. -/
theorem series (h : Follows d K l s) {steps : List (Step ε)}
    (hsteps : ∀ x ∈ steps, ∀ key, K key → ¬ x.Strands key) :
    Follows d K (steps.foldl Ledger.next l) (steps.foldl Store.next s) := by
  induction steps generalizing l s with
  | nil => exact h
  | cons x rest ih =>
    exact ih (h.next (hsteps x List.mem_cons_self)) fun y hy => hsteps y (List.mem_cons_of_mem _ hy)

end Follows

end Store

/-! ## Answers -/

variable {t : Tree} {d : Place} {K : String → Prop}

/-- A store on a directory answers as a ledger says, for every legible key among some keys. -/
structure AnswersAs (d : Place) (K : String → Prop) (l : Ledger) (s : Store) : Prop where
  lookup : ∀ key, K key → l.Legible key → (s.lookup key).1 = .ok (l key)
  /-- an entry that is there is the answer, and its computation is left alone -/
  served : ∀ key e, K key → l.Legible key → l key = some e →
    ∀ {ε : Type} (compute : Store → Except ε Entry × Store),
      s.getOrCompute key compute = (.ok ⟨e, false⟩, (s.lookup key).2)
  /-- one that is not there is computed, and is the answer unless it cannot be stored -/
  computed : ∀ key, K key → l.Legible key → l key = none →
    ∀ {ε : Type} (result : Except ε Entry), (∀ e, result = .ok e → e.IsShort) →
      s.answer key result = Store.answerOf none result none
  /-- everything can be taken out -/
  cleared : s.clear.1 = none
  /-- every entry has its document -/
  documents : ∀ key, K key → l.Legible key →
    s.disk.find? (documentPlace d key) = (l key).map fun e => .file (contentOf e)
  /-- every file below the directory is the document of a key with an entry, and none a temporary
  one -/
  tidy : ∀ p content, Place.isBelow p d.resolve = true → s.disk.node? p = some (.file content) →
    ∃ key e, isDigest key = true ∧ p = documentAt d key ∧ l key = some e

theorem Store.Follows.answersAs {s : Store} (h : Store.Follows d K l s) : AnswersAs d K l s := by
  obtain ⟨l₁, h⟩ := h
  have hlookup : ∀ key, K key → l.Legible key → ∃ s', s.lookup key = (.ok (l key), s') ∧
      Store.Trails d K l l₁ s' := by
    intro key hK hlegible
    obtain ⟨found, s', hlookup, hs', hfound⟩ := h.lookup key
    rw [hfound hK hlegible] at hlookup
    exact ⟨s', hlookup, hs'⟩
  have hdocuments := (h.mirrors.stocked d rfl).shelved
  refine ⟨?_, ?_, ?_, h.mirrors.clear.1, ?_, ?_⟩
  · intro key hK hlegible
    obtain ⟨s', hlookup, -⟩ := hlookup key hK hlegible
    rw [hlookup]
  · intro key e hK hlegible hl ε compute
    obtain ⟨s', hlookup, -⟩ := hlookup key hK hlegible
    simp only [Store.getOrCompute, hlookup, hl]
  · intro key hK hlegible hl ε result hshort
    obtain ⟨s', hlookup, hs'⟩ := hlookup key hK hlegible
    rw [hl] at hlookup
    have hfree : key ∉ s.inFlight := fun hmem => h.flight key hmem hK
    rw [Store.answer, Store.getOrCompute_of_lookup hfree hlookup]
    cases result with
    | error f => rfl
    | ok e =>
      have hstored : (s'.store key e).1 = none := hs'.mirrors.store_of_isShort (hshort e rfl)
      simp only [Store.keep]
      generalize s'.store key e = stored at hstored
      obtain ⟨failure, s''⟩ := stored
      obtain rfl : failure = none := hstored
      rfl
  · intro key hK hlegible
    rw [hdocuments.find? hlegible.digest, Ledger.documents, Option.map_map,
      (h.agrees key hK hlegible).1]
    rfl
  · intro p content hbelow hfile
    obtain ⟨key, hdigest, rfl⟩ := (h.mirrors.stocked d rfl).tidy p content hbelow hfile
    have hdocument := hdocuments.file hdigest hfile
    have hthere : l₁ key ≠ none := by
      intro hnone
      rw [Ledger.documents, hnone] at hdocument
      exact absurd hdocument (by simp)
    obtain ⟨e, he⟩ := Option.ne_none_iff_exists'.1 (h.within key hthere)
    exact ⟨key, e, hdigest, rfl, he⟩

/-- A store that is opened on an empty directory, whatever is done with it, answers as a plain map from
keys to entries does: with the entry that was stored last under a key since everything was last taken
out.  Neither its limit nor opening it again is seen in its answers. -/
theorem answers_of_plain_map {limit : Option Int} {s : Store} (hvacant : Vacant t d)
    (hnew : Store.new (some d) limit t = .ok s) (steps : List (Step ε)) :
    AnswersAs d (fun key => ∀ x ∈ steps, ¬ x.Strands key) (steps.foldl Ledger.next fun _ => none)
      (steps.foldl Store.next s) := by
  obtain ⟨hentries, hdirectory, hdisk, hidle⟩ := Store.new_eq_ok hnew
  have hnothing : Store.Mirrors (some d) (fun _ => none) s :=
    .nothing hdirectory hentries (by simp) fun _ hd =>
      Option.some.inj hd ▸ hdisk ▸ hvacant.stocked
  have hsettled : ∀ key, s.Settled (some d) key := by
    intro key e hfind
    simp [Memory.find?, hentries] at hfind
  have hfollows : Store.Follows d (fun key => ∀ x ∈ steps, ¬ x.Strands key) (fun _ => none) s :=
    ⟨_, hnothing, fun key _ _ => ⟨rfl, hsettled key⟩, fun _ h => h, by simp [hidle]⟩
  exact (hfollows.series fun x hx key hK => hK x hx).answersAs

/-- Two keys in a memory of one.  The second entry pushes the first one out, which is found again when
the store has been opened anew; later everything is taken out, and the second key is stored again. -/
def turnover : List (Step String) :=
  [.request (.store "0000000000000000" (sheet "1")), .request (.store "1111111111111111" (sheet "2")),
    .reopen (some 1), .request (.getOrCompute "0000000000000000" (.ok (sheet "3"))),
    .request .clear, .request (.store "1111111111111111" (sheet "4")), .reopen none]

/-- The first entry is served from its document, and is gone in the end. -/
theorem turnover_answers :
    let s : Store := { memory := { limit := some ⟨1, by decide⟩ }, directory := some ["cache"] }
    ((turnover.take 3).foldl Store.next s).answer "0000000000000000"
        (.ok (sheet "3") : Except String Entry) = .ok ⟨sheet "1", false⟩ ∧
      ((turnover.foldl Store.next s).lookup "0000000000000000").1 = .ok none ∧
      ((turnover.foldl Store.next s).lookup "1111111111111111").1 = .ok (some (sheet "4")) := by
  intro s
  have hvacant : Vacant {} ["cache"] := vacant_empty (by decide) (by decide)
  have hnew : Store.new (some ["cache"]) (some 1) {} = .ok s := rfl
  have hanswers := fun n => answers_of_plain_map hvacant hnew (turnover.take n)
  have hsheet : ∀ css : String, (sheet css).IsLegible := fun css =>
    ⟨by simp [Entry.IsShort, Entry.diagnostic?, sheet],
      by simp [Entry.IsApart, Entry.texts, Entry.css?, Entry.diagnostic?, sheet]⟩
  have hstrands : ∀ n key, ∀ x ∈ turnover.take n, ¬ x.Strands key := by
    intro n key x hx
    have hmem := List.mem_of_mem_take hx
    simp only [turnover, List.mem_cons, List.not_mem_nil, or_false] at hmem
    rcases hmem with rfl | rfl | rfl | rfl | rfl | rfl | rfl <;> try exact id
    rintro ⟨-, e, he, hlong⟩
    exact hlong (Except.ok.inj he ▸ (hsheet "3").short)
  have hlegible : ∀ {l : Ledger} {key : String} (css : Option String), isDigest key = true →
      l key = css.map sheet → l.Legible key := by
    intro l key css hdigest hl
    refine ⟨hdigest, fun e he => ?_⟩
    obtain ⟨text, -, rfl⟩ := Option.map_eq_some_iff.1 (hl.symm.trans he)
    exact hsheet text
  refine ⟨?_, ?_, ?_⟩
  · have hfirst : Ledger.Legible ((turnover.take 3).foldl Ledger.next fun _ => none)
        "0000000000000000" := hlegible (some "1") (by decide) (by decide +kernel)
    rw [Store.answer, (hanswers 3).served _ (sheet "1") (hstrands 3 _) hfirst (by decide +kernel)]
  · exact (hanswers 7).lookup _ (hstrands 7 _) (hlegible none (by decide) (by decide +kernel))
  · exact (hanswers 7).lookup _ (hstrands 7 _) (hlegible (some "4") (by decide) (by decide +kernel))

/-! ## An entry that is lost -/

/-- An entry is stored, and the store is opened again. -/
def storedBefore (key : String) (e : Entry) : List (Step Empty) :=
  [.request (.store key e), .reopen none]

/-- An entry with a number that is too long is not found once the store is opened again. -/
theorem lookup_storedBefore {s : Store} (hvacant : Vacant t d) (hnew : Store.new (some d) none t = .ok s)
    {e : Entry} (hlong : ¬ e.IsShort) :
    (((storedBefore key e).foldl Store.next s).lookup key).1 = .ok none := by
  obtain ⟨hentries, hdirectory, hdisk, -⟩ := Store.new_eq_ok hnew
  have hnothing : Store.Mirrors (some d) (fun _ => none) s :=
    .nothing hdirectory hentries (by simp) fun _ hd =>
      Option.some.inj hd ▸ hdisk ▸ hvacant.stocked
  have hlost : ¬ (isDigest key = true ∧ e.IsShort) := fun hwritten => hlong hwritten.2
  have hreopened := (hnothing.store_undocumented hlost).reopen none
  have hforgotten : ((s.store key e).2.reopen none).memory.find? key = none := by
    simp [Store.reopen, Store.new, Memory.find?]
  obtain ⟨s', hlookup, -⟩ := hreopened.lookup_of_forgotten hforgotten
  exact congrArg Prod.fst hlookup

/-- A failure in a line with too long a number was stored last under its key, which is a digest, and is
not found there. -/
theorem lookup_farBelow :
    isDigest "0000000000000000" = true ∧
      ((storedBefore "0000000000000000" farBelow).foldl Ledger.next fun _ => none) "0000000000000000"
        = some farBelow ∧
      (((storedBefore "0000000000000000" farBelow).foldl Store.next
        { directory := some ["cache"] }).lookup "0000000000000000").1 = .ok none := by
  have hstored : ∀ key e, ((storedBefore key e).foldl Ledger.next fun _ => none) key = some e := by
    intro key e
    simp [storedBefore, Ledger.next, Ledger.after]
  have hvacant : Vacant {} ["cache"] := vacant_empty (by decide) (by decide)
  exact ⟨by decide, hstored _ _, lookup_storedBefore hvacant rfl not_isShort_farBelow⟩

end SheetBuild.Cache
