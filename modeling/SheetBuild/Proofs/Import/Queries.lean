import SheetBuild.Proofs.Import.Reachability
set_option autoImplicit false

/-!
# Queries do not see each other

Every query of a graph is asked with the closures that the queries before it have left, those of files
below a query that failed among them.  None of them shows in what a query comes to.  An answer is what
the walk finds (`closure_eq_ok_iff`).  Here the failures follow: which circle is met, or which problem of
which file comes first, is the same with any memo that is sound (`visit_eq_of_sound`), so it is what the
query comes to when nothing has been asked before (`closure_eq_fresh`).
-/

namespace SheetBuild.Import.Graph

variable {g : Graph}

/-- Visits of paths one after the other come to the same with two sound memos when each visit does. -/
theorem Faithful.visitAll_eq_of_sound {trail : List String} {visit : Memo → String → Visit}
    (hv : g.Faithful trail visit) {ps : List String}
    (hps : ∀ p ∈ ps, ∀ memo memo', g.Sound memo → g.Sound memo' →
      (visit memo p).1 = (visit memo' p).1)
    {memo memo' : Memo} (hm : g.Sound memo) (hm' : g.Sound memo') (acc : List String) :
    (visitAll visit memo acc ps).1 = (visitAll visit memo' acc ps).1 := by
  induction ps generalizing memo memo' acc with
  | nil => rfl
  | cons p ps ih =>
    have hfirst := hps p List.mem_cons_self memo memo' hm hm'
    have hs := hv.sound memo p hm
    have hs' := hv.sound memo' p hm'
    unfold visitAll
    generalize visit memo p = v at hfirst hs
    generalize visit memo' p = v' at hfirst hs'
    obtain ⟨answer, after⟩ := v
    obtain ⟨answer', after'⟩ := v'
    obtain rfl : answer = answer' := hfirst
    cases answer with
    | error e => rfl
    | ok reached => exact ih (fun q hq => hps q (List.mem_cons_of_mem p hq)) hs hs' _

/-- The walk from a path that a trail leads to stays off the trail: if it came to a file of the trail,
it would come back to its start. -/
theorem Walk.off_trail {trail : List String} {p : String} {c : List String} (h : g.Walk p c)
    (hleads : ∀ q ∈ trail, g.Reaches q p) : ∀ q ∈ trail, q ∉ p :: c := by
  intro q hq hmem
  have hcircle : g.Reaches p p := by
    rcases List.mem_cons.1 hmem with rfl | hmem
    · exact hleads q hq
    · exact Relation.TransGen.trans (h.reaches_of_mem hmem) (hleads q hq)
  exact h.not_mem_self (h.mem_of_reaches hcircle)

/-- What a visit of a path comes to that is neither on the trail nor in the memo. -/
theorem visit_of_new {fuel : Nat} {trail : List String} {memo : Memo} {p : String}
    (ht : p ∉ trail) (hl : memo.lookup p = none) :
    (g.visit (fuel + 1) trail memo p).1 =
      match g.problems p with
      | e :: _ => .error (.problem e)
      | [] => (visitAll (g.visit fuel (trail ++ [p])) memo [] (g.imports p)).1 := by
  rw [visit, if_neg (by simpa using ht), hl]
  cases g.problems p with
  | cons e es => rfl
  | nil =>
    generalize visitAll (g.visit fuel (trail ++ [p])) memo [] (g.imports p) = v
    obtain ⟨answer, after⟩ := v
    cases answer <;> rfl

/-- A visit of a path that its trail leads to comes to the same with any two sound memos, by induction
on the room for the trail.  Where the path has a walk, that is the answer, whether it is remembered or
found again; where it has none, no memo holds it, and the visits of its imports decide. -/
theorem visit_eq_of_sound : ∀ {fuel : Nat} {trail : List String}, g.OnTrail fuel trail →
    ∀ p : String, (∀ q ∈ trail, g.Reaches q p) →
    ∀ memo memo', g.Sound memo → g.Sound memo' →
      (g.visit fuel trail memo p).1 = (g.visit fuel trail memo' p).1
  | 0, _, h => absurd h OnTrail.fuel_ne_zero
  | fuel + 1, trail, h => by
    intro p hleads memo memo' hm hm'
    by_cases ht : p ∈ trail
    · simp only [visit, List.contains_iff_mem.2 ht, if_true]
    by_cases hwalk : ∃ c, g.Walk p c
    · obtain ⟨c, hc⟩ := hwalk
      have hoff := hc.off_trail hleads
      have hv := faithful_visit h
      rw [hv.answer memo p c hm hc hoff, hv.answer memo' p c hm' hc hoff]
    · have hnew : ∀ {m : Memo}, g.Sound m → m.lookup p = none := fun hsound =>
        Option.eq_none_iff_forall_ne_some.2 fun c hl => hwalk ⟨c, hsound p c hl⟩
      have hdown : ∀ d ∈ g.imports p, ∀ memo memo', g.Sound memo → g.Sound memo' →
          (g.visit fuel (trail ++ [p]) memo d).1 = (g.visit fuel (trail ++ [p]) memo' d).1 := by
        intro d hd
        have hroom := h.extend (mem_paths_of_imports_ne_nil (List.ne_nil_of_mem hd)) ht
        refine visit_eq_of_sound hroom d fun q hq => ?_
        rcases List.mem_append.1 hq with hq | hq
        · exact Relation.TransGen.tail (hleads q hq) hd
        · exact List.mem_singleton.1 hq ▸ .of_mem_imports hd
      have hall : (visitAll (g.visit fuel (trail ++ [p])) memo [] (g.imports p)).1
          = (visitAll (g.visit fuel (trail ++ [p])) memo' [] (g.imports p)).1 := by
        by_cases hnone : g.imports p = []
        · rw [hnone]
          rfl
        · have hroom := h.extend (mem_paths_of_imports_ne_nil hnone) ht
          exact (faithful_visit hroom).visitAll_eq_of_sound hdown hm hm' []
      rw [visit_of_new ht (hnew hm), visit_of_new ht (hnew hm'), hall]

/-- What a query comes to, whatever was asked before, is what it comes to when nothing was. -/
theorem closure_eq_fresh {memo : Memo} (hm : g.Asked memo) (p : String) :
    (g.closure memo p).1 = (g.closure [] p).1 :=
  visit_eq_of_sound (OnTrail.nil g) p (by simp) memo [] hm.sound sound_nil

/-! ## Queries one after the other -/

/-- What queries come to that are asked one after the other, each with the closures that those before
it left. -/
def closures (g : Graph) (memo : Memo) : List String → List (Except ClosureError (List String))
  | [] => []
  | p :: ps => (g.closure memo p).1 :: g.closures (g.closure memo p).2 ps

/-- Each of them comes to what it comes to alone. -/
theorem closures_eq_map {memo : Memo} (hm : g.Asked memo) (ps : List String) :
    g.closures memo ps = ps.map fun p => (g.closure [] p).1 := by
  induction ps generalizing memo with
  | nil => rfl
  | cons p ps ih => rw [closures, closure_eq_fresh hm, ih (hm.more p), List.map_cons]

end SheetBuild.Import.Graph
