import Mathlib.Logic.Relation
import SheetBuild.Proofs.Import.Closure
set_option autoImplicit false

/-!
# What a file reaches

A file reaches another when imports lead from the one to the other.  A walk from a file finds exactly
what the file reaches (`Walk.mem_iff_reaches`), and there is a walk exactly when nothing that is
reached has a problem or lies on a circle of imports (`exists_walk_iff_orderly`).
-/

namespace SheetBuild.Import.Graph

variable {g : Graph}

/-- Imports lead from the first file to the second, over one edge or more. -/
def Reaches (g : Graph) : String → String → Prop :=
  Relation.TransGen fun p q => q ∈ g.imports p

/-- Nothing is wrong with a file or with what it reaches. -/
structure Orderly (g : Graph) (p : String) : Prop where
  /-- no problem is recorded -/
  clean : ∀ q, q = p ∨ g.Reaches p q → g.problems q = []
  /-- no circle of imports is entered -/
  acyclic : ∀ q, q = p ∨ g.Reaches p q → ¬ g.Reaches q q

theorem Reaches.of_mem_imports {p d : String} (h : d ∈ g.imports p) : g.Reaches p d :=
  .single h

/-- What an import reaches, and the import itself, is reached. -/
theorem Reaches.head {p d q : String} (h : d ∈ g.imports p) (hq : q = d ∨ g.Reaches d q) :
    g.Reaches p q := by
  rcases hq with rfl | hq
  · exact .single h
  · exact Relation.TransGen.head h hq

/-- The imports of a file in order are in order. -/
theorem Orderly.of_mem_imports {p d : String} (h : g.Orderly p) (hd : d ∈ g.imports p) :
    g.Orderly d where
  clean q hq := h.clean q (.inr (.head hd hq))
  acyclic q hq := h.acyclic q (.inr (.head hd hq))

/-! ## Walks find what is reached -/

namespace Walk

variable {p : String} {c : List String}

theorem reaches_of_mem {q : String} (h : g.Walk p c) (hq : q ∈ c) : g.Reaches p q := by
  induction h with
  | node below clean down ih =>
    rw [List.mem_eraseDups, List.mem_flatMap] at hq
    obtain ⟨d, hd, hqd⟩ := hq
    exact .head hd ((List.mem_cons.1 hqd).imp_right (ih d hd))

theorem mem_of_reaches {q : String} (h : g.Walk p c) (hq : g.Reaches p q) : q ∈ c := by
  induction hq with
  | single hd => exact h.mem_of_mem_imports hd
  | tail _ hd ih => exact h.mem_of_imports (List.mem_cons_of_mem p ih) hd

/-- A walk finds what its start reaches. -/
theorem mem_iff_reaches {q : String} (h : g.Walk p c) : q ∈ c ↔ g.Reaches p q :=
  ⟨h.reaches_of_mem, h.mem_of_reaches⟩

theorem orderly (h : g.Walk p c) : g.Orderly p where
  clean q hq := by
    refine h.problems_eq_nil_of_mem (List.mem_cons.2 ?_)
    exact hq.imp_right h.mem_of_reaches
  acyclic q hq hcircle := by
    rcases hq with rfl | hq
    · exact h.not_mem_self (h.mem_of_reaches hcircle)
    · obtain ⟨c', hc', -⟩ := h.of_mem (h.mem_of_reaches hq)
      exact hc'.not_mem_self (hc'.mem_of_reaches hcircle)

end Walk

/-- A path in order has a walk, by induction on the room that is left for a trail that leads to it:
the trail would hold the path already only if the path were on a circle. -/
theorem exists_walk_of_onTrail : ∀ {fuel : Nat} {trail : List String} {p : String},
    g.OnTrail fuel trail → (∀ q ∈ trail, g.Reaches q p) → g.Orderly p → ∃ c, g.Walk p c
  | 0, _, _, htrail, _, _ => absurd htrail OnTrail.fuel_ne_zero
  | fuel + 1, trail, p, htrail, hleads, hp => by
    have clean := hp.clean p (.inl rfl)
    by_cases hnone : g.imports p = []
    · exact ⟨[], .of_imports_eq_nil clean hnone⟩
    have hnew : p ∉ trail := fun hmem => hp.acyclic p (.inl rfl) (hleads p hmem)
    have htrail' := htrail.extend (mem_paths_of_imports_ne_nil hnone) hnew
    have hdown : ∀ d ∈ g.imports p, ∃ c, g.Walk d c := by
      intro d hd
      refine exists_walk_of_onTrail htrail' ?_ (hp.of_mem_imports hd)
      intro q hq
      rcases List.mem_append.1 hq with hq | hq
      · exact Relation.TransGen.tail (hleads q hq) hd
      · exact List.mem_singleton.1 hq ▸ .of_mem_imports hd
    obtain ⟨below, hbelow⟩ := Walk.exists_below hdown
    exact ⟨_, .node below clean hbelow⟩

/-- There is a walk from a path exactly when nothing is wrong with what it reaches. -/
theorem exists_walk_iff_orderly {p : String} : (∃ c, g.Walk p c) ↔ g.Orderly p := by
  constructor
  · rintro ⟨c, h⟩
    exact h.orderly
  · exact exists_walk_of_onTrail (OnTrail.nil g) (by simp)

end SheetBuild.Import.Graph
