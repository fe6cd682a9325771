import Mathlib.Data.List.Nodup
import SheetBuild.Proofs.Import.Files
import SheetBuild.Proofs.Import.Reachability
set_option autoImplicit false

/-!
# Dependents are what reaches a file

`Graph.dependents` spreads from the importers of a file to their importers, and takes the first of the
pending files each time.  Here the order does not matter.  `Spreads` is one step of the search that
takes any of the pending files: every run of it ends, on circles too (`acc_spreads`), and wherever
it ends it has found exactly what reaches the file (`Spread.mem_found_iff`).  So the dependents are
the converse of the closures (`dependents_converse_closure`).
-/

namespace SheetBuild.Import.Graph

variable {g : Graph} {p : String}

/-! ## Importers -/

/-- Each file of a file set has one node. -/
theorem nodup_paths_ofFiles (files : FileSet) (includePaths : List String) :
    (ofFiles files includePaths).paths.Nodup := by
  rw [paths_ofFiles]
  exact files.nodup

/-- Where each file has one node, the node of a path is the one with the path. -/
theorem node?_eq_some_iff (hg : g.paths.Nodup) {n : Node} :
    g.node? p = some n ↔ n ∈ g.nodes ∧ n.path = p := by
  constructor
  · intro h
    exact ⟨List.mem_of_find?_eq_some h, by simpa using List.find?_some h⟩
  · rintro ⟨hn, rfl⟩
    cases hm : g.node? n.path with
    | none => simpa using List.find?_eq_none.1 hm n hn
    | some m =>
      have hpath : m.path = n.path := by simpa using List.find?_some hm
      rw [List.inj_on_of_nodup_map hg (List.mem_of_find?_eq_some hm) hn hpath]

/-- The importers of a path are the files whose imports it is among. -/
theorem mem_importers_iff (hg : g.paths.Nodup) {q : String} :
    q ∈ g.importers p ↔ p ∈ g.imports q := by
  have hnode : ∀ n ∈ g.nodes, g.imports n.path = n.imports := fun n hn => by
    rw [imports, (node?_eq_some_iff hg).2 ⟨hn, rfl⟩]
    rfl
  simp only [importers, List.mem_map, List.mem_filter, List.contains_iff_mem]
  constructor
  · rintro ⟨n, ⟨hn, hp⟩, rfl⟩
    rwa [hnode n hn]
  · intro h
    obtain ⟨n, hn, rfl⟩ := List.mem_map.1 (mem_paths_of_imports_ne_nil (List.ne_nil_of_mem h))
    exact ⟨n, ⟨hn, hnode n hn ▸ h⟩, rfl⟩

/-- An importer is a file of the graph. -/
theorem mem_paths_of_mem_importers {q : String} (h : q ∈ g.importers p) : q ∈ g.paths := by
  obtain ⟨n, hn, rfl⟩ := List.mem_map.1 h
  exact List.mem_map_of_mem (List.mem_filter.1 hn).1

/-! ## The search -/

/-- A search for what reaches a file: what it has found, and the files that it has still to look at. -/
structure Spread where
  found : List String
  pending : List String

/-- One step of the search takes any of the pending files.  A file that was found before is passed
over; the importers of a new one are to be looked at too, in any order. -/
inductive Spreads (g : Graph) : Spread → Spread → Prop where
  | known {found pending rest : List String} {q : String} (take : pending.Perm (q :: rest))
      (old : q ∈ found) : Spreads g ⟨found, pending⟩ ⟨found, rest⟩
  | new {found pending rest pending' : List String} {q : String} (take : pending.Perm (q :: rest))
      (new : q ∉ found) (add : pending'.Perm (g.importers q ++ rest)) :
      Spreads g ⟨found, pending⟩ ⟨q :: found, pending'⟩

/-- The search from a path begins with its importers. -/
def Spread.start (g : Graph) (p : String) : Spread := ⟨[], g.importers p⟩

namespace Spread

variable {s t : Spread}

/-- What a search from a path keeps: every file that it knows reaches the path, it finds none twice, and
it lets no importer of the path or of a found file go. -/
structure Faithful (g : Graph) (p : String) (s : Spread) : Prop where
  paths : ∀ q ∈ s.pending, q ∈ g.paths
  once : s.found.Nodup
  reaches : ∀ q, q ∈ s.found ∨ q ∈ s.pending → g.Reaches q p
  covers : ∀ r, r = p ∨ r ∈ s.found → ∀ q ∈ g.importers r, q ∈ s.found ∨ q ∈ s.pending

theorem Faithful.start (hg : g.paths.Nodup) (p : String) : Faithful g p (Spread.start g p) where
  paths _ hq := mem_paths_of_mem_importers hq
  once := List.nodup_nil
  reaches q hq := by
    rcases hq with hq | hq
    · exact absurd hq List.not_mem_nil
    · exact .of_mem_imports ((mem_importers_iff hg).1 hq)
  covers r hr q hq := by
    rcases hr with rfl | hr
    · exact .inr hq
    · exact absurd hr List.not_mem_nil

/-- A step keeps a search faithful. -/
theorem Faithful.step (hg : g.paths.Nodup) (h : Faithful g p s) (hstep : g.Spreads s t) :
    Faithful g p t := by
  cases hstep with
  | @known found pending rest q take old =>
    have hmem : ∀ r, r ∈ pending ↔ r = q ∨ r ∈ rest := fun r => take.mem_iff.trans List.mem_cons
    refine ⟨fun r hr => h.paths r ((hmem r).2 (.inr hr)), h.once, ?_, ?_⟩
    · intro r hr
      exact h.reaches r (hr.imp_right fun hr => (hmem r).2 (.inr hr))
    · intro r hr q' hq'
      rcases h.covers r hr q' hq' with hfound | hpending
      · exact .inl hfound
      · rcases (hmem q').1 hpending with rfl | hrest
        · exact .inl old
        · exact .inr hrest
  | @new found pending rest pending' q take new add =>
    have hmem : ∀ r, r ∈ pending ↔ r = q ∨ r ∈ rest := fun r => take.mem_iff.trans List.mem_cons
    have hmem' : ∀ r, r ∈ pending' ↔ r ∈ g.importers q ∨ r ∈ rest := fun r =>
      add.mem_iff.trans List.mem_append
    have hq : g.Reaches q p := h.reaches q (.inr ((hmem q).2 (.inl rfl)))
    refine ⟨?_, List.nodup_cons.2 ⟨new, h.once⟩, ?_, ?_⟩
    · intro r hr
      rcases (hmem' r).1 hr with hr | hr
      · exact mem_paths_of_mem_importers hr
      · exact h.paths r ((hmem r).2 (.inr hr))
    · rintro r (hr | hr)
      · rcases List.mem_cons.1 hr with rfl | hr
        · exact hq
        · exact h.reaches r (.inl hr)
      · rcases (hmem' r).1 hr with hr | hr
        · exact .head ((mem_importers_iff hg).1 hr) (.inr hq)
        · exact h.reaches r (.inr ((hmem r).2 (.inr hr)))
    · intro r hr q' hq'
      by_cases hrq : r = q
      · exact .inr ((hmem' q').2 (.inl (hrq ▸ hq')))
      · have hold : r = p ∨ r ∈ found := hr.imp_right fun hr => (List.mem_cons.1 hr).resolve_left hrq
        rcases h.covers r hold q' hq' with hfound | hpending
        · exact .inl (List.mem_cons_of_mem q hfound)
        · rcases (hmem q').1 hpending with rfl | hrest
          · exact .inl List.mem_cons_self
          · exact .inr ((hmem' q').2 (.inr hrest))

/-- A run keeps a search faithful. -/
theorem Faithful.run (hg : g.paths.Nodup) (h : Faithful g p s)
    (hrun : Relation.ReflTransGen g.Spreads s t) : Faithful g p t := by
  induction hrun with
  | refl => exact h
  | tail _ hstep ih => exact ih.step hg hstep

/-- A search that has nothing more to look at has found what reaches the path: the last import on the
way to the path is that of an importer, and each one before it that of a file that was found. -/
theorem Faithful.mem_found_iff (hg : g.paths.Nodup) (h : Faithful g p s) (hend : s.pending = [])
    {q : String} : q ∈ s.found ↔ g.Reaches q p := by
  have hcovers : ∀ r, r = p ∨ r ∈ s.found → ∀ q ∈ g.importers r, q ∈ s.found := fun r hr q hq =>
    (h.covers r hr q hq).resolve_right (by simp [hend])
  constructor
  · exact fun hq => h.reaches q (.inl hq)
  · intro hq
    induction hq using Relation.TransGen.head_induction_on with
    | single himport => exact hcovers p (.inl rfl) _ ((mem_importers_iff hg).2 himport)
    | head himport _ ih => exact hcovers _ (.inr ih) _ ((mem_importers_iff hg).2 himport)

/-! ## The search ends -/

/-- The number of files that were not found yet, and the number of those to look at. -/
def measure (g : Graph) (s : Spread) : Nat × Nat :=
  ((g.paths.filter fun q => !s.found.contains q).length, s.pending.length)

/-- A step over files of the graph finds one more of them, or leaves less to look at. -/
theorem measure_lt (hpaths : ∀ q ∈ s.pending, q ∈ g.paths) (h : g.Spreads s t) :
    Prod.Lex (· < ·) (· < ·) (measure g t) (measure g s) := by
  cases h with
  | known take _ =>
    refine Prod.Lex.right _ ?_
    rw [take.length_eq, List.length_cons]
    exact Nat.lt_succ_self _
  | new take new _ =>
    exact Prod.Lex.left _ _
      (length_filter_cons_lt (hpaths _ (take.mem_iff.2 List.mem_cons_self)) new)

end Spread

/-- Every run of a search that is faithful so far ends. -/
theorem acc_spreads (hg : g.paths.Nodup) (s : Spread) (h : s.Faithful g p) :
    Acc (fun t s => g.Spreads s t) s :=
  .intro s fun t ht => acc_spreads hg t (h.step hg ht)
termination_by Spread.measure g s
decreasing_by exact Spread.measure_lt h.paths ht

/-- Taking the first of the pending files each time is a run of the search. -/
theorem spreads_spread (found pending : List String) (hpaths : ∀ q ∈ pending, q ∈ g.paths) :
    Relation.ReflTransGen g.Spreads ⟨found, pending⟩ ⟨g.spread found pending, []⟩ := by
  fun_induction spread g found pending with
  | case1 => exact .refl
  | case2 found q pending hskip ih =>
    have hq : q ∈ g.paths := hpaths q List.mem_cons_self
    have hold : q ∈ found := by simpa [hq] using hskip
    exact .head (.known (List.Perm.refl _) hold) (ih fun r hr => hpaths r (List.mem_cons_of_mem q hr))
  | case3 found q pending htake ih =>
    have hnew : q ∉ found := by
      simp only [Bool.or_eq_true, not_or] at htake
      simpa using htake.1
    refine .head (.new (List.Perm.refl _) hnew (List.Perm.refl _)) (ih fun r hr => ?_)
    rcases List.mem_append.1 hr with hr | hr
    · exact mem_paths_of_mem_importers hr
    · exact hpaths r (List.mem_cons_of_mem q hr)

/-! ## Paths in order -/

theorem sortPaths_perm (ps : List String) : (sortPaths ps).Perm ps := List.mergeSort_perm _ _

/-- Distinct paths are put in increasing order. -/
theorem pairwise_sortPaths {ps : List String} (h : ps.Nodup) : (sortPaths ps).Pairwise (· < ·) := by
  have hle : (sortPaths ps).Pairwise fun a b => a ≤ b := by
    have hsorted := @List.pairwise_mergeSort String (fun a b => Decidable.decide (a ≤ b))
      (fun a b c hab hbc => by
        simp only [decide_eq_true_eq] at hab hbc ⊢
        exact String.le_trans hab hbc)
      (fun a b => by simpa using String.le_total a b) ps
    exact hsorted.imp fun h => by simpa using h
  refine (hle.and ((sortPaths_perm ps).nodup_iff.2 h)).imp ?_
  rintro a b ⟨hab, hne⟩
  exact String.not_le.1 fun hba => hne (String.le_antisymm hab hba)

/-- There is one increasing order of paths. -/
theorem sortPaths_eq_of_pairwise {ps qs : List String} (h : ps.Perm qs)
    (hqs : qs.Pairwise (· < ·)) : sortPaths ps = qs := by
  have hps : ps.Nodup := h.nodup_iff.2 (hqs.imp fun hlt => String.ne_of_lt hlt)
  refine List.Perm.eq_of_pairwise ?_ (pairwise_sortPaths hps) hqs ((sortPaths_perm ps).trans h)
  intro a b _ _ hab hba
  exact absurd hba (String.lt_asymm hab)

/-! ## Dependents -/

/-- Wherever a run of the search comes to its end, the dependents are what it found. -/
theorem dependents_eq_of_run (hg : g.paths.Nodup) {found : List String}
    (hrun : Relation.ReflTransGen g.Spreads (Spread.start g p) ⟨found, []⟩) :
    g.dependents p = sortPaths (found.filter (· ≠ p)) := by
  have hstart := Spread.Faithful.start hg p
  have hspread := hstart.run hg (spreads_spread [] (g.importers p) hstart.paths)
  have hfound := hstart.run hg hrun
  have hperm : (g.spread [] (g.importers p)).Perm found := by
    refine (List.perm_ext_iff_of_nodup hspread.once hfound.once).2 fun q => ?_
    exact (hspread.mem_found_iff hg rfl).trans (hfound.mem_found_iff hg rfl).symm
  exact sortPaths_eq_of_pairwise ((hperm.filter _).trans (sortPaths_perm _).symm)
    (pairwise_sortPaths (hfound.once.filter _))

theorem mem_dependents_iff (hg : g.paths.Nodup) {f : String} :
    f ∈ g.dependents p ↔ f ≠ p ∧ g.Reaches f p := by
  have hstart := Spread.Faithful.start hg p
  have hspread := hstart.run hg (spreads_spread [] (g.importers p) hstart.paths)
  rw [dependents, (sortPaths_perm _).mem_iff, List.mem_filter, decide_eq_true_eq, and_comm]
  exact and_congr_right fun _ => hspread.mem_found_iff hg rfl

theorem pairwise_dependents (hg : g.paths.Nodup) (p : String) :
    (g.dependents p).Pairwise (· < ·) := by
  have hstart := Spread.Faithful.start hg p
  have hspread := hstart.run hg (spreads_spread [] (g.importers p) hstart.paths)
  exact pairwise_sortPaths (hspread.once.filter _)

/-- The files that depend on a path, whatever circles and problems a graph has in which each file has
one node.  The search for them ends, and comes to the same in whatever order it looks at files; they
are, in increasing order, exactly the files other than the path that reach it; and a file that has
a closure, whatever was asked before, is among them exactly when the path is in its closure. -/
theorem dependents_converse_closure (hg : g.paths.Nodup) (p : String) :
    Acc (fun t s => g.Spreads s t) (Spread.start g p) ∧
      (∀ found, Relation.ReflTransGen g.Spreads (Spread.start g p) ⟨found, []⟩ →
        g.dependents p = sortPaths (found.filter (· ≠ p))) ∧
      (g.dependents p).Pairwise (· < ·) ∧
      (∀ f, f ∈ g.dependents p ↔ f ∈ g.paths ∧ f ≠ p ∧ g.Reaches f p) ∧
      ∀ memo, g.Asked memo → ∀ f c, f ≠ p → (g.closure memo f).1 = .ok c →
        (f ∈ g.dependents p ↔ p ∈ c) := by
  refine ⟨acc_spreads hg _ (.start hg p), fun found => dependents_eq_of_run hg,
    pairwise_dependents hg p, ?_, ?_⟩
  · intro f
    rw [mem_dependents_iff hg]
    constructor
    · rintro ⟨hne, hreaches⟩
      obtain ⟨d, hd, -⟩ := Relation.TransGen.head'_iff.1 hreaches
      exact ⟨mem_paths_of_imports_ne_nil (List.ne_nil_of_mem hd), hne, hreaches⟩
    · exact fun h => h.2
  · intro memo hm f c hne hc
    rw [mem_dependents_iff hg, ((closure_eq_ok_iff hm).1 hc).mem_iff_reaches]
    exact and_iff_right hne

/-- Two sheets on a circle, of which one imports itself as well, a sheet that has a problem in front of
the circle, and one behind it that a sheet in order imports too. -/
def ring : FileSet :=
  .ofList [.ofText "x.scss" "@import 'a', 'gone'", .ofText "a.scss" "@import 'c'",
    .ofText "c.scss" "@import 'b', 'c', 'd'", .ofText "b.scss" "@import 'c'",
    .ofText "d.scss" "", .ofText "y.scss" "@import 'd'"]

theorem graph_ring : ofFiles ring [] =
    ⟨[⟨"x.scss", ["a.scss"], [⟨"gone", "x.scss", .notFound, some 1, some 14⟩]⟩,
      ⟨"a.scss", ["c.scss"], []⟩, ⟨"c.scss", ["b.scss", "c.scss", "d.scss"], []⟩,
      ⟨"b.scss", ["c.scss"], []⟩, ⟨"d.scss", [], []⟩, ⟨"y.scss", ["d.scss"], []⟩]⟩ := by
  decide +kernel

/-- What the sheet with the problem comes to depends on what is on the circle, and the sheet that imports
itself does not depend on itself. -/
theorem dependents_ring :
    (ofFiles ring []).paths.Nodup ∧
      (ofFiles ring []).dependents "c.scss" = ["a.scss", "b.scss", "x.scss"] ∧
      (ofFiles ring []).Reaches "x.scss" "c.scss" ∧ ¬ (ofFiles ring []).Reaches "y.scss" "c.scss" ∧
      (ofFiles ring []).dependents "d.scss" = ["a.scss", "b.scss", "c.scss", "x.scss", "y.scss"] ∧
      ((ofFiles ring []).closure [] "y.scss").1 = .ok ["d.scss"] ∧
      ("y.scss" ∈ (ofFiles ring []).dependents "d.scss" ↔ "d.scss" ∈ ["d.scss"]) := by
  have hg := nodup_paths_ofFiles ring []
  have hc : (ofFiles ring []).dependents "c.scss" = ["a.scss", "b.scss", "x.scss"] := by
    have hfound : (ofFiles ring []).spread [] ((ofFiles ring []).importers "c.scss")
        = ["b.scss", "c.scss", "x.scss", "a.scss"] := by
      rw [graph_ring]
      cbv
    rw [dependents, hfound]
    exact sortPaths_eq_of_pairwise (by decide) (by decide)
  have hd : (ofFiles ring []).dependents "d.scss"
      = ["a.scss", "b.scss", "c.scss", "x.scss", "y.scss"] := by
    have hfound : (ofFiles ring []).spread [] ((ofFiles ring []).importers "d.scss")
        = ["y.scss", "b.scss", "x.scss", "a.scss", "c.scss"] := by
      rw [graph_ring]
      cbv
    rw [dependents, hfound]
    exact sortPaths_eq_of_pairwise (by decide) (by decide)
  have hclosure : ((ofFiles ring []).closure [] "y.scss").1 = .ok ["d.scss"] := by
    rw [graph_ring]
    decide +kernel
  obtain ⟨-, -, -, hreach, -⟩ := dependents_converse_closure hg "c.scss"
  obtain ⟨-, -, -, -, hconverse⟩ := dependents_converse_closure hg "d.scss"
  refine ⟨hg, hc, ((hreach "x.scss").1 (by simp [hc])).2.2, ?_, hd, hclosure,
    hconverse [] .nothing "y.scss" _ (by decide) hclosure⟩
  intro hy
  have hpaths : "y.scss" ∈ (ofFiles ring []).paths := by simp [graph_ring, paths]
  have hmem := (hreach "y.scss").2 ⟨hpaths, by decide, hy⟩
  rw [hc] at hmem
  exact absurd hmem (by decide)

end SheetBuild.Import.Graph
