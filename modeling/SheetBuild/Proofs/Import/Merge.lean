import SheetBuild.Import.Graph
set_option autoImplicit false

/-!
# Merging lists of paths

`Graph.merge` adds the paths that are not there yet.  Merging into nothing keeps the first of each
path, so a list that is put together from merged pieces has the same paths, in the same order, as one
that is merged at the end.
-/

namespace SheetBuild.Import.Graph

theorem merge_append (acc a b : List String) : merge acc (a ++ b) = merge (merge acc a) b :=
  List.foldl_append

/-- One path is added, unless it is there. -/
theorem merge_cons (acc : List String) (p : String) (ps : List String) :
    merge acc (p :: ps) = merge (if p ∈ acc then acc else acc ++ [p]) ps := by
  simp only [merge, List.foldl_cons, List.contains_iff_mem]

theorem mem_merge {acc more : List String} {p : String} :
    p ∈ merge acc more ↔ p ∈ acc ∨ p ∈ more := by
  induction more generalizing acc with
  | nil => simp [merge]
  | cons q more ih =>
    rw [merge_cons, ih]
    by_cases hq : q ∈ acc
    · rw [if_pos hq, List.mem_cons]
      constructor
      · exact fun h => h.imp_right .inr
      · rintro (h | rfl | h)
        · exact .inl h
        · exact .inl hq
        · exact .inr h
    · rw [if_neg hq, List.mem_append, List.mem_singleton, List.mem_cons, or_assoc]

/-- Merging into a list without repetition repeats nothing. -/
theorem nodup_merge {acc : List String} (h : acc.Nodup) (more : List String) :
    (merge acc more).Nodup := by
  induction more generalizing acc with
  | nil => exact h
  | cons p more ih =>
    rw [merge_cons]
    by_cases hp : p ∈ acc
    · rw [if_pos hp]
      exact ih h
    · rw [if_neg hp]
      refine ih (List.nodup_append.2 ⟨h, by simp, ?_⟩)
      intro a ha b hb hab
      rw [List.mem_singleton.1 hb] at hab
      exact hp (hab ▸ ha)

/-- What is there already adds nothing. -/
theorem merge_of_subset {acc more : List String} (h : ∀ p ∈ more, p ∈ acc) :
    merge acc more = acc := by
  induction more with
  | nil => rfl
  | cons p more ih =>
    rw [merge_cons, if_pos (h p List.mem_cons_self)]
    exact ih fun q hq => h q (List.mem_cons_of_mem _ hq)

/-- Merging keeps what is there and adds the first of each other path. -/
theorem merge_eq_append (acc more : List String) :
    merge acc more = acc ++ (more.filter fun p => p ∉ acc).eraseDups := by
  induction more generalizing acc with
  | nil => simp [merge]
  | cons p more ih =>
    rw [merge_cons, ih]
    by_cases hp : p ∈ acc
    · simp [hp]
    · rw [if_neg hp, List.filter_cons_of_pos (by simp [hp]), List.eraseDups_cons,
        List.filter_filter, List.append_assoc, List.singleton_append]
      congr 3
      apply List.filter_congr
      intro q _
      by_cases hq : q = p <;> simp [hq]

/-- Merging into nothing keeps the first of each path. -/
theorem merge_nil (more : List String) : merge [] more = more.eraseDups := by
  rw [merge_eq_append, List.nil_append, List.filter_eq_self.2 (by simp)]

/-- A path whose piece is there already may be left out. -/
theorem merge_flatMap_filter {acc : List String} {f : String → List String} {p : String}
    (h : ∀ q ∈ f p, q ∈ acc) (ps : List String) :
    merge acc ((ps.filter fun q => !q == p).flatMap f) = merge acc (ps.flatMap f) := by
  induction ps generalizing acc with
  | nil => rfl
  | cons q ps ih =>
    rw [List.flatMap_cons, merge_append]
    by_cases hq : q = p
    · subst hq
      rw [List.filter_cons_of_neg (by simp), merge_of_subset h, ih h]
    · rw [List.filter_cons_of_pos (by simp [hq]), List.flatMap_cons, merge_append]
      exact ih fun r hr => mem_merge.2 (.inl (h r hr))

/-- Of a path that occurs twice, the second piece adds nothing. -/
theorem merge_eraseDups_flatMap (f : String → List String) :
    ∀ (ps acc : List String), merge acc (ps.eraseDups.flatMap f) = merge acc (ps.flatMap f)
  | [], _ => rfl
  | p :: ps, acc => by
    have hlen : (ps.filter fun q => !q == p).length ≤ ps.length := List.length_filter_le _ _
    rw [List.eraseDups_cons, List.flatMap_cons, List.flatMap_cons, merge_append, merge_append,
      merge_eraseDups_flatMap f _ _]
    exact merge_flatMap_filter (fun q hq => mem_merge.2 (.inr hq)) ps
termination_by ps => ps.length
decreasing_by simp only [List.length_cons]; omega

/-- Keeping the first of each path before merging changes nothing. -/
theorem merge_eraseDups (acc more : List String) : merge acc more.eraseDups = merge acc more := by
  have h := merge_eraseDups_flatMap (fun p => [p]) more acc
  rwa [List.flatMap_singleton', List.flatMap_singleton'] at h

/-- Pieces that keep the same first paths may replace each other. -/
theorem eraseDups_append_congr {a a' b b' : List String} (ha : a.eraseDups = a'.eraseDups)
    (hb : b.eraseDups = b'.eraseDups) : (a ++ b).eraseDups = (a' ++ b').eraseDups := by
  rw [← merge_nil, ← merge_nil, merge_append, merge_append, merge_nil, merge_nil, ha,
    ← merge_eraseDups _ b, hb, merge_eraseDups]

@[simp] theorem eraseDups_eraseDups (ps : List String) : ps.eraseDups.eraseDups = ps.eraseDups := by
  rw [← merge_nil, merge_eraseDups, merge_nil]

end SheetBuild.Import.Graph
