import SheetBuild.Proofs.Import.Walk
set_option autoImplicit false

/-!
# Closures are walks

`Graph.closure` goes through the graph with a memo of the closures found before, a trail of the paths
on the way, and a bound on the depth.  None of the three shows in its answer: `closure_eq_ok_iff` says
that with any memo that earlier queries left, failed ones included, a path has the closure `c` exactly
when the walk from it finds `c`.
-/

namespace SheetBuild.Import.Graph

variable {g : Graph}

/-- Every closure in the memo is what a walk finds. -/
def Sound (g : Graph) (memo : Memo) : Prop :=
  ∀ (p : String) (c : List String), memo.lookup p = some c → g.Walk p c

theorem sound_nil : g.Sound [] := fun _ _ h => by simp at h

theorem Sound.cons {memo : Memo} {p : String} {c : List String} (hm : g.Sound memo)
    (h : g.Walk p c) : g.Sound ((p, c) :: memo) := by
  intro q d hq
  rw [List.lookup_cons] at hq
  by_cases hqp : q = p
  · subst hqp
    rw [beq_self_eq_true] at hq
    exact Option.some.inj hq ▸ h
  · rw [beq_eq_false_iff_ne.2 hqp] at hq
    exact hm q d hq

/-- The trail of a visit: files of the graph, each once, and fewer than the depth leaves room for. -/
structure OnTrail (g : Graph) (fuel : Nat) (trail : List String) : Prop where
  nodup : trail.Nodup
  mem_paths : ∀ q ∈ trail, q ∈ g.paths
  room : g.nodes.length < fuel + trail.length

namespace OnTrail

theorem nil (g : Graph) : g.OnTrail (g.nodes.length + 1) [] :=
  ⟨List.nodup_nil, by simp, by simp⟩

/-- A trail of distinct files is never longer than the graph, so the depth does not run out. -/
theorem fuel_ne_zero {trail : List String} : ¬ g.OnTrail 0 trail := by
  intro h
  have hlen : trail.length ≤ g.paths.length := h.nodup.length_le_of_subset h.mem_paths
  have hroom := h.room
  rw [paths, List.length_map] at hlen
  omega

/-- The trail goes on through a file that it does not hold yet. -/
theorem extend {fuel : Nat} {trail : List String} {p : String} (h : g.OnTrail (fuel + 1) trail)
    (hp : p ∈ g.paths) (hn : p ∉ trail) : g.OnTrail fuel (trail ++ [p]) where
  nodup := by
    refine List.nodup_append.2 ⟨h.nodup, by simp, ?_⟩
    intro a ha b hb hab
    rw [List.mem_singleton.1 hb] at hab
    exact hn (hab ▸ ha)
  mem_paths := by
    intro q hq
    rcases List.mem_append.1 hq with hq | hq
    · exact h.mem_paths q hq
    · exact List.mem_singleton.1 hq ▸ hp
  room := by
    have := h.room
    rw [List.length_append, List.length_singleton]
    omega

end OnTrail

/-- Only a file of the graph has imports. -/
theorem mem_paths_of_imports_ne_nil {p : String} (h : g.imports p ≠ []) : p ∈ g.paths := by
  unfold imports at h
  cases hn : g.node? p with
  | none => simp [hn] at h
  | some n =>
    have hp : n.path = p := by simpa using List.find?_some hn
    exact List.mem_map.2 ⟨n, List.mem_of_find?_eq_some hn, hp⟩

/-! ## One visit -/

/-- What a visit with a trail keeps and answers: it keeps the memo sound, an answer is what a walk
finds, and a walk that stays off the trail is answered. -/
structure Faithful (g : Graph) (trail : List String) (visit : Memo → String → Visit) : Prop where
  sound : ∀ (memo : Memo) (p : String), g.Sound memo → g.Sound (visit memo p).2
  walk : ∀ (memo : Memo) (p : String) (c : List String), g.Sound memo →
    (visit memo p).1 = .ok c → g.Walk p c
  answer : ∀ (memo : Memo) (p : String) (c : List String), g.Sound memo → g.Walk p c →
    (∀ q ∈ trail, q ∉ p :: c) → (visit memo p).1 = .ok c

namespace Faithful

variable {trail : List String} {visit : Memo → String → Visit}

/-- Visiting paths one after the other keeps the memo sound, wherever it ends. -/
theorem sound_visitAll (hv : g.Faithful trail visit) {memo : Memo} (hm : g.Sound memo)
    (acc ps : List String) : g.Sound (visitAll visit memo acc ps).2 := by
  induction ps generalizing memo acc with
  | nil => exact hm
  | cons p ps ih =>
    have hs := hv.sound memo p hm
    unfold visitAll
    split
    · rename_i e memo' he
      rw [he] at hs
      exact hs
    · rename_i reached memo' hr
      rw [hr] at hs
      exact ih hs _

/-- Where visiting paths one after the other comes to an answer, each of them has a walk. -/
theorem exists_walk_visitAll (hv : g.Faithful trail visit) {memo : Memo} (hm : g.Sound memo)
    {acc ps r : List String} (h : (visitAll visit memo acc ps).1 = .ok r) :
    ∀ p ∈ ps, ∃ c, g.Walk p c := by
  induction ps generalizing memo acc with
  | nil => simp
  | cons p ps ih =>
    have hs := hv.sound memo p hm
    unfold visitAll at h
    split at h
    · exact absurd h (by simp)
    · rename_i reached memo' hr
      rw [hr] at hs
      intro q hq
      rcases List.mem_cons.1 hq with rfl | hq
      · exact ⟨reached, hv.walk memo q reached hm (by rw [hr])⟩
      · exact ih hs h q hq

/-- The answer of visiting paths one after the other is merged from their walks. -/
theorem visitAll_eq_merge (hv : g.Faithful trail visit) {memo : Memo} (hm : g.Sound memo)
    {below : String → List String} {acc ps r : List String}
    (hps : ∀ p ∈ ps, g.Walk p (below p)) (h : (visitAll visit memo acc ps).1 = .ok r) :
    r = merge acc (ps.flatMap fun p => p :: below p) := by
  induction ps generalizing memo acc with
  | nil => exact (Except.ok.inj h).symm
  | cons p ps ih =>
    have hs := hv.sound memo p hm
    unfold visitAll at h
    split at h
    · exact absurd h (by simp)
    · rename_i reached memo' hr
      rw [hr] at hs
      have hwalk : g.Walk p reached := hv.walk memo p reached hm (by rw [hr])
      have hreached := hwalk.unique (hps p List.mem_cons_self)
      rw [ih hs (fun q hq => hps q (List.mem_cons_of_mem _ hq)) h, List.flatMap_cons, merge_append,
        hreached]

/-- Paths whose walks stay off the trail are all answered. -/
theorem exists_visitAll_eq (hv : g.Faithful trail visit) {memo : Memo} (hm : g.Sound memo)
    {below : String → List String} {ps : List String} (hps : ∀ p ∈ ps, g.Walk p (below p))
    (hoff : ∀ p ∈ ps, ∀ q ∈ trail, q ∉ p :: below p) (acc : List String) :
    ∃ r, (visitAll visit memo acc ps).1 = .ok r := by
  induction ps generalizing memo acc with
  | nil => exact ⟨acc, rfl⟩
  | cons p ps ih =>
    have hs := hv.sound memo p hm
    have ha := hv.answer memo p (below p) hm (hps p List.mem_cons_self)
      (hoff p List.mem_cons_self)
    unfold visitAll
    split
    · rename_i e memo' he
      rw [he] at ha
      exact absurd ha (by simp)
    · rename_i reached memo' hr
      rw [hr] at hs
      exact ih hs (fun q hq => hps q (List.mem_cons_of_mem _ hq))
        (fun q hq => hoff q (List.mem_cons_of_mem _ hq)) _

end Faithful

/-- The answer of a visit to the imports of a path is what the walk from that path finds. -/
theorem Faithful.walk_of_visitAll {trail : List String} {visit : Memo → String → Visit}
    (hv : g.Faithful trail visit) {memo : Memo} (hm : g.Sound memo) {p : String} {r : List String}
    (clean : g.problems p = []) (h : (visitAll visit memo [] (g.imports p)).1 = .ok r) :
    g.Walk p r := by
  obtain ⟨below, hbelow⟩ := Walk.exists_below (hv.exists_walk_visitAll hm h)
  rw [hv.visitAll_eq_merge hm hbelow h, merge_nil]
  exact .node below clean hbelow

/-- The walk from a path answers the visit to its imports, which has that path on its trail. -/
theorem Faithful.visitAll_of_walk {trail : List String} {visit : Memo → String → Visit} {p : String}
    (hv : g.Faithful (trail ++ [p]) visit) {memo : Memo} (hm : g.Sound memo) {c : List String}
    (h : g.Walk p c) (hoff : ∀ q ∈ trail, q ∉ p :: c) :
    (visitAll visit memo [] (g.imports p)).1 = .ok c := by
  have hoff' : ∀ d ∈ g.imports p, ∀ c', g.Walk d c' → ∀ q ∈ trail ++ [p], q ∉ d :: c' :=
    fun d hd c' h' => h.off_below hoff hd h'
  cases h with
  | node below clean down =>
    obtain ⟨r, hr⟩ := hv.exists_visitAll_eq hm down (fun d hd => hoff' d hd _ (down d hd)) []
    rw [hr, hv.visitAll_eq_merge hm down hr, merge_nil]

/-- A path in order that imports nothing has a walk, which finds nothing. -/
theorem Walk.of_imports_eq_nil {p : String} (clean : g.problems p = []) (h : g.imports p = []) :
    g.Walk p [] := by
  have hwalk : g.Walk p ((g.imports p).flatMap fun d => d :: []).eraseDups :=
    .node (fun _ => []) clean (by simp [h])
  rwa [h] at hwalk

/-- What a visit to the imports of a path keeps and answers.  Only a path with imports needs room on
the trail. -/
theorem visitAll_imports {trail : List String} {visit : Memo → String → Visit} {memo : Memo}
    {p : String} (hv : g.imports p ≠ [] → g.Faithful (trail ++ [p]) visit) (hm : g.Sound memo) :
    g.Sound (visitAll visit memo [] (g.imports p)).2 ∧
      (∀ r, g.problems p = [] → (visitAll visit memo [] (g.imports p)).1 = .ok r → g.Walk p r) ∧
      ∀ c, g.Walk p c → (∀ q ∈ trail, q ∉ p :: c) →
        (visitAll visit memo [] (g.imports p)).1 = .ok c := by
  by_cases hne : g.imports p = []
  · rw [hne, visitAll]
    refine ⟨hm, ?_, ?_⟩
    · intro r clean hr
      exact Except.ok.inj hr ▸ .of_imports_eq_nil clean hne
    · intro c hc _
      rw [hc.unique (.of_imports_eq_nil hc.problems_eq_nil hne)]
  · have hv := hv hne
    exact ⟨hv.sound_visitAll hm _ _, fun r clean hr => hv.walk_of_visitAll hm clean hr,
      fun c hc hoff => hv.visitAll_of_walk hm hc hoff⟩

/-- What one step of a visit keeps and answers, where the visits below it are faithful. -/
theorem visit_succ {fuel : Nat} {trail : List String} {memo : Memo} {p : String}
    (hv : p ∉ trail → g.imports p ≠ [] →
      g.Faithful (trail ++ [p]) (g.visit fuel (trail ++ [p])))
    (hm : g.Sound memo) :
    g.Sound (g.visit (fuel + 1) trail memo p).2 ∧
      (∀ c, (g.visit (fuel + 1) trail memo p).1 = .ok c → g.Walk p c) ∧
      ∀ c, g.Walk p c → (∀ q ∈ trail, q ∉ p :: c) →
        (g.visit (fuel + 1) trail memo p).1 = .ok c := by
  unfold visit
  by_cases ht : p ∈ trail
  · rw [if_pos (List.contains_iff_mem.2 ht)]
    refine ⟨hm, fun c h => absurd h (by simp), ?_⟩
    intro c _ hoff
    exact absurd List.mem_cons_self (hoff p ht)
  rw [if_neg (by simpa using ht)]
  cases hl : memo.lookup p with
  | some reached =>
    have hwalk := hm p reached hl
    exact ⟨hm, fun c h => Except.ok.inj h ▸ hwalk, fun c hc _ => by rw [hwalk.unique hc]⟩
  | none =>
    cases hp : g.problems p with
    | cons e es =>
      refine ⟨hm, fun c h => absurd h (by simp), ?_⟩
      intro c hc _
      rw [hc.problems_eq_nil] at hp
      exact absurd hp (by simp)
    | nil =>
      obtain ⟨hs, hw, ha⟩ := visitAll_imports (hv ht) hm
      generalize visitAll (g.visit fuel (trail ++ [p])) memo [] (g.imports p) = v at hs hw ha
      obtain ⟨answer, memo'⟩ := v
      cases answer with
      | error e => exact ⟨hs, fun c h => absurd h (by simp), fun c hc hoff => ha c hc hoff⟩
      | ok reached =>
        have hwalk := hw reached hp rfl
        refine ⟨hs.cons hwalk, fun c h => Except.ok.inj h ▸ hwalk, fun c hc hoff => ha c hc hoff⟩

/-- A visit that has room for its trail is faithful: by induction on the depth, where the visits to
the imports have a trail that is longer by one file. -/
theorem faithful_visit : ∀ {fuel : Nat} {trail : List String}, g.OnTrail fuel trail →
    g.Faithful trail (g.visit fuel trail)
  | 0, _, h => absurd h OnTrail.fuel_ne_zero
  | fuel + 1, trail, h => by
    have hv : ∀ p, p ∉ trail → g.imports p ≠ [] →
        g.Faithful (trail ++ [p]) (g.visit fuel (trail ++ [p])) := fun p hp hne =>
      faithful_visit (h.extend (mem_paths_of_imports_ne_nil hne) hp)
    exact {
      sound := fun memo p hm => (visit_succ (hv p) hm).1
      walk := fun memo p c hm hc => (visit_succ (hv p) hm).2.1 c hc
      answer := fun memo p c hm hc hoff => (visit_succ (hv p) hm).2.2 c hc hoff }

/-! ## Queries -/

/-- The memos that queries of a graph leave behind, whatever was asked and whatever came of it. -/
inductive Asked (g : Graph) : Memo → Prop where
  | nothing : Asked g []
  | more {memo : Memo} (before : Asked g memo) (path : String) : Asked g (g.closure memo path).2

theorem Asked.sound {memo : Memo} (h : g.Asked memo) : g.Sound memo := by
  induction h with
  | nothing => exact sound_nil
  | more _ path ih => exact (faithful_visit (OnTrail.nil g)).sound _ path ih

/-- Whatever was asked before, a path has a closure exactly when it has a walk, and then the closure is
what the walk finds. -/
theorem closure_eq_ok_iff {memo : Memo} (hm : g.Asked memo) {p : String} {c : List String} :
    (g.closure memo p).1 = .ok c ↔ g.Walk p c := by
  have hv := faithful_visit (OnTrail.nil g)
  exact ⟨hv.walk memo p c hm.sound, fun h => hv.answer memo p c hm.sound h (by simp)⟩

end SheetBuild.Import.Graph
