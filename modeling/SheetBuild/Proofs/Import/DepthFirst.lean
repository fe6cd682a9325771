import SheetBuild.Proofs.Import.Files
import SheetBuild.Proofs.Import.Reachability
set_option autoImplicit false

/-!
# Closures by a depth-first traversal

What `Graph.closure` comes to, against two plainer accounts of it.  `VisitEnds` is the recursion of a
visit without a bound on its depth: that it ends, circles or not, is `visitEnds_visit`.  `depthFirst`
is a traversal of a graph with a list of the paths that it has reached, and nothing else: where nothing
is wrong it reaches the paths of the closure in their order (`Walk.depthFirst_eq`).
-/

namespace SheetBuild.Import.Graph

variable {g : Graph}

/-! ## Visits end -/

mutual

/-- With no bound on its depth, a visit of a path with a trail and a memo ends, and comes to this. -/
inductive VisitEnds (g : Graph) : List String → Memo → String → Visit → Prop where
  | circle {trail : List String} {memo : Memo} {p : String} (onTrail : p ∈ trail) :
      VisitEnds g trail memo p (.error (.cycle ⟨trail.dropWhile (· ≠ p) ++ [p]⟩), memo)
  | known {trail : List String} {memo : Memo} {p : String} {c : List String} (offTrail : p ∉ trail)
      (found : memo.lookup p = some c) :
      VisitEnds g trail memo p (.ok c, memo)
  | problem {trail : List String} {memo : Memo} {p : String} {e : Problem} {es : List Problem}
      (offTrail : p ∉ trail) (new : memo.lookup p = none) (wrong : g.problems p = e :: es) :
      VisitEnds g trail memo p (.error (.problem e), memo)
  | failed {trail : List String} {memo memo' : Memo} {p : String} {e : ClosureError}
      (offTrail : p ∉ trail) (new : memo.lookup p = none) (clean : g.problems p = [])
      (down : VisitsEnd g (trail ++ [p]) memo [] (g.imports p) (.error e, memo')) :
      VisitEnds g trail memo p (.error e, memo')
  | answered {trail : List String} {memo memo' : Memo} {p : String} {c : List String}
      (offTrail : p ∉ trail) (new : memo.lookup p = none) (clean : g.problems p = [])
      (down : VisitsEnd g (trail ++ [p]) memo [] (g.imports p) (.ok c, memo')) :
      VisitEnds g trail memo p (.ok c, (p, c) :: memo')

/-- Visits of paths one after the other end, and come to this. -/
inductive VisitsEnd (g : Graph) :
    List String → Memo → List String → List String → Visit → Prop where
  | done {trail : List String} {memo : Memo} {acc : List String} :
      VisitsEnd g trail memo acc [] (.ok acc, memo)
  | failed {trail : List String} {memo memo' : Memo} {acc ps : List String} {p : String}
      {e : ClosureError} (first : VisitEnds g trail memo p (.error e, memo')) :
      VisitsEnd g trail memo acc (p :: ps) (.error e, memo')
  | next {trail : List String} {memo memo' : Memo} {acc ps reached : List String} {p : String}
      {v : Visit} (first : VisitEnds g trail memo p (.ok reached, memo'))
      (others : VisitsEnd g trail memo' (merge acc (p :: reached)) ps v) :
      VisitsEnd g trail memo acc (p :: ps) v

end

/-- Visits one after the other end when each of them does. -/
theorem visitsEnd_visitAll {trail : List String} {visit : Memo → String → Visit}
    {ps : List String} (h : ∀ memo, ∀ p ∈ ps, g.VisitEnds trail memo p (visit memo p))
    (memo : Memo) (acc : List String) :
    g.VisitsEnd trail memo acc ps (visitAll visit memo acc ps) := by
  induction ps generalizing memo acc with
  | nil => exact .done
  | cons p ps ih =>
    have hp := h memo p List.mem_cons_self
    unfold visitAll
    split
    · rename_i e memo' he
      rw [he] at hp
      exact .failed hp
    · rename_i reached memo' hr
      rw [hr] at hp
      exact .next hp (ih (fun memo q hq => h memo q (List.mem_cons_of_mem p hq)) _ _)

/-- A visit that has room for its trail ends, by induction on the room: each visit further down has a
trail that is longer by one file, and a trail does not hold more files than there are. -/
theorem visitEnds_visit : ∀ {fuel : Nat} {trail : List String}, g.OnTrail fuel trail →
    ∀ (memo : Memo) (p : String), g.VisitEnds trail memo p (g.visit fuel trail memo p)
  | 0, _, h => absurd h OnTrail.fuel_ne_zero
  | fuel + 1, trail, h => by
    intro memo p
    unfold visit
    by_cases ht : p ∈ trail
    · rw [if_pos (List.contains_iff_mem.2 ht)]
      exact .circle ht
    rw [if_neg (by simpa using ht)]
    cases hl : memo.lookup p with
    | some reached => exact .known ht hl
    | none =>
      cases hp : g.problems p with
      | cons e es => exact .problem ht hl hp
      | nil =>
        have hdown : ∀ memo, ∀ d ∈ g.imports p,
            g.VisitEnds (trail ++ [p]) memo d (g.visit fuel (trail ++ [p]) memo d) := by
          intro memo d hd
          have hpaths := mem_paths_of_imports_ne_nil (List.ne_nil_of_mem hd)
          exact visitEnds_visit (h.extend hpaths ht) memo d
        have hall := visitsEnd_visitAll hdown memo []
        generalize visitAll (g.visit fuel (trail ++ [p])) memo [] (g.imports p) = v at hall
        obtain ⟨answer, memo'⟩ := v
        cases answer with
        | error e => exact .failed ht hl hp hall
        | ok reached => exact .answered ht hl hp hall

/-! ## The traversal -/

/-- A depth-first traversal: `reached` holds the paths that it came to so far, in the order in which
it came to them, and the imports of a new path are gone through before what is pending. -/
def depthFirst (g : Graph) (reached : List String) : List String → List String
  | [] => reached
  | p :: pending =>
    if p ∈ reached then depthFirst g reached pending
    else depthFirst g (reached ++ [p]) (g.imports p ++ pending)
termination_by pending => ((g.paths.filter fun q => !reached.contains q).length, pending.length)
decreasing_by
  · exact Prod.Lex.right _ (by simp)
  · rename_i hnew
    have hsame : (g.paths.filter fun q => !(reached ++ [p]).contains q)
        = g.paths.filter fun q => !(p :: reached).contains q := by
      refine List.filter_congr fun q _ => ?_
      simp [or_comm]
    rw [hsame]
    by_cases hp : p ∈ g.paths
    · exact Prod.Lex.left _ _ (length_filter_cons_lt hp hnew)
    · have hleaf : g.imports p = [] := by
        by_contra hne
        exact hp (mem_paths_of_imports_ne_nil hne)
      have hkept : (g.paths.filter fun q => !(p :: reached).contains q)
          = g.paths.filter fun q => !reached.contains q := by
        refine List.filter_congr fun q hq => ?_
        have hqp : q ≠ p := fun h => hp (h ▸ hq)
        simp [hqp]
      rw [hkept, hleaf]
      exact Prod.Lex.right _ (by simp)

theorem depthFirst_of_mem {reached : List String} {p : String} (h : p ∈ reached)
    (pending : List String) : g.depthFirst reached (p :: pending) = g.depthFirst reached pending := by
  rw [depthFirst, if_pos h]

theorem depthFirst_of_not_mem {reached : List String} {p : String} (h : p ∉ reached)
    (pending : List String) :
    g.depthFirst reached (p :: pending)
      = g.depthFirst (reached ++ [p]) (g.imports p ++ pending) := by
  rw [depthFirst, if_neg h]

/-- Among the paths of `region`, the traversal is through with those that it came to: it also came to
everything that they reach. -/
def Through (g : Graph) (reached region : List String) : Prop :=
  ∀ p ∈ reached, p ∈ region → ∀ q, g.Reaches p q → q ∈ reached

theorem Through.of_subset {reached region region' : List String} (h : g.Through reached region)
    (hsub : ∀ p ∈ region', p ∈ region) : g.Through reached region' :=
  fun p hp hregion => h p hp (hsub p hregion)

/-- After a file and what its walk finds, the traversal is still through. -/
theorem Through.merge_walk {reached region : List String} {p : String} {c : List String}
    (h : g.Through reached region) (hwalk : g.Walk p c) :
    g.Through (merge reached (p :: c)) region := by
  intro q hq hregion r hr
  rw [mem_merge] at hq ⊢
  rcases hq with hq | hq
  · exact .inl (h q hq hregion r hr)
  · refine .inr (List.mem_cons_of_mem p (hwalk.mem_of_reaches ?_))
    rcases List.mem_cons.1 hq with rfl | hq
    · exact hr
    · exact Relation.TransGen.trans (hwalk.reaches_of_mem hq) hr

/-- The traversal goes through paths one after the other as it goes through each. -/
theorem depthFirst_append {ds : List String} {below : String → List String}
    (hstep : ∀ d ∈ ds, ∀ reached pending, g.Through reached (d :: below d) →
      g.depthFirst reached (d :: pending) = g.depthFirst (merge reached (d :: below d)) pending)
    (hwalk : ∀ d ∈ ds, g.Walk d (below d)) (reached pending : List String)
    (h : g.Through reached (ds.flatMap fun d => d :: below d)) :
    g.depthFirst reached (ds ++ pending)
      = g.depthFirst (merge reached (ds.flatMap fun d => d :: below d)) pending := by
  induction ds generalizing reached with
  | nil => rfl
  | cons d ds ih =>
    have hfirst : g.Through reached (d :: below d) :=
      h.of_subset fun p hp => List.mem_flatMap.2 ⟨d, List.mem_cons_self, hp⟩
    have hothers : g.Through reached (ds.flatMap fun d => d :: below d) :=
      h.of_subset fun p hp => by
        obtain ⟨d', hd', hp⟩ := List.mem_flatMap.1 hp
        exact List.mem_flatMap.2 ⟨d', List.mem_cons_of_mem d hd', hp⟩
    rw [List.cons_append, hstep d List.mem_cons_self _ _ hfirst, List.flatMap_cons, merge_append]
    refine ih (fun d' hd' => hstep d' (List.mem_cons_of_mem d hd'))
      (fun d' hd' => hwalk d' (List.mem_cons_of_mem d hd')) _ ?_
    exact hothers.merge_walk (hwalk d List.mem_cons_self)

namespace Walk

variable {p : String} {c : List String}

/-- The traversal adds a path and what the walk from it finds, less what it came to before.  A path
that is met again is no file on the way to it, since a walk does not come back to its start; so the
traversal is through with it, and may leave out everything below. -/
theorem depthFirst_cons (h : g.Walk p c) (reached pending : List String)
    (hthrough : g.Through reached (p :: c)) :
    g.depthFirst reached (p :: pending) = g.depthFirst (merge reached (p :: c)) pending := by
  induction h generalizing reached pending with
  | @node p below clean down ih =>
    have hwalk : g.Walk p ((g.imports p).flatMap fun d => d :: below d).eraseDups :=
      .node below clean down
    by_cases hp : p ∈ reached
    · have hthere : ∀ q ∈ p :: ((g.imports p).flatMap fun d => d :: below d).eraseDups,
          q ∈ reached := by
        intro q hq
        rcases List.mem_cons.1 hq with rfl | hq
        · exact hp
        · exact hthrough p hp List.mem_cons_self q (hwalk.reaches_of_mem hq)
      rw [depthFirst_of_mem hp, merge_of_subset hthere]
    · have hbelow : g.Through (reached ++ [p]) ((g.imports p).flatMap fun d => d :: below d) := by
        intro q hq hregion r hr
        rw [← List.mem_eraseDups] at hregion
        rcases List.mem_append.1 hq with hq | hq
        · exact List.mem_append_left _ (hthrough q hq (List.mem_cons_of_mem p hregion) r hr)
        · obtain rfl := List.mem_singleton.1 hq
          exact absurd hregion hwalk.not_mem_self
      rw [depthFirst_of_not_mem hp, depthFirst_append ih down _ _ hbelow, merge_cons, if_neg hp,
        merge_eraseDups]

/-- The traversal from a path that has a walk comes to the path and then to what the walk finds, in
its order. -/
theorem depthFirst_eq (h : g.Walk p c) : g.depthFirst [] [p] = p :: c := by
  have hself : (c.filter fun q => !q == p) = c := by
    refine List.filter_eq_self.2 fun q hq => ?_
    have hqp : q ≠ p := fun heq => h.not_mem_self (heq ▸ hq)
    simp [hqp]
  rw [h.depthFirst_cons [] [] (by simp [Through]), merge_nil, List.eraseDups_cons, hself,
    h.eraseDups_eq, depthFirst]

end Walk

/-! ## Closures -/

/-- What the closure of a path is, whatever was asked of the graph before.  The query ends; it is
answered exactly when nothing is wrong with the path and with what it reaches; and then it gives
every file that the path reaches, once, without the path itself, in the order in which a depth-first
traversal comes to them. -/
theorem closure_lists_reached {files : FileSet} {includePaths : List String} {g : Graph}
    (hg : g = ofFiles files includePaths) {memo : Memo} (hm : g.Asked memo) (e : String) :
    g.VisitEnds [] memo e (g.closure memo e) ∧
      ((∃ c, (g.closure memo e).1 = .ok c) ↔ g.Orderly e) ∧
      ∀ c, (g.closure memo e).1 = .ok c →
        (∀ q, q ∈ c ↔ g.Reaches e q) ∧ c.Nodup ∧ e ∉ c ∧ (∀ q ∈ c, q ∈ g.paths) ∧
          g.depthFirst [] [e] = e :: c := by
  subst hg
  refine ⟨visitEnds_visit (OnTrail.nil _) memo e, ?_, ?_⟩
  · simp only [closure_eq_ok_iff hm, exists_walk_iff_orderly]
  · intro c hc
    have hwalk := (closure_eq_ok_iff hm).1 hc
    have hfiles : ∀ q ∈ c, q ∈ (ofFiles files includePaths).paths := by
      intro q hq
      obtain ⟨f, hf⟩ := hwalk.exists_file hq
      obtain ⟨hmem, rfl⟩ := FileSet.mem_of_get? hf
      rw [paths_ofFiles]
      exact List.mem_map_of_mem hmem
    exact ⟨fun q => hwalk.mem_iff_reaches, hwalk.nodup, hwalk.not_mem_self, hfiles,
      hwalk.depthFirst_eq⟩

/-- Two ways from one sheet to another, and a sheet that imports itself on its way to the first. -/
def diamond : FileSet :=
  .ofList [.ofText "a.scss" "@import 'b', 'c'", .ofText "b.scss" "@import 'd'",
    .ofText "c.scss" "@import 'd', 'b'", .ofText "d.scss" "",
    .ofText "loop.scss" "@import 'c', 'loop', 'a'"]

/-- The closures known after the query of the sheet that imports itself. -/
def afterLoop : Memo := ((ofFiles diamond []).closure [] "loop.scss").2

/-- After a query that failed, the closure of the first sheet is what the traversal comes to. -/
theorem closure_diamond :
    (ofFiles diamond []).Asked afterLoop ∧
      afterLoop.map (·.1) = ["c.scss", "b.scss", "d.scss"] ∧
      (ofFiles diamond []).Orderly "a.scss" ∧ ¬ (ofFiles diamond []).Orderly "loop.scss" ∧
      (∀ q, q ∈ ["b.scss", "d.scss", "c.scss"] ↔ (ofFiles diamond []).Reaches "a.scss" q) ∧
      (ofFiles diamond []).depthFirst [] ["a.scss"]
        = ["a.scss", "b.scss", "d.scss", "c.scss"] := by
  have hasked : (ofFiles diamond []).Asked afterLoop := .more .nothing "loop.scss"
  have hclosure : ((ofFiles diamond []).closure afterLoop "a.scss").1
      = .ok ["b.scss", "d.scss", "c.scss"] := by decide +kernel
  obtain ⟨-, horderly, hlists⟩ := closure_lists_reached rfl hasked "a.scss"
  obtain ⟨-, hloop, -⟩ := closure_lists_reached rfl hasked "loop.scss"
  obtain ⟨hreached, -, -, -, hfirst⟩ := hlists _ hclosure
  refine ⟨hasked, by decide +kernel, horderly.1 ⟨_, hclosure⟩, ?_, hreached, hfirst⟩
  rw [← hloop]
  rintro ⟨c, hc⟩
  have herror : ((ofFiles diamond []).closure afterLoop "loop.scss").1
      = .error (.cycle ⟨["loop.scss", "loop.scss"]⟩) := by decide +kernel
  rw [herror] at hc
  exact absurd hc (by simp)

end SheetBuild.Import.Graph
