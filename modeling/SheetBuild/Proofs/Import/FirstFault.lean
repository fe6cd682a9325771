import Mathlib.Data.List.Chain
import SheetBuild.Proofs.Import.Files
import SheetBuild.Proofs.Import.Queries
set_option autoImplicit false

/-!
# The first fault

Why an entry has no closure, against a traversal that keeps nothing but the path it is on.  `Graph.next`
takes the targets of a file one after the other, checks each against the current path, and then looks
at the problems of the file before it enters it.  Whatever was asked of the graph before, a query fails
with the fault that this traversal comes to first, and what it reports is there in the graph
(`closure_reports_first_fault`).
-/

namespace SheetBuild.Import.Graph

variable {g : Graph}

/-! ## The traversal -/

/-- A file on the current path of a traversal, with the targets in it that are still to be taken. -/
structure Frame where
  file : String
  left : List String
  deriving DecidableEq, Repr

/-- The current path, from the file that was entered first to the one that was entered last. -/
def currentPath (s : List Frame) : List String := (s.map (·.file)).reverse

/-- What a traversal comes to. -/
inductive Stage where
  | fault (e : ClosureError)
  /-- it stands in files, the one that was entered last at the front -/
  | inside (s : List Frame)
  | finished
  deriving DecidableEq, Repr

/-- Enters a file, unless a problem is recorded for it. -/
def enter (g : Graph) (s : List Frame) (p : String) : Stage :=
  match g.problems p with
  | e :: _ => .fault (.problem e)
  | [] => .inside (⟨p, g.imports p⟩ :: s)

/-- Takes a target: on the current path it closes a circle, elsewhere it is entered. -/
def take (g : Graph) (s : List Frame) (d : String) : Stage :=
  if d ∈ currentPath s then .fault (.cycle ⟨(currentPath s).dropWhile (· ≠ d) ++ [d]⟩)
  else g.enter s d

/-- Takes the next target of the file that was entered last, or leaves that file. -/
def next (g : Graph) : List Frame → Stage
  | [] => .finished
  | ⟨_, []⟩ :: s => .inside s
  | ⟨p, d :: ds⟩ :: s => g.take (⟨p, ds⟩ :: s) d

/-- A traversal goes on to a fault.  It stops there, so that is the first that it meets. -/
inductive Meets (g : Graph) : Stage → ClosureError → Prop where
  | here (e : ClosureError) : Meets g (.fault e) e
  | later {s : List Frame} {e : ClosureError} (h : Meets g (g.next s) e) : Meets g (.inside s) e

@[simp] theorem meets_inside {s : List Frame} {e : ClosureError} :
    g.Meets (.inside s) e ↔ g.Meets (g.next s) e :=
  ⟨fun h => by cases h with | later h => exact h, .later⟩

@[simp] theorem not_meets_finished {e : ClosureError} : ¬ g.Meets .finished e := by
  intro h
  cases h

/-- A traversal meets one first fault. -/
theorem Meets.unique {stage : Stage} {e e' : ClosureError} (h : g.Meets stage e)
    (h' : g.Meets stage e') : e = e' := by
  induction h with
  | here e => cases h' with | here => rfl
  | later _ ih => exact ih (meets_inside.1 h')

@[simp] theorem currentPath_cons (p : String) (ds : List String) (s : List Frame) :
    currentPath (⟨p, ds⟩ :: s) = currentPath s ++ [p] := by
  simp [currentPath]

theorem take_of_not_mem {s : List Frame} {d : String} (h : d ∉ currentPath s) :
    g.take s d = g.enter s d := if_neg h

theorem enter_of_clean {s : List Frame} {p : String} (h : g.problems p = []) :
    g.enter s p = .inside (⟨p, g.imports p⟩ :: s) := by
  rw [enter, h]

/-- From a member of a list on, what is left of the list begins with it. -/
theorem exists_dropWhile_eq_cons {p : String} {ps : List String} (h : p ∈ ps) :
    ∃ others, ps.dropWhile (· ≠ p) = p :: others := by
  induction ps with
  | nil => exact absurd h List.not_mem_nil
  | cons q ps ih =>
    by_cases hq : q = p
    · exact ⟨ps, by simp [hq]⟩
    · have hp : p ∈ ps := (List.mem_cons.1 h).resolve_left fun h => hq h.symm
      obtain ⟨others, hothers⟩ := ih hp
      exact ⟨others, by simpa [hq] using hothers⟩

/-! ## Faults are genuine -/

/-- A fault that is there in the graph, at the start of a traversal or where the start leads to. -/
inductive Genuine (g : Graph) (start : String) : ClosureError → Prop where
  | cycle {q : String} {others : List String} (once : (q :: others).Nodup)
      (edges : (q :: others ++ [q]).IsChain fun a b => b ∈ g.imports a)
      (reached : ∀ r ∈ q :: others, r = start ∨ g.Reaches start r) :
      Genuine g start (.cycle ⟨q :: others ++ [q]⟩)
  | problem {q : String} {e : Problem} {es : List Problem} (reached : q = start ∨ g.Reaches start q)
      (recorded : g.problems q = e :: es) : Genuine g start (.problem e)

/-- Where a traversal can stand: on a path of imports from its start that does not come back to a
file, with targets left that the files import. -/
structure OnCourse (g : Graph) (start : String) (s : List Frame) : Prop where
  once : (currentPath s).Nodup
  edges : (currentPath s).IsChain fun a b => b ∈ g.imports a
  reached : ∀ p ∈ currentPath s, p = start ∨ g.Reaches start p
  left : ∀ f ∈ s, ∀ d ∈ f.left, d ∈ g.imports f.file

/-- What a traversal can come to. -/
def Rightly (g : Graph) (start : String) : Stage → Prop
  | .fault e => g.Genuine start e
  | .inside s => g.OnCourse start s
  | .finished => True

theorem OnCourse.nothing (g : Graph) (start : String) : g.OnCourse start [] where
  once := List.nodup_nil
  edges := .nil
  reached := by simp [currentPath]
  left := by simp

/-- A file may be entered that extends the current path. -/
theorem OnCourse.enter {start p : String} {s : List Frame} (h : g.OnCourse start s)
    (hnew : p ∉ currentPath s) (hedge : (currentPath s ++ [p]).IsChain fun a b => b ∈ g.imports a)
    (hreached : p = start ∨ g.Reaches start p) : g.Rightly start (g.enter s p) := by
  unfold Graph.enter
  split
  · rename_i e es hproblems
    exact .problem hreached hproblems
  · refine ⟨?_, by simpa using hedge, ?_, ?_⟩
    · rw [currentPath_cons]
      exact (List.perm_append_singleton p _).nodup_iff.2 (List.nodup_cons.2 ⟨hnew, h.once⟩)
    · intro q hq
      rw [currentPath_cons, List.mem_append, List.mem_singleton] at hq
      rcases hq with hq | rfl
      · exact h.reached q hq
      · exact hreached
    · intro f hf
      rcases List.mem_cons.1 hf with rfl | hf
      · exact fun d hd => hd
      · exact h.left f hf

/-- A target of the file that was entered last closes a circle of the graph, or may be entered. -/
theorem OnCourse.take {start p d : String} {ds : List String} {s : List Frame}
    (h : g.OnCourse start (⟨p, ds⟩ :: s)) (hd : d ∈ g.imports p) :
    g.Rightly start (g.take (⟨p, ds⟩ :: s) d) := by
  have hedge : (currentPath (⟨p, ds⟩ :: s) ++ [d]).IsChain fun a b => b ∈ g.imports a := by
    refine h.edges.append (.singleton d) ?_
    simp [hd]
  have hreached : g.Reaches start d := by
    rcases h.reached p (by simp) with rfl | hp
    · exact .of_mem_imports hd
    · exact Relation.TransGen.tail hp hd
  unfold Graph.take
  split
  · rename_i hmem
    -- the circle is the rest of the current path from the target on
    obtain ⟨others, hrest⟩ := exists_dropWhile_eq_cons hmem
    obtain ⟨front, hpath⟩ := List.dropWhile_suffix (l := currentPath (⟨p, ds⟩ :: s)) (· ≠ d)
    rw [hrest] at hpath ⊢
    refine .cycle ?_ ?_ ?_
    · exact (List.nodup_append.1 (hpath ▸ h.once)).2.1
    · rw [← hpath, List.append_assoc] at hedge
      exact hedge.right_of_append
    · intro r hr
      exact h.reached r (hpath ▸ List.mem_append_right front hr)
  · rename_i hnew
    exact h.enter hnew hedge (.inr hreached)

/-- What a traversal that is on course comes to next. -/
theorem OnCourse.next {start : String} {s : List Frame} (h : g.OnCourse start s) :
    g.Rightly start (g.next s) := by
  cases s with
  | nil => trivial
  | cons f s =>
    obtain ⟨p, left⟩ := f
    cases left with
    | nil =>
      have honce := h.once
      have hedges := h.edges
      rw [currentPath_cons] at honce hedges
      exact ⟨(List.nodup_append.1 honce).1, hedges.left_of_append,
        fun q hq => h.reached q (by simp [hq]), fun f hf => h.left f (List.mem_cons_of_mem _ hf)⟩
    | cons d ds =>
      have hall := h.left ⟨p, d :: ds⟩ List.mem_cons_self
      have htaken : g.OnCourse start (⟨p, ds⟩ :: s) := by
        refine ⟨by simpa using h.once, by simpa using h.edges, by simpa using h.reached, ?_⟩
        intro f hf
        rcases List.mem_cons.1 hf with rfl | hf
        · exact fun d hd => hall d (List.mem_cons_of_mem _ hd)
        · exact h.left f (List.mem_cons_of_mem _ hf)
      exact htaken.take (hall d List.mem_cons_self)

/-- The fault that a traversal meets is there in the graph. -/
theorem Meets.genuine {start : String} {stage : Stage} {e : ClosureError} (h : g.Meets stage e)
    (hstage : g.Rightly start stage) : g.Genuine start e := by
  induction h with
  | here e => exact hstage
  | later _ ih => exact ih (OnCourse.next hstage)

/-- So is the one that a traversal from a file meets first. -/
theorem genuine_of_meets {start : String} {e : ClosureError} (h : g.Meets (g.enter [] start) e) :
    g.Genuine start e := by
  refine h.genuine ((OnCourse.nothing g start).enter ?_ ?_ (.inl rfl))
  · simp [currentPath]
  · exact .singleton start

/-! ## Visits and the traversal -/

/-- Targets that the traversal passes one by one it passes one after the other. -/
theorem meets_next_append {p : String} {s : List Frame} {e : ClosureError} {ds : List String}
    (hds : ∀ d ∈ ds, ∀ rest,
      g.Meets (g.take (⟨p, rest⟩ :: s) d) e ↔ g.Meets (g.next (⟨p, rest⟩ :: s)) e)
    (rest : List String) :
    g.Meets (g.next (⟨p, ds ++ rest⟩ :: s)) e ↔ g.Meets (g.next (⟨p, rest⟩ :: s)) e := by
  induction ds with
  | nil => rfl
  | cons d ds ih =>
    have hothers := ih fun d' hd' => hds d' (List.mem_cons_of_mem d hd')
    exact (hds d List.mem_cons_self (ds ++ rest)).trans hothers

/-- The traversal passes a target that has a walk off the current path: it goes through all that is
below the target and comes back without a fault. -/
theorem Walk.meets_take {p : String} {c : List String} (h : g.Walk p c) (s : List Frame)
    (hoff : ∀ q ∈ currentPath s, q ∉ p :: c) (e : ClosureError) :
    g.Meets (g.take s p) e ↔ g.Meets (g.next s) e := by
  induction h generalizing s with
  | @node p below clean down ih =>
    have hwalk : g.Walk p _ := .node below clean down
    have hnew : p ∉ currentPath s := fun hp => hoff p hp List.mem_cons_self
    have hdown : ∀ d ∈ g.imports p, ∀ rest,
        g.Meets (g.take (⟨p, rest⟩ :: s) d) e ↔ g.Meets (g.next (⟨p, rest⟩ :: s)) e := by
      intro d hd rest
      refine ih d hd (⟨p, rest⟩ :: s) ?_
      rw [currentPath_cons]
      exact hwalk.off_below hoff hd (down d hd)
    have hthrough := meets_next_append hdown []
    rw [List.append_nil] at hthrough
    rw [take_of_not_mem hnew, enter_of_clean clean, meets_inside, hthrough, next, meets_inside]

/-- Where visiting paths one after the other fails, it fails at one of them, with a memo that is still
sound, and those before it have walks. -/
theorem Faithful.exists_of_visitAll_error {trail : List String} {visit : Memo → String → Visit}
    (hv : g.Faithful trail visit) {memo : Memo} (hm : g.Sound memo) {acc ps : List String}
    {e : ClosureError} (h : (visitAll visit memo acc ps).1 = .error e) :
    ∃ front d back memo', ps = front ++ d :: back ∧ (∀ q ∈ front, ∃ c, g.Walk q c) ∧
      g.Sound memo' ∧ (visit memo' d).1 = .error e := by
  induction ps generalizing memo acc with
  | nil => exact absurd h (by simp [visitAll])
  | cons p ps ih =>
    have hs := hv.sound memo p hm
    unfold visitAll at h
    split at h
    · rename_i e' memo' he
      exact ⟨[], p, ps, memo, rfl, by simp, hm, by rw [he]; exact h⟩
    · rename_i reached memo' hr
      rw [hr] at hs
      have hwalk := hv.walk memo p reached hm (by rw [hr])
      obtain ⟨front, d, back, memo'', rfl, hfront, hm'', hd⟩ := ih hs h
      refine ⟨p :: front, d, back, memo'', rfl, ?_, hm'', hd⟩
      exact List.forall_mem_cons.2 ⟨⟨reached, hwalk⟩, hfront⟩

/-- A visit that fails does so with the fault that the traversal meets first when it takes the path: by
induction on the room for the trail.  Whether the imports before the one that fails are remembered or
visited, the traversal passes them. -/
theorem meets_of_visit : ∀ {fuel : Nat} {trail : List String}, g.OnTrail fuel trail →
    ∀ (s : List Frame), currentPath s = trail → ∀ p : String, (∀ q ∈ trail, g.Reaches q p) →
    ∀ (memo : Memo), g.Sound memo → ∀ e : ClosureError,
      (g.visit fuel trail memo p).1 = .error e → g.Meets (g.take s p) e
  | 0, _, h => absurd h OnTrail.fuel_ne_zero
  | fuel + 1, trail, h => by
    intro s hpath p hleads memo hm e he
    by_cases ht : p ∈ trail
    · rw [visit, if_pos (List.contains_iff_mem.2 ht)] at he
      obtain rfl := Except.error.inj he
      rw [take, hpath, if_pos ht]
      exact .here _
    have hnew : p ∉ currentPath s := hpath ▸ ht
    cases hl : memo.lookup p with
    | some reached =>
      rw [visit, if_neg (by simpa using ht), hl] at he
      exact absurd he (by simp)
    | none =>
      rw [visit_of_new ht hl] at he
      cases hproblems : g.problems p with
      | cons e' es =>
        rw [hproblems] at he
        obtain rfl := Except.error.inj he
        rw [take_of_not_mem hnew, enter, hproblems]
        exact .here _
      | nil =>
        rw [hproblems] at he
        have hsome : g.imports p ≠ [] := by
          intro hnone
          rw [hnone] at he
          exact absurd he (by simp [visitAll])
        have hroom := h.extend (mem_paths_of_imports_ne_nil hsome) ht
        obtain ⟨front, d, back, memo', himports, hfront, hm', hd⟩ :=
          (faithful_visit hroom).exists_of_visitAll_error hm he
        have hbelow : ∀ d' ∈ g.imports p, ∀ q ∈ trail ++ [p], g.Reaches q d' := by
          intro d' hd' q hq
          rcases List.mem_append.1 hq with hq | hq
          · exact Relation.TransGen.tail (hleads q hq) hd'
          · exact List.mem_singleton.1 hq ▸ .of_mem_imports hd'
        have hpath' : ∀ rest, currentPath (⟨p, rest⟩ :: s) = trail ++ [p] := fun rest => by
          rw [currentPath_cons, hpath]
        have hd' := meets_of_visit hroom (⟨p, back⟩ :: s) (hpath' back) d
          (hbelow d (by simp [himports])) memo' hm' e hd
        rw [take_of_not_mem hnew, enter_of_clean hproblems, meets_inside, himports,
          meets_next_append ?_ (d :: back)]
        · exact hd'
        · intro q hq rest
          obtain ⟨c, hc⟩ := hfront q hq
          refine hc.meets_take _ ?_ e
          rw [hpath' rest]
          exact hc.off_trail (hbelow q (by simp [himports, hq]))

/-! ## Closures -/

/-- Why a file has no closure, whatever was asked of the graph before.  A circle starts and ends with one
file, holds no other file twice, goes from import to import, can be reached, and is reported for its
first file; a problem is the first of a file that can be reached; and either is the first fault that a
depth-first traversal from the file meets. -/
theorem closure_reports_first_fault {memo : Memo} (hm : g.Asked memo) (start : String) :
    (∀ e, (g.closure memo start).1 = .error e ↔ g.Meets (g.enter [] start) e) ∧
      (∀ c, (g.closure memo start).1 = .error (.cycle c) → ∃ q others, c.paths = q :: others ++ [q] ∧
        (q :: others).Nodup ∧ c.paths.IsChain (fun a b => b ∈ g.imports a) ∧
        (∀ r ∈ c.paths, r = start ∨ g.Reaches start r) ∧ c.diagnostic.sourceFile = some q) ∧
      ∀ p, (g.closure memo start).1 = .error (.problem p) →
        ∃ q, (q = start ∨ g.Reaches start q) ∧ (g.problems q).head? = some p := by
  have htake : g.take [] start = g.enter [] start := take_of_not_mem (by simp [currentPath])
  have hmeets : ∀ e, (g.closure memo start).1 = .error e → g.Meets (g.enter [] start) e := fun e he =>
    htake ▸ meets_of_visit (OnTrail.nil g) [] rfl start (by simp) memo hm.sound e he
  refine ⟨fun e => ⟨hmeets e, ?_⟩, ?_, ?_⟩
  · intro h
    cases hc : (g.closure memo start).1 with
    | error e' => rw [(hmeets e' hc).unique h]
    | ok c =>
      have hwalk := (closure_eq_ok_iff hm).1 hc
      rw [← htake, hwalk.meets_take [] (by simp [currentPath])] at h
      exact absurd h not_meets_finished
  · intro c hc
    cases genuine_of_meets (hmeets _ hc) with
    | @cycle q others once edges reached =>
      refine ⟨q, others, rfl, once, edges, ?_, rfl⟩
      intro r hr
      rcases List.mem_append.1 hr with hr | hr
      · exact reached r hr
      · exact reached r (List.mem_singleton.1 hr ▸ List.mem_cons_self)
  · intro p hp
    cases genuine_of_meets (hmeets _ hp) with
    | @problem q _ es reached recorded => exact ⟨q, reached, by rw [recorded, List.head?_cons]⟩

/-- Two sheets that import each other behind one that does not, and a sheet with two imports that are
not there in front of them. -/
def knot : FileSet :=
  .ofList [.ofText "a.scss" "@import 'd', 'b'", .ofText "b.scss" "@import 'c'",
    .ofText "c.scss" "@import 'd', 'b', 'e'", .ofText "d.scss" "",
    .ofText "e.scss" "@import 'b', 'gone', 'lost'", .ofText "x.scss" "@import 'd', 'e', 'a'"]

/-- The closures known after a query that failed. -/
def afterKnot : Memo := ((ofFiles knot []).closure [] "c.scss").2

/-- One entry comes to the circle first, which does not lead through it, the other to the problem. -/
theorem closure_knot :
    (ofFiles knot []).Asked afterKnot ∧ afterKnot.map (·.1) = ["d.scss"] ∧
      (ofFiles knot []).Meets ((ofFiles knot []).enter [] "a.scss")
        (.cycle ⟨["b.scss", "c.scss", "b.scss"]⟩) ∧
      (∃ q others, ["b.scss", "c.scss", "b.scss"] = q :: others ++ [q] ∧ (q :: others).Nodup ∧
        ["b.scss", "c.scss", "b.scss"].IsChain (fun a b => b ∈ (ofFiles knot []).imports a) ∧
        ∀ r ∈ ["b.scss", "c.scss", "b.scss"],
          r = "a.scss" ∨ (ofFiles knot []).Reaches "a.scss" r) ∧
      ∃ q, (q = "x.scss" ∨ (ofFiles knot []).Reaches "x.scss" q) ∧
        ((ofFiles knot []).problems q).head?
          = some ⟨"gone", "e.scss", .notFound, some 1, some 14⟩ := by
  have hasked : (ofFiles knot []).Asked afterKnot := .more .nothing "c.scss"
  have hcircle : ((ofFiles knot []).closure afterKnot "a.scss").1
      = .error (.cycle ⟨["b.scss", "c.scss", "b.scss"]⟩) := by decide +kernel
  have hproblem : ((ofFiles knot []).closure afterKnot "x.scss").1
      = .error (.problem ⟨"gone", "e.scss", .notFound, some 1, some 14⟩) := by decide +kernel
  obtain ⟨hmeets, hcycles, -⟩ := closure_reports_first_fault hasked "a.scss"
  obtain ⟨-, -, hproblems⟩ := closure_reports_first_fault hasked "x.scss"
  obtain ⟨q, others, hpaths, honce, hedges, hreached, -⟩ := hcycles _ hcircle
  exact ⟨hasked, by decide +kernel, (hmeets _).1 hcircle, ⟨q, others, hpaths, honce, hedges, hreached⟩,
    hproblems _ hproblem⟩

end SheetBuild.Import.Graph
