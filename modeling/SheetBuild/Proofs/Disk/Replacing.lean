import Mathlib.Data.List.Nodup
import SheetBuild.Proofs.Disk.Growth
set_option autoImplicit false

/-!
# Files that are written as a whole

A file that is written to a temporary place beside it, and moved from there, is in the end a file that
was written at once: where the temporary place was free, nothing is left of it, also where the file
could not be moved (`replace_eq_write`).  Among more names than there are places in use one is free
(`exists_free`).
-/

namespace SheetBuild.Disk.Tree

variable {t : Tree} {p q : Place} {name other : String}

/-- What is put at a free place and taken away again leaves no trace. -/
theorem drop_put (h : t.node? q = none) (n : Node) : (t.put q n).drop (fun r => r = q) = t := by
  have hne : q ≠ [] := by
    rintro rfl
    simp at h
  simp only [node?, hne, if_false, List.lookup_eq_none_iff, bne_iff_ne] at h
  have hkeep : ∀ x ∈ t.nodes, ¬ x.1 = q := fun x hx heq => h x hx heq.symm
  have hall : t.nodes.filter (fun x => decide (x.1 ≠ q)) = t.nodes :=
    List.filter_eq_self.2 fun x hx => decide_eq_true (hkeep x hx)
  have hfree : t.nodes.filter (fun x => !decide (x.1 = q)) = t.nodes :=
    List.filter_eq_self.2 fun x hx => by simp [hkeep x hx]
  simp only [drop, put, hall, List.filter_cons, decide_true, Bool.not_true, Bool.false_eq_true,
    if_false, hfree]

/-- Two names in one directory are out of reach for the same reason. -/
theorem locate_eq_error_of_beside {e : FileError} (hup : name ≠ Place.up)
    (hname : Place.isNameable name = true) (hother : Place.isNameable other = true)
    (h : t.locate (p ++ [name]) = .error e) :
    t.locate (p ++ [other]) = .error e := by
  simp only [locate, List.all_append, List.all_cons, List.all_nil, hname, hother, Bool.and_true]
    at h ⊢
  split at h
  · rename_i hall
    rw [if_pos hall]
    rw [follow_append] at h ⊢
    cases hf : t.follow [] p with
    | error e' =>
      rw [hf] at h
      exact h
    | ok r =>
      rw [hf] at h
      simp only [Except.bind, follow] at h ⊢
      cases hn : t.node? r with
      | none => simpa [hn] using h
      | some n =>
        cases n with
        | file content => simpa [hn] using h
        | directory => simp [hn, hup] at h
  · rename_i hall
    rwa [if_neg hall]

/-- Where the temporary place beside a file is free, writing the file through it is writing it. -/
theorem replace_eq_write (hup : name ≠ Place.up) (hname : Place.isNameable name = true)
    (hother : Place.isNameable other = true)
    (hfree : t.find? (p ++ [name]) = none) (content : Bytes) :
    t.replace (p ++ [name]) (p ++ [other]) content =
      match t.write (p ++ [other]) content with
      | .error e => (t, some e)
      | .ok t' => (t', none) := by
  cases hl : t.locate (p ++ [name]) with
  | error e =>
    have hl' := locate_eq_error_of_beside hup hname hother hl
    simp only [replace, write, hl, hl']
  | ok q =>
    have hnone : t.node? q = none := by simpa [find?, hl] using hfree
    have hkept : ∀ r, t.node? r = some .directory →
        (t.put q (.file content)).node? r = some .directory := by
      intro r hr
      rwa [node?_put_of_ne]
      rintro rfl
      rw [hnone] at hr
      exact absurd hr (by simp)
    have hl' : (t.put q (.file content)).locate (p ++ [name]) = .ok q := locate_mono hkept hl
    have hwritten : t.write (p ++ [name]) content = .ok (t.put q (.file content)) := by
      simp [write, hl, hnone]
    have hread : (t.put q (.file content)).read (p ++ [name]) = .ok content := by
      have hne : q ≠ [] := by
        rintro rfl
        simp at hnone
      simp only [read, hl', node?_put_self t _ hne]
    have hunlinked : (t.put q (.file content)).unlink (p ++ [name]) = t := by
      simp only [unlink, hl']
      exact drop_put hnone _
    cases hw : t.write (p ++ [other]) content with
    | error e => simp only [replace, hwritten, move, hread, hunlinked, hw]
    | ok t' => simp only [replace, hwritten, move, hread, hunlinked, hw]

/-- Of names that differ from each other, as many as there are places in use and one more are not all
in use. -/
theorem exists_free (t : Tree) (p : Place) {names : Nat → String} (hinj : Function.Injective names)
    (hup : ∀ n, names n ≠ Place.up) :
    ∃ n, n < t.nodes.length + 1 ∧ t.find? (p ++ [names n]) = none := by
  by_contra hall
  have hused : ∀ n, n < t.nodes.length + 1 → (p ++ [names n]).resolve ∈ t.nodes.map (·.1) := by
    intro n hn
    have hsome : t.find? (p ++ [names n]) ≠ none := fun hnone => hall ⟨n, hn, hnone⟩
    obtain ⟨node, hnode⟩ := Option.ne_none_iff_exists'.1 hsome
    unfold find? at hnode
    split at hnode
    · rename_i q hl
      obtain rfl := locate_eq_ok hl
      rw [node?, if_neg (by rw [Place.resolve_snoc (hup n)]; simp)] at hnode
      obtain ⟨front, back, heq, -⟩ := List.lookup_eq_some_iff.1 hnode
      rw [heq]
      simp
    · exact absurd hnode (by simp)
  have hnodup : ((List.range (t.nodes.length + 1)).map fun n => (p ++ [names n]).resolve).Nodup := by
    refine (List.nodup_map_iff_inj_on List.nodup_range).2 fun m _ n _ heq => ?_
    rw [Place.resolve_snoc (hup m), Place.resolve_snoc (hup n)] at heq
    exact hinj (by simpa using heq)
  have hsub : ((List.range (t.nodes.length + 1)).map fun n => (p ++ [names n]).resolve)
      ⊆ t.nodes.map (·.1) := by
    intro q hq
    obtain ⟨n, hn, rfl⟩ := List.mem_map.1 hq
    exact hused n (List.mem_range.1 hn)
  have hlength := hnodup.length_le_of_subset hsub
  rw [List.length_map, List.length_range, List.length_map] at hlength
  omega

end SheetBuild.Disk.Tree
