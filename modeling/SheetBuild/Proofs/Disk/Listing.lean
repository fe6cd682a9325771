import Mathlib.Data.List.Nodup
import SheetBuild.Disk.Tree
import SheetBuild.Proofs.Path.Canonical
set_option autoImplicit false

/-!
# What is listed below a directory

On a disk every place is there once, and every name on the way to it names something in the directory it
stands in.  The files that are listed below a directory of such a tree are those that are there, each
once.
-/

namespace SheetBuild.Disk

namespace Place

/-- A name that a directory can hold. -/
def IsDiskName (name : String) : Prop := Path.IsName name.toList ∧ '/' ∉ name.toList

instance (name : String) : Decidable (IsDiskName name) := inferInstanceAs (Decidable (_ ∧ _))

/-- The text of names is that of their segments. -/
theorem toList_intercalate_slash (names : List String) :
    (String.intercalate "/" names).toList = Path.joinSegments (names.map String.toList) := by
  induction names with
  | nil => rfl
  | cons n names ih =>
    cases names with
    | nil => rw [String.intercalate_singleton]; rfl
    | cons n' names =>
      rw [String.intercalate_cons_cons, String.toList_append, String.toList_append, ih,
        List.append_assoc]
      rfl

theorem segments_intercalate {names : List String} (hne : names ≠ [])
    (h : ∀ n ∈ names, '/' ∉ n.toList) :
    Path.segments (String.intercalate "/" names).toList = names.map String.toList := by
  rw [toList_intercalate_slash]
  refine Path.segments_joinSegments (by simpa using hne) ?_
  simpa using h

end Place

namespace Tree

/-- A tree as a disk has it. -/
structure Orderly (t : Tree) : Prop where
  distinct : (t.nodes.map (·.1)).Nodup
  named : ∀ e ∈ t.nodes, ∀ name ∈ e.1, Place.IsDiskName name

variable {t : Tree} {base rel p : Place} {n : Node} {content : Bytes}

theorem Orderly.node?_eq_some_iff (h : t.Orderly) (hp : p ≠ []) :
    t.node? p = some n ↔ (p, n) ∈ t.nodes := by
  rw [node?, if_neg hp, List.lookup_eq_some_iff]
  constructor
  · rintro ⟨front, back, heq, -⟩
    rw [heq]
    simp
  · intro hmem
    obtain ⟨front, back, heq⟩ := List.append_of_mem hmem
    refine ⟨front, back, heq, fun e he => ?_⟩
    have hdistinct := h.distinct
    rw [heq, List.map_append, List.nodup_append] at hdistinct
    have hne := hdistinct.2.2 e.1 (List.mem_map_of_mem he) p (by simp)
    simpa using hne.symm

/-- What a node is listed as below a directory. -/
theorem listed_eq_some_iff : (match n with
      | .directory => none
      | .file content => if p.isBelow base then some (p.drop base.length, content) else none)
        = some (rel, content) ↔
    rel ≠ [] ∧ p = base ++ rel ∧ n = .file content := by
  cases n with
  | directory => simp
  | file content' =>
    by_cases hbelow : p.isBelow base = true
    · obtain ⟨name, names, rfl⟩ := Place.isBelow_iff.1 hbelow
      simp only [hbelow, if_true, List.drop_left, Option.some.injEq, Prod.mk.injEq,
        List.append_cancel_left_eq, Node.file.injEq]
      constructor
      · rintro ⟨rfl, rfl⟩
        exact ⟨by simp, rfl, rfl⟩
      · rintro ⟨-, rfl, rfl⟩
        exact ⟨rfl, rfl⟩
    · refine iff_of_false (by simp [hbelow]) ?_
      rintro ⟨hne, rfl, -⟩
      obtain ⟨name, names, rfl⟩ := List.exists_cons_of_ne_nil hne
      exact hbelow (Place.isBelow_iff.2 ⟨name, names, rfl⟩)

/-- The files that are listed below a directory are those that are there. -/
theorem Orderly.mem_filesBelow_iff (h : t.Orderly) : (rel, content) ∈ t.filesBelow base ↔
    rel ≠ [] ∧ t.node? (base ++ rel) = some (.file content) := by
  rw [filesBelow, List.mem_filterMap]
  constructor
  · rintro ⟨⟨p, n⟩, hmem, hlisted⟩
    obtain ⟨hne, rfl, rfl⟩ := listed_eq_some_iff.1 hlisted
    exact ⟨hne, (h.node?_eq_some_iff (by simp [hne])).2 hmem⟩
  · rintro ⟨hne, hfile⟩
    exact ⟨_, (h.node?_eq_some_iff (by simp [hne])).1 hfile, listed_eq_some_iff.2 ⟨hne, rfl, rfl⟩⟩

/-- Nothing is listed twice. -/
theorem Orderly.nodup_filesBelow (h : t.Orderly) (base : Place) : (t.filesBelow base).Nodup := by
  refine List.Nodup.filterMap ?_ (List.Nodup.of_map _ h.distinct)
  rintro ⟨p, n⟩ ⟨p', n'⟩ ⟨rel, content⟩ hlisted hlisted'
  obtain ⟨-, rfl, rfl⟩ := listed_eq_some_iff.1 hlisted
  obtain ⟨-, rfl, rfl⟩ := listed_eq_some_iff.1 hlisted'
  rfl

/-- The names on the way to a file are such as a directory can hold. -/
theorem Orderly.isDiskName_of_node? (h : t.Orderly) (hfile : t.node? p = some n) {name : String}
    (hname : name ∈ p) : Place.IsDiskName name := by
  have hp : p ≠ [] := List.ne_nil_of_mem hname
  exact h.named _ ((h.node?_eq_some_iff hp).1 hfile) name hname

end Tree

end SheetBuild.Disk
