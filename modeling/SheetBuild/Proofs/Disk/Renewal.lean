import Mathlib.Data.List.Induction
import SheetBuild.Proofs.Disk.Growth
set_option autoImplicit false

/-!
# Directories that are removed and made again

Where no file is on the way that a path leads, a directory can be made there, and only directories
on the way are made for it (`Passable.make`).  So a directory with nothing below it in some tree is
removed and made again in every tree that is not in its way, whatever has come to stand below it
there (`removeDirectory_of_bare`, `Bare.make`).
-/

namespace SheetBuild.Disk.Tree

variable {t t' b : Tree} {p q d : Place} {name : String}

/-! ## Paths through directories -/

/-- Behind a path that leads to a directory, every name leads somewhere. -/
theorem locate_behind (hl : t.locate p = .ok q) (hq : t.node? q = some .directory)
    (hname : Place.isNameable name = true) :
    t.locate (p ++ [name]) = .ok (p ++ [name]).resolve := by
  obtain ⟨hall, hf⟩ := locate_eq_ok_iff.1 hl
  have hsome : ∃ r, t.locate (p ++ [name]) = .ok r := by
    by_cases hup : name = Place.up
    · refine ⟨q.dropLast, locate_eq_ok_iff.2 ⟨by simp [hall, hname], ?_⟩⟩
      rw [follow_append, hf]
      simp only [Except.bind, follow, hq, if_pos hup]
    · exact ⟨_, (locate_snoc hup hname).2 ⟨q, hl, hq, rfl⟩⟩
  obtain ⟨r, hr⟩ := hsome
  rw [hr, locate_eq_ok hr]

/-- A path whose last name leads somewhere leads to a directory without it. -/
theorem exists_of_locate_concat (h : t.locate (p ++ [name]) = .ok q) :
    Place.isNameable name = true ∧ ∃ r, t.locate p = .ok r ∧ t.node? r = some .directory := by
  obtain ⟨hall, hf⟩ := locate_eq_ok_iff.1 h
  simp only [List.all_append, List.all_cons, List.all_nil, Bool.and_true, Bool.and_eq_true] at hall
  refine ⟨hall.2, ?_⟩
  rw [follow_append] at hf
  cases hr : t.follow [] p with
  | error e =>
    rw [hr] at hf
    exact absurd hf (by simp [Except.bind])
  | ok r =>
    rw [hr] at hf
    replace hf : t.follow r [name] = .ok q := hf
    refine ⟨r, locate_eq_ok_iff.2 ⟨hall.1, hr⟩, ?_⟩
    unfold follow at hf
    split at hf
    · exact absurd hf (by simp)
    · exact absurd hf (by simp)
    · assumption

/-- A path that leads somewhere in two trees does so in a third one, which has the directories that
the two share. -/
theorem follow_of_both
    (hshared : ∀ r, t.node? r = some .directory → b.node? r = some .directory →
      t'.node? r = some .directory)
    {here : Place} {ps : List String} (ht : t.follow here ps = .ok q)
    (hb : b.follow here ps = .ok p) : t'.follow here ps = .ok q := by
  induction ps generalizing here with
  | nil => exact ht
  | cons name ps ih =>
    unfold follow at ht hb ⊢
    split at ht
    · exact absurd ht (by simp)
    · exact absurd ht (by simp)
    · rename_i hthere
      split at hb
      · exact absurd hb (by simp)
      · exact absurd hb (by simp)
      · rename_i hbthere
        rw [hshared here hthere hbthere]
        simp only
        split
        · rename_i hup
          rw [if_pos hup] at ht hb
          exact ih ht hb
        · rename_i hup
          rw [if_neg hup] at ht hb
          exact ih ht hb

/-! ## Trees that admit others -/

/-- More directories are not in the way. -/
theorem Admits.growsTo (h : t.Admits b) (hgrows : t.GrowsTo t') : t'.Admits b := by
  intro p hp
  rcases hgrows p with heq | ⟨-, hnew⟩
  · rw [heq]
    exact h p hp
  · exact .inl hnew

/-- Fewer nodes are not in the way. -/
theorem Admits.drop (h : t.Admits b) (gone : Place → Bool) : (t.drop gone).Admits b := by
  intro p hp
  by_cases hroot : p = []
  · subst hroot
    exact .inl rfl
  · rw [node?_drop t gone hroot]
    split
    · exact .inr rfl
    · exact h p hp

/-- A node is not in the way where the other tree has no directory. -/
theorem Admits.put (h : t.Admits b) (hp : b.node? p ≠ some .directory) (n : Node) :
    (t.put p n).Admits b := by
  intro r hr
  rw [node?_put_of_ne]
  · exact h r hr
  · rintro rfl
    exact hp hr

/-! ## Making directories on the way -/

/-- No file stands anywhere on the way that a path leads. -/
def Passable (t : Tree) (p : Place) : Prop :=
  ∀ q : Place, q <+: p → ∀ content, t.node? q.resolve ≠ some (.file content)

/-- Where no file is on the way, a directory can be made, and what is made lies on the way. -/
theorem Passable.make (h : t.Passable p) (hname : p.all Place.isNameable = true) :
    ∃ t', t.makeDirectories p = (t', none) ∧
      ∀ r, t'.node? r = t.node? r ∨
        (t'.node? r = some .directory ∧ ∃ q : Place, q <+: p ∧ r = q.resolve) := by
  induction p using List.reverseRecOn with
  | nil => exact ⟨t, makeDirectories_of_directory rfl rfl, fun r => .inl rfl⟩
  | append_singleton p name ih =>
    simp only [List.all_append, List.all_cons, List.all_nil, Bool.and_true,
      Bool.and_eq_true] at hname
    have hfront : t.Passable p := fun q hq => h q (hq.trans (List.prefix_append p [name]))
    obtain ⟨t₁, hmade, hkept⟩ := ih hfront hname.1
    replace hkept : ∀ r, t₁.node? r = t.node? r ∨
        (t₁.node? r = some .directory ∧ ∃ q : Place, q <+: p ++ [name] ∧ r = q.resolve) := by
      intro r
      rcases hkept r with heq | ⟨hnew, q, hq, hr⟩
      · exact .inl heq
      · exact .inr ⟨hnew, q, hq.trans (List.prefix_append p [name]), hr⟩
    obtain ⟨r, hr, hdirectory⟩ := exists_of_makeDirectories hmade
    have hplace := locate_behind hr hdirectory hname.2
    rw [makeDirectories_snoc hmade hname.2]
    cases hnode : t₁.node? (Place.resolve (p ++ [name])) with
    | none =>
      rw [ensureDirectory_of_none hplace hnode]
      refine ⟨_, rfl, fun r => ?_⟩
      by_cases hsame : r = Place.resolve (p ++ [name])
      · have hroot : Place.resolve (p ++ [name]) ≠ [] := by
          intro hroot
          simp [hroot] at hnode
        subst hsame
        exact .inr ⟨node?_put_self t₁ _ hroot, _, List.prefix_rfl, rfl⟩
      · rw [node?_put_of_ne t₁ _ hsame]
        exact hkept r
    | some n =>
      cases n with
      | directory =>
        rw [ensureDirectory_of_directory hplace hnode]
        exact ⟨t₁, rfl, hkept⟩
      | file content =>
        have hfile := (growsTo_of_makeDirectories hmade).file_iff.1 hnode
        exact absurd hfile (h _ List.prefix_rfl content)

/-- What leads to a directory leads through directories. -/
theorem directory_above (hl : b.locate p = .ok q) (hq : b.node? q = some .directory) {r : Place}
    (hr : r <+: p) : b.node? r.resolve = some .directory := by
  obtain ⟨rest, rfl⟩ := hr
  induction rest using List.reverseRecOn generalizing q with
  | nil =>
    rw [List.append_nil] at hl
    rwa [← locate_eq_ok hl]
  | append_singleton rest name ih =>
    rw [← List.append_assoc] at hl
    obtain ⟨-, q', hl', hq'⟩ := exists_of_locate_concat hl
    exact ih hq' hl'

/-- A directory of a tree can be made in every tree that admits it, and what is made are directories
of that tree. -/
theorem makeDirectories_of_admits (h : t.Admits b) (hl : b.locate p = .ok q)
    (hq : b.node? q = some .directory) :
    ∃ t', t.makeDirectories p = (t', none) ∧
      ∀ r, t'.node? r = t.node? r ∨ b.node? r = some .directory := by
  have hpassable : t.Passable p := by
    intro r hr content hfile
    rcases h _ (directory_above hl hq hr) with hthere | hnone
    · exact absurd (hfile.symm.trans hthere) (by simp)
    · exact absurd (hfile.symm.trans hnone) (by simp)
  obtain ⟨t', hmade, hkept⟩ := hpassable.make (locate_eq_ok_iff.1 hl).1
  refine ⟨t', hmade, fun r => (hkept r).imp_right ?_⟩
  rintro ⟨-, r, hr, rfl⟩
  exact directory_above hl hq hr

/-! ## Directories with nothing below them -/

/-- A path leads to a directory, and nothing stands below it. -/
structure Bare (b : Tree) (d : Place) : Prop where
  located : b.locate d = .ok d.resolve
  directory : b.node? d.resolve = some .directory
  empty : ∀ p, Place.isBelow p d.resolve = true → b.node? p = none

/-- Such a directory can be made where it is not in the way, and nothing comes to stand below it. -/
theorem Bare.make (hbare : Bare b d) (h : t.Admits b) :
    ∃ t', t.makeDirectories d = (t', none) ∧
      ∀ p, Place.isBelow p d.resolve = true → t'.node? p = t.node? p := by
  obtain ⟨t', hmade, hkept⟩ := makeDirectories_of_admits h hbare.located hbare.directory
  refine ⟨t', hmade, fun p hp => (hkept p).resolve_right ?_⟩
  rw [hbare.empty p hp]
  simp

/-- Such a directory can be removed, with all that stands below it. -/
theorem removeDirectory_of_bare (hbare : Bare b d) (h : t.Admits b) (hd : t.contains d = true) :
    t.removeDirectory d
      = ((t.drop (·.isBelow d.resolve)).drop (· = d.resolve), none) := by
  obtain ⟨n, hn⟩ := Option.isSome_iff_exists.1 hd
  unfold find? at hn
  cases hl : t.locate d with
  | error e =>
    rw [hl] at hn
    exact absurd hn (by simp)
  | ok q =>
    obtain rfl := locate_eq_ok hl
    rw [hl] at hn
    have hdirectory : t.node? d.resolve = some .directory := by
      rcases h _ hbare.directory with hthere | hnone
      · exact hthere
      · exact absurd (hn.symm.trans hnone) (by simp)
    obtain ⟨hall, hf⟩ := locate_eq_ok_iff.1 hl
    -- no directory on the way lies below the one that is removed
    have hway : ∀ r, t.node? r = some .directory → b.node? r = some .directory →
        (t.drop (·.isBelow d.resolve)).node? r = some .directory := by
      intro r hr hbr
      by_cases hroot : r = []
      · subst hroot
        rfl
      · rw [node?_drop t _ hroot, if_neg]
        · exact hr
        · intro hbelow
          rw [hbare.empty r hbelow] at hbr
          exact absurd hbr (by simp)
    have hstill := follow_of_both hway hf (locate_eq_ok_iff.1 hbare.located).2
    simp only [removeDirectory, hl, hdirectory, locate_eq_ok_iff.2 ⟨hall, hstill⟩]

end SheetBuild.Disk.Tree
