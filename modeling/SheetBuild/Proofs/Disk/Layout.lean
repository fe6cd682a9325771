import Mathlib.Data.List.Infix
import SheetBuild.Proofs.Disk.Renewal
import SheetBuild.Proofs.Path.Canonical
set_option autoImplicit false

/-!
# Files laid out below a directory

A file can be written below a directory as long as no other file stands on the way to it and no
directory in its place.  `Laid` keeps track of the files that have been written and of those that can
still be: making the directories on the way to one of them, and writing it there, leaves the others as
they are when the places are apart (`Laid.make`, `Laid.write`).
-/

namespace SheetBuild.Disk

/-- Neither place is on the way to the other, nor the same. -/
structure Place.Apart (p q : Place) : Prop where
  not_above : ¬ p <+: q
  not_below : ¬ q <+: p

/-- Places below a directory are apart when they are apart there. -/
theorem Place.Apart.of_append {out p q : Place} (h : Place.Apart (out ++ p) (out ++ q)) : p.Apart q :=
  ⟨fun hp => h.not_above ((List.prefix_append_right_inj out).2 hp),
    fun hq => h.not_below ((List.prefix_append_right_inj out).2 hq)⟩

/-- A place below a directory that a path names there: it has a name, and does not lead up. -/
structure Place.Plain (p : Place) : Prop where
  nonempty : p ≠ []
  up_not_mem : Place.up ∉ p

/-- The directory of a plain place is reached without leading up. -/
theorem Place.Plain.up_not_mem_dropLast {p : Place} (h : p.Plain) : Place.up ∉ p.dropLast :=
  fun hmem => h.up_not_mem (List.mem_of_mem_dropLast hmem)

namespace Tree

variable {t t' : Tree} {out p q r : Place} {done todo : List (Place × Bytes)}

/-- A path leads to a directory. -/
structure LeadsToDirectory (t : Tree) (p : Place) : Prop where
  located : t.locate p = .ok p.resolve
  directory : t.node? p.resolve = some .directory

theorem LeadsToDirectory.of_locate (hl : t.locate p = .ok q) (hq : t.node? q = some .directory) :
    t.LeadsToDirectory p := by
  obtain rfl := locate_eq_ok hl
  exact ⟨hl, hq⟩

theorem LeadsToDirectory.mono
    (hkept : ∀ r, t.node? r = some .directory → t'.node? r = some .directory)
    (h : t.LeadsToDirectory p) : t'.LeadsToDirectory p :=
  ⟨locate_mono hkept h.located, hkept _ h.directory⟩

/-- A path to a file leads through directories. -/
theorem LeadsToDirectory.of_read {content : Bytes} (h : t.read (p ++ r) = .ok content) (hr : r ≠ []) :
    t.LeadsToDirectory p := by
  unfold read at h
  cases hl : t.locate (p ++ r) with
  | error e =>
    rw [hl] at h
    exact absurd h (by simp)
  | ok q =>
    rw [← List.dropLast_append_getLast hr, ← List.append_assoc] at hl
    obtain ⟨-, q', hl', hq'⟩ := exists_of_locate_concat hl
    have hdirectory := directory_above hl' hq' (List.prefix_append p r.dropLast)
    obtain ⟨hall, hf⟩ := locate_eq_ok_iff.1 hl'
    rw [follow_append] at hf
    cases hp : t.follow [] p with
    | error e =>
      rw [hp] at hf
      exact absurd hf (by simp [Except.bind])
    | ok q₀ =>
      rw [List.all_append, Bool.and_eq_true] at hall
      have hl₀ := locate_eq_ok_iff.2 ⟨hall.1, hp⟩
      obtain rfl := locate_eq_ok hl₀
      exact ⟨hl₀, hdirectory⟩

/-- What is read is the content of a file at the place that is meant. -/
theorem read_eq_ok_iff {content : Bytes} :
    t.read p = .ok content ↔ t.locate p = .ok p.resolve ∧ t.node? p.resolve = some (.file content) := by
  unfold read
  cases hl : t.locate p with
  | error e => simp
  | ok q =>
    obtain rfl := locate_eq_ok hl
    simp only [true_and]
    cases t.node? p.resolve with
    | none => simp
    | some n => cases n <;> simp

/-- No file stands on the way to another. -/
theorem not_prefix_of_read {a b : Bytes} (hp : t.read p = .ok a) (hq : t.read q = .ok b) (hne : p ≠ q) :
    ¬ p <+: q := by
  rintro ⟨r, rfl⟩
  have hr : r ≠ [] := by
    rintro rfl
    exact hne (List.append_nil p).symm
  have hfile := (read_eq_ok_iff.1 hp).2
  rw [(LeadsToDirectory.of_read hq hr).directory] at hfile
  exact absurd hfile (by simp)

/-- Two files are apart. -/
theorem apart_of_read {a b : Bytes} (hp : t.read p = .ok a) (hq : t.read q = .ok b) (hne : p ≠ q) :
    p.Apart q :=
  ⟨not_prefix_of_read hp hq hne, not_prefix_of_read hq hp hne.symm⟩

/-- Below a directory, the files that are done are there, and nothing is in the way of those to do. -/
structure Laid (t : Tree) (out : Place) (done todo : List (Place × Bytes)) : Prop where
  base : t.LeadsToDirectory out
  written : ∀ f ∈ done, t.read (out ++ f.1) = .ok f.2
  way : ∀ f ∈ todo, ∀ r, r <+: f.1 → ∀ content, t.node? (out.resolve ++ r) ≠ some (.file content)
  place : ∀ f ∈ todo, t.node? (out.resolve ++ f.1) ≠ some .directory

/-- Nothing is in the way in an empty directory. -/
theorem Bare.laid (h : Bare t out) (hplain : ∀ f ∈ todo, f.1.Plain) : t.Laid out [] todo where
  base := ⟨h.located, h.directory⟩
  written := by simp
  way := by
    intro f _ r _ content
    cases r with
    | nil =>
      rw [List.append_nil, h.directory]
      simp
    | cons n ns =>
      rw [h.empty _ (Place.isBelow_iff.2 ⟨n, ns, rfl⟩)]
      simp
  place := by
    intro f hf
    obtain ⟨n, ns, hcons⟩ := List.exists_cons_of_ne_nil (hplain f hf).nonempty
    rw [h.empty _ (Place.isBelow_iff.2 ⟨n, ns, by rw [hcons]⟩)]
    simp

namespace Laid

/-- Directories on the way to a file can be made, and they are in the way of no other file that is apart
from it. -/
theorem make (h : t.Laid out done todo) {f : Place × Bytes} (hf : f ∈ todo) (hplain : f.1.Plain)
    (hname : f.1.all Place.isNameable = true)
    (hapart : ∀ g ∈ todo, g.1.dropLast = f.1.dropLast ∨ f.1.Apart g.1) :
    ∃ t', t.makeDirectories (out ++ f.1).dropLast = (t', none) ∧ t'.Laid out done todo ∧
      t'.LeadsToDirectory (out ++ f.1.dropLast) := by
  have hup := hplain.up_not_mem_dropLast
  rw [List.dropLast_append_of_ne_nil hplain.nonempty]
  have hbase := h.base.directory
  -- what is on the way is above the directory, or below it and on the way to the file
  have hway : ∀ q : Place, q <+: out ++ f.1.dropLast →
      t.node? q.resolve = some .directory ∨ ∃ r, r <+: f.1.dropLast ∧ q.resolve = out.resolve ++ r := by
    intro q hq
    rcases List.prefix_or_prefix_of_prefix hq (List.prefix_append _ _) with habove | ⟨r, rfl⟩
    · exact .inl (directory_above h.base.located hbase habove)
    · have hr := (List.prefix_append_right_inj _).1 hq
      exact .inr ⟨r, hr, Place.resolve_append fun hmem => hup (hr.subset hmem)⟩
  have hpassable : t.Passable (out ++ f.1.dropLast) := by
    intro q hq content hfile
    rcases hway q hq with hdirectory | ⟨r, hr, heq⟩
    · rw [hdirectory] at hfile
      exact absurd hfile (by simp)
    · rw [heq] at hfile
      exact h.way f hf r (hr.trans (List.dropLast_prefix f.1)) content hfile
  have hnames : (out ++ f.1.dropLast).all Place.isNameable = true := by
    rw [List.all_append, (locate_eq_ok_iff.1 h.base.located).1, Bool.true_and, List.all_eq_true]
    intro n hn
    exact List.all_eq_true.1 hname n (List.mem_of_mem_dropLast hn)
  obtain ⟨t', hmade, hkept⟩ := hpassable.make hnames
  have hgrows := growsTo_of_makeDirectories hmade
  obtain ⟨q, hl, hq⟩ := exists_of_makeDirectories hmade
  refine ⟨t', hmade, ⟨h.base.mono fun r => hgrows.directory, ?_, ?_, ?_⟩, .of_locate hl hq⟩
  · intro g hg
    obtain ⟨hl, hfile⟩ := read_eq_ok_iff.1 (h.written g hg)
    exact read_eq_ok_iff.2 ⟨locate_mono (fun r => hgrows.directory) hl, hgrows.file_iff.2 hfile⟩
  · intro g hg r hr content hfile
    exact h.way g hg r hr content (hgrows.file_iff.1 hfile)
  · intro g hg hdirectory
    rcases hkept (out.resolve ++ g.1) with heq | ⟨-, q, hq, heq⟩
    · rw [heq] at hdirectory
      exact h.place g hg hdirectory
    · rcases hway q hq with hthere | ⟨r, hr, heq'⟩
      · rw [← heq] at hthere
        exact h.place g hg hthere
      · obtain rfl : g.1 = r := List.append_cancel_left (heq.trans heq')
        have hlength := hr.length_le
        have hpositive := List.length_pos_of_ne_nil hplain.nonempty
        rw [List.length_dropLast] at hlength
        have hne : g.1 ≠ [] := by
          intro hnil
          refine h.place g hg ?_
          rwa [hnil, List.append_nil]
        have hpositive' := List.length_pos_of_ne_nil hne
        rcases hapart g hg with hsame | happ
        · have hg := congrArg List.length hsame
          rw [List.length_dropLast, List.length_dropLast] at hg
          omega
        · exact happ.not_below (hr.trans (List.dropLast_prefix f.1))

/-- A file is written in a directory that is there, and stays out of the way of the others. -/
theorem write {f : Place × Bytes} (h : t.Laid out done (f :: todo)) (hplain : f.1.Plain)
    (hname : f.1.all Place.isNameable = true) (hapart : ∀ g ∈ todo, f.1.Apart g.1)
    (hparent : t.LeadsToDirectory (out ++ f.1.dropLast)) :
    ∃ t', t.write (out ++ f.1) f.2 = .ok t' ∧ t'.Laid out (f :: done) todo ∧
      ∀ r, t.LeadsToDirectory r → t'.LeadsToDirectory r := by
  have hresolve : (out ++ f.1).resolve = out.resolve ++ f.1 := Place.resolve_append hplain.up_not_mem
  have hlast := List.dropLast_append_getLast hplain.nonempty
  have hlocate : t.locate (out ++ f.1) = .ok (out ++ f.1).resolve := by
    conv_lhs => rw [← hlast, ← List.append_assoc]
    conv_rhs => rw [← hlast, ← List.append_assoc]
    exact locate_behind hparent.located hparent.directory
      (List.all_eq_true.1 hname _ (List.getLast_mem hplain.nonempty))
  have hfree := h.place f List.mem_cons_self
  rw [← hresolve] at hfree
  have hwrite : t.write (out ++ f.1) f.2 = .ok (t.put (out ++ f.1).resolve (.file f.2)) := by
    simp only [Tree.write, hlocate, if_neg hfree]
  have hkept : ∀ r, t.node? r = some .directory →
      (t.put (out ++ f.1).resolve (.file f.2)).node? r = some .directory := by
    intro r hr
    exact directory_of_write hwrite hr
  have hroot : out.resolve ++ f.1 ≠ [] := by
    simp [hplain.nonempty]
  refine ⟨_, hwrite, ⟨h.base.mono hkept, ?_, ?_, ?_⟩, fun r => .mono hkept⟩
  · intro g hg
    rcases List.mem_cons.1 hg with rfl | hg
    · refine read_eq_ok_iff.2 ⟨locate_mono hkept hlocate, ?_⟩
      exact node?_put_self t _ (hresolve ▸ hroot)
    · obtain ⟨hl, hfile⟩ := read_eq_ok_iff.1 (h.written g hg)
      refine read_eq_ok_iff.2 ⟨locate_mono hkept hl, ?_⟩
      rw [node?_put_of_ne _ _ ?_, hfile]
      intro heq
      rw [heq, hresolve] at hfile
      exact h.way f List.mem_cons_self f.1 List.prefix_rfl g.2 hfile
  · intro g hg r hr content hfile
    by_cases hsame : out.resolve ++ r = (out ++ f.1).resolve
    · rw [hresolve] at hsame
      exact (hapart g hg).not_above (List.append_cancel_left hsame ▸ hr)
    · rw [node?_put_of_ne _ _ hsame] at hfile
      exact h.way g (List.mem_cons_of_mem _ hg) r hr content hfile
  · intro g hg hdirectory
    rw [node?_put_of_ne] at hdirectory
    · exact h.place g (List.mem_cons_of_mem _ hg) hdirectory
    · rw [hresolve]
      intro hsame
      exact (hapart g hg).not_above (List.append_cancel_left hsame ▸ List.prefix_rfl)

end Laid

end Tree

end SheetBuild.Disk
