import Mathlib.Data.List.Forall2
import SheetBuild.Project.Sources
import SheetBuild.Proofs.Cache.Document
import SheetBuild.Proofs.Yaml.Faults
set_option autoImplicit false

/-!
# Which configurations can be used

A configuration file is usable if it is refused with a report, or makes a configuration that makes
compile options.  Three things stand against it (`usable_load_iff`): bytes that are no UTF-8, a fault
in a document that is one, such as a date that there is not, and an include path that names nothing in
the project.
-/

namespace SheetBuild.Project

open SheetBuild.Disk (Place Tree)
open SheetBuild.Yaml (Document)

/-- A content that makes a configuration. -/
def Makes (bytes : Bytes) (c : Config) : Prop :=
  ∃ cs d, Text.Utf8.decode? bytes = some cs ∧ Document.ofText (Text.unifyNewlines cs) = .ok d ∧
    Config.ofDocument d = .ok c

/-- The encoding of a text makes what the document of the text makes. -/
theorem makes_encode {cs : List Char} {d : Document} {c : Config} (hlines : Text.unifyNewlines cs = cs)
    (hd : Document.ofText cs = .ok d) (hc : Config.ofDocument d = .ok c) :
    Makes (Text.Utf8.encode cs) c :=
  ⟨cs, d, Cache.decode?_encode cs, (congrArg Document.ofText hlines).trans hd, hc⟩

/-- A list is gone through when each of its items comes to something. -/
theorem mapM_eq_ok_iff {α β ε : Type} {g : α → Except ε β} {xs : List α} {ys : List β} :
    xs.mapM g = .ok ys ↔ List.Forall₂ (fun x y => g x = .ok y) xs ys := by
  induction xs generalizing ys with
  | nil =>
    rw [List.mapM_nil, List.forall₂_nil_left_iff]
    exact ⟨fun h => (Except.ok.inj h).symm, fun h => h ▸ rfl⟩
  | cons x xs ih =>
    have hcons : (x :: xs).mapM g = .ok ys ↔
        ∃ y ys', g x = .ok y ∧ xs.mapM g = .ok ys' ∧ ys = y :: ys' := by
      rw [List.mapM_cons]
      cases g x with
      | error e => simp [bind, Except.bind]
      | ok y => cases xs.mapM g <;> simp [bind, Except.bind, pure, Except.pure, eq_comm]
    rw [hcons, List.forall₂_cons_left_iff]
    simp only [ih]

theorem exists_forall₂_iff {α β : Type} {R : α → β → Prop} {xs : List α} :
    (∃ ys, List.Forall₂ R xs ys) ↔ ∀ x ∈ xs, ∃ y, R x y := by
  induction xs with
  | nil => simp
  | cons x xs ih =>
    simp only [List.forall₂_cons_left_iff, List.forall_mem_cons, ← ih]
    constructor
    · rintro ⟨-, y, ys, hy, hys, rfl⟩
      exact ⟨⟨y, hy⟩, ys, hys⟩
    · rintro ⟨⟨y, hy⟩, ys, hys⟩
      exact ⟨y :: ys, y, ys, hy, hys, rfl⟩

namespace Config

variable {t : Tree} {p : Place} {bytes : Bytes}

theorem ofText_eq_ok_iff {label : String} {text : List Char} {c : Config} :
    ofText label text = .ok c ↔ ∃ d, Document.ofText text = .ok d ∧ ofDocument d = .ok c := by
  unfold ofText
  cases Document.ofText text with
  | error f => cases f <;> simp
  | ok d => cases hd : ofDocument d <;> simp [Except.mapError, hd]

theorem load_of_read (h : t.read p = .ok bytes) :
    load t p = match Text.Utf8.decode? bytes with
      | none => .error .notUtf8
      | some cs => ofText p.text (Text.unifyNewlines cs) := by
  cases hdecode : Text.Utf8.decode? bytes <;> simp [load, h, hdecode]

/-- What is loaded is what the content makes. -/
theorem load_eq_ok_iff (h : t.read p = .ok bytes) {c : Config} :
    load t p = .ok c ↔ Makes bytes c := by
  rw [load_of_read h, Makes]
  cases hdecode : Text.Utf8.decode? bytes with
  | none => simp
  | some cs => simp [ofText_eq_ok_iff]

variable {directory : Place} {c : Config}

/-- A content of the file that the configuration of a project is read from. -/
def IsIn (t : Tree) (directory : Place) (bytes : Bytes) : Prop :=
  ∃ p, (configNames.map fun n => directory ++ [n]).find? t.contains = some p ∧ t.read p = .ok bytes

theorem find_of_isIn (h : IsIn t directory bytes) (hmakes : Makes bytes c) :
    find t directory = .ok c := by
  obtain ⟨p, hfound, hread⟩ := h
  simp only [find, hfound]
  exact (load_eq_ok_iff hread).2 hmakes

/-- Directories for the entries and for the stylesheets that can be on disk. -/
def IsPlaceable (c : Config) : Prop :=
  Place.isPlaceable c.cacheDirectory = true ∧ Place.isPlaceable c.outputDirectory = true

theorem find?_eq_none_iff_isPlaceable :
    [c.cacheDirectory, c.outputDirectory].find? (!Place.isPlaceable ·) = none ↔ c.IsPlaceable := by
  simp [IsPlaceable]

end Config

end SheetBuild.Project
