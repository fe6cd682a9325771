import SheetBuild.Path.Lexical
set_option autoImplicit false

/-!
# Places on disk

A place is named by the names on the way to it from the root directory.  The name `..` is kept when
places are joined, since what it means is decided on disk; `resolve` lets it cancel the name before
it, which is the same wherever that name is a directory.
-/

namespace SheetBuild.Disk

/-- The names on the way from the root directory. -/
abbrev Place : Type := List String

namespace Place

/-- The name that leads one directory up. -/
def up : String := ".."

/-- The names in a path as written, without those that lead nowhere. -/
def names (path : List Char) : List String :=
  ((Path.segments path).filter fun s => s ≠ [] ∧ s ≠ Path.here).map String.ofList

/-- Whether the disk can hold what a path names: a null character ends every name. -/
def isNameable (path : String) : Bool := !path.toList.contains '\x00'

/-- What is said of a path that the disk cannot hold. -/
def unnameableMessage : String := "embedded null byte"

/-- The place of a path as written that counts from a base; a rooted path stands for itself. -/
def join (base : Place) (path : String) : Place :=
  if Path.isRooted path.toList then names path.toList else base ++ names path.toList

/-- A place with its last name changed. -/
def mapLast (f : String → String) : Place → Place
  | [] => []
  | [n] => [f n]
  | n :: ns => n :: mapLast f ns

/-- Puts a name behind those kept so far (the last one first). -/
def push (kept : List String) (name : String) : List String :=
  if name = up then kept.drop 1 else name :: kept

/-- The place with every `..` carried out; the root directory is its own parent. -/
def resolve (p : Place) : Place := (p.foldl push []).reverse

/-- The text of a place. -/
def text (p : Place) : String := "/" ++ String.intercalate "/" p

/-- Whether a place lies below another. -/
def isBelow (p base : Place) : Bool := base.isPrefixOf p && base.length < p.length

theorem isBelow_iff {p base : Place} : p.isBelow base = true ↔ ∃ n ns, p = base ++ n :: ns := by
  constructor
  · intro h
    simp only [isBelow, Bool.and_eq_true, List.isPrefixOf_iff_prefix, decide_eq_true_eq] at h
    obtain ⟨⟨r, rfl⟩, hl⟩ := h
    cases r with
    | nil => simp at hl
    | cons n ns => exact ⟨n, ns, rfl⟩
  · rintro ⟨n, ns, rfl⟩
    simp [isBelow]

/-- A place without `..` is resolved already. -/
theorem resolve_of_not_mem {p : Place} (h : up ∉ p) : resolve p = p := by
  have key : ∀ (q kept : List String), up ∉ q → q.foldl push kept = q.reverse ++ kept := by
    intro q
    induction q with
    | nil => intro kept _; rfl
    | cons n ns ih =>
      intro kept hq
      simp only [List.mem_cons, not_or] at hq
      have hn : n ≠ up := fun h => hq.1 h.symm
      simp [List.foldl_cons, push, hn, ih _ hq.2]
  simp [resolve, key p [] h]

/-- A last name that does not lead up stays when every `..` is carried out. -/
theorem resolve_snoc {p : Place} {name : String} (h : name ≠ up) :
    resolve (p ++ [name]) = p.resolve ++ [name] := by
  simp [resolve, List.foldl_append, push, h]

end Place

end SheetBuild.Disk
