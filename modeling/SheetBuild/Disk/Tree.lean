import SheetBuild.Disk.Place
import SheetBuild.Text.Utf8
set_option autoImplicit false

/-!
# Directory trees

The directories and files that a command works on.  A path is followed name by name, each name in a
directory, and `..` leads up; `locate` finds the place that is meant.  The operations fail in the
ways in which a file system fails.
-/

namespace SheetBuild.Disk

/-- What is found at a place. -/
inductive Node where
  | directory
  | file (content : Bytes)
  deriving DecidableEq, Repr

/-- How an operation on the tree fails. -/
inductive FileError where
  | notFound
  | exists
  | notDirectory
  | isDirectory
  /-- the disk can hold nothing under this path -/
  | unnameable
  deriving DecidableEq, Repr

/-- The wording of a failure, with its number where it has one. -/
def FileError.message : FileError → String
  | .notFound => "[Errno 2] No such file or directory"
  | .exists => "[Errno 17] File exists"
  | .notDirectory => "[Errno 20] Not a directory"
  | .isDirectory => "[Errno 21] Is a directory"
  | .unnameable => Place.unnameableMessage

/-- A tree of directories and files, by their places.  The root directory is always there. -/
structure Tree where
  nodes : List (Place × Node) := []
  deriving DecidableEq, Repr

namespace Tree

/-- What is at a place that holds no `..`. -/
def node? (t : Tree) (p : Place) : Option Node :=
  if p = [] then some .directory else t.nodes.lookup p

/-- Puts a node at a place. -/
def put (t : Tree) (p : Place) (n : Node) : Tree := ⟨(p, n) :: t.nodes.filter (·.1 ≠ p)⟩

/-- Takes away the nodes whose places satisfy a condition. -/
def drop (t : Tree) (gone : Place → Bool) : Tree := ⟨t.nodes.filter fun n => !gone n.1⟩

/-- Follows names from a place where a tree has been entered already. -/
def follow (t : Tree) (here : Place) : List String → Except FileError Place
  | [] => .ok here
  | name :: rest =>
    match t.node? here with
    | none => .error .notFound
    | some (.file _) => .error .notDirectory
    | some .directory =>
      if name = Place.up then follow t here.dropLast rest else follow t (here ++ [name]) rest

/-- The place that a path means.  All directories on the way have to be there, the last name need
not. -/
def locate (t : Tree) (p : Place) : Except FileError Place :=
  if p.all Place.isNameable then t.follow [] p else .error .unnameable

/-- What a path leads to. -/
def find? (t : Tree) (p : Place) : Option Node :=
  match t.locate p with
  | .ok q => t.node? q
  | .error _ => none

/-- Whether there is something at a path. -/
def contains (t : Tree) (p : Place) : Bool := (t.find? p).isSome

/-- Whether there is a directory at a path. -/
def isDirectory (t : Tree) (p : Place) : Bool := t.find? p = some .directory

/-- The content of a file. -/
def read (t : Tree) (p : Place) : Except FileError Bytes :=
  match t.locate p with
  | .error e => .error e
  | .ok q =>
    match t.node? q with
    | none => .error .notFound
    | some .directory => .error .isDirectory
    | some (.file content) => .ok content

/-- Writes a file, which replaces one that is there. -/
def write (t : Tree) (p : Place) (content : Bytes) : Except FileError Tree :=
  match t.locate p with
  | .error e => .error e
  | .ok q =>
    if t.node? q = some .directory then .error .isDirectory else .ok (t.put q (.file content))

/-- Takes a file away, if it is there. -/
def unlink (t : Tree) (p : Place) : Tree :=
  match t.locate p with
  | .error _ => t
  | .ok q => t.drop (· = q)

/-- Moves a file to another place, where it replaces a file that is there. -/
def move (t : Tree) (source destination : Place) : Except FileError Tree :=
  match t.read source with
  | .error e => .error e
  | .ok content => (t.unlink source).write destination content

/-- Writes a file as a whole: first to a temporary place, from where it is moved.  What cannot be moved
is taken away again. -/
def replace (t : Tree) (temporary p : Place) (content : Bytes) : Tree × Option FileError :=
  match t.write temporary content with
  | .error e => (t, some e)
  | .ok written =>
    match written.move temporary p with
    | .error e => (written.unlink temporary, some e)
    | .ok moved => (moved, none)

/-- Makes one directory. -/
def makeDirectory (t : Tree) (p : Place) : Except FileError Tree :=
  match t.locate p with
  | .error e => .error e
  | .ok q => if (t.node? q).isSome then .error .exists else .ok (t.put q .directory)

/-- Makes one directory, unless it is there. -/
def ensureDirectory (t : Tree) (p : Place) : Except FileError Tree :=
  match t.makeDirectory p with
  | .ok t' => .ok t'
  | .error e => if t.isDirectory p then .ok t else .error e

/-- Makes a directory and those on the way to it.  What could be made stays when a later one cannot
be made; the first argument counts how many names at the end may be left to make. -/
def makeFrom (t : Tree) (p : Place) : Nat → Tree × Option FileError
  | 0 =>
    match t.ensureDirectory p with
    | .ok t' => (t', none)
    | .error e => (t, some e)
  | n + 1 =>
    match t.ensureDirectory p with
    | .ok t' => (t', none)
    | .error .notFound =>
      match t.makeFrom p.dropLast n with
      | (t', some e) => (t', some e)
      | (t', none) =>
        match t'.ensureDirectory p with
        | .ok t'' => (t'', none)
        | .error e => (t', some e)
    | .error e => (t, some e)

/-- Makes a directory and those on the way to it, as far as they are not there. -/
def makeDirectories (t : Tree) (p : Place) : Tree × Option FileError := t.makeFrom p p.length

/-- Removes a directory with everything below it. -/
def removeDirectory (t : Tree) (p : Place) : Tree × Option FileError :=
  match t.locate p with
  | .error e => (t, some e)
  | .ok q =>
    match t.node? q with
    | none => (t, some .notFound)
    | some (.file _) => (t, some .notDirectory)
    | some .directory =>
      let emptied := t.drop (·.isBelow q)
      match emptied.locate p with
      | .error e => (emptied, some e)
      | .ok q' => (emptied.drop (· = q'), none)

/-- Removes what is at a path, a directory with everything below it. -/
def remove (t : Tree) (p : Place) : Except FileError Tree :=
  match t.locate p with
  | .error e => .error e
  | .ok q =>
    if (t.node? q).isSome then .ok (t.drop fun r => r = q || r.isBelow q) else .error .notFound

/-- The files below a place, by their names from there on. -/
def filesBelow (t : Tree) (base : Place) : List (Place × Bytes) :=
  t.nodes.filterMap fun (p, n) =>
    match n with
    | .directory => none
    | .file content => if p.isBelow base then some (p.drop base.length, content) else none

/-! ## What the operations change -/

@[simp] theorem node?_nil (t : Tree) : t.node? [] = some .directory := rfl

theorem node?_put_self (t : Tree) {p : Place} (n : Node) (h : p ≠ []) :
    (t.put p n).node? p = some n := by
  simp [node?, put, h]

theorem lookup_filter (t : List (Place × Node)) (keep : Place → Bool) (q : Place) :
    (t.filter fun n => keep n.1).lookup q = if keep q then t.lookup q else none := by
  induction t with
  | nil => simp
  | cons e t ih =>
    obtain ⟨p, n⟩ := e
    have hf : ((p, n) :: t).filter (fun n => keep n.1)
        = if keep p then (p, n) :: t.filter (fun n => keep n.1) else t.filter fun n => keep n.1 :=
      List.filter_cons
    rw [hf]
    by_cases hq : q = p
    · subst hq
      by_cases hk : keep q
      · simp [hk]
      · rw [if_neg hk, ih, if_neg hk, if_neg hk]
    · have hb : (q == p) = false := by simp [hq]
      by_cases hk : keep p
      · rw [if_pos hk, List.lookup_cons, List.lookup_cons, hb, ih]
      · rw [if_neg hk, List.lookup_cons, hb, ih]

theorem node?_put_of_ne (t : Tree) {p q : Place} (n : Node) (h : q ≠ p) :
    (t.put p n).node? q = t.node? q := by
  by_cases hq : q = []
  · simp [hq]
  · have hb : (q == p) = false := by simp [h]
    have := lookup_filter t.nodes (fun r => decide (r ≠ p)) q
    simp only [node?, put, hq, if_false, List.lookup_cons, hb]
    rw [this]
    simp [h]

theorem node?_drop (t : Tree) (gone : Place → Bool) {p : Place} (h : p ≠ []) :
    (t.drop gone).node? p = if gone p then none else t.node? p := by
  have := lookup_filter t.nodes (fun r => !gone r) p
  simp only [node?, drop, h, if_false]
  rw [this]
  by_cases hg : gone p <;> simp [hg]

end Tree

end SheetBuild.Disk
