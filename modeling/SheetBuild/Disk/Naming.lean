import SheetBuild.Disk.Place
import SheetBuild.Text.Loose
set_option autoImplicit false

/-!
# Paths with halves of surrogate pairs

On disk a name is bytes.  The characters of a path are put into UTF-8, and 128 of the low halves stand
for the bytes from 0x80 on; the other halves stand for nothing, so a path with one of them names nothing
(`isPlaceable`).  What the bytes are is known on disk by reading them back (`onDisk`): halves may make up
a character there, and those that remain are in no name of a tree, which is why such a path is spelled
with null characters.
-/

namespace SheetBuild.Disk.Place

open SheetBuild.Text (Loose Point Unencodable Utf8.encodeChar Utf8.next Utf8.length_next_le)

/-- The byte that a half stands for in a name. -/
def byte? : Point → Option UInt8
  | .half false n => if 0x80 ≤ n.val ∧ n.val < 0x100 then some (.ofNat n) else none
  | _ => none

/-- Whether a code point can be in a name on disk. -/
def isNamed : Point → Bool
  | .char c => c ≠ '\x00'
  | p => (byte? p).isSome

/-- Whether the disk can hold what a path as written names. -/
def isPlaceable (path : Loose) : Bool := path.points.all isNamed

/-- The bytes of a path. -/
def bytes (ps : List Point) : Bytes :=
  ps.flatMap fun
    | .char c => Utf8.encodeChar c
    | p => (byte? p).toList

/-- What bytes are read as: a byte that is in no character is a half. -/
def pointsOf : Bytes → List Point
  | [] => []
  | b :: r =>
    have := Utf8.length_next_le b r
    match (Utf8.next b r).1 with
    | some c => .char c :: pointsOf (Utf8.next b r).2
    | none => .half false (.ofNat 1024 b.toNat) :: pointsOf r
termination_by bs => bs.length
decreasing_by all_goals simp only [List.length_cons]; omega

/-- A path as it is known on disk, in characters. -/
def onDisk (path : Loose) : String :=
  match path with
  | .whole s => s
  | .broken t =>
    if isPlaceable path then (Loose.ofPoints (pointsOf (bytes t.points))).spelled else path.spelled

/-- What keeps the disk from holding a place: the halves without a byte in the first name that it
cannot hold, or a null character where that name has no such halves. -/
def obstacle? (base : Place) (path : Loose) : Option Unencodable :=
  match path with
  | .whole _ => none
  | .broken _ =>
    let names : Place := join base path.spelled
    let front := names.takeWhile fun n => (Point.unspelled n.toList).all isNamed
    let reached := Point.unspelled (resolve (names.take (front.length + 1))).text.toList
    let start := (reached.takeWhile fun p => !p.isHalf || isNamed p).length
    match (reached.drop start).takeWhile Point.isHalf with
    | [] => none
    | halves => some ⟨start, halves⟩

/-- A whole text is placeable where it is nameable. -/
@[simp] theorem isPlaceable_whole (s : String) : isPlaceable (.whole s) = isNameable s := by
  rw [Bool.eq_iff_iff]
  simp [isPlaceable, isNameable, Loose.points, isNamed, List.forall_mem_ne']

@[simp] theorem onDisk_whole (s : String) : onDisk (.whole s) = s := rfl

end SheetBuild.Disk.Place
