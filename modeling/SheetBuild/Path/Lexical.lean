import SheetBuild.Text.Blank
set_option autoImplicit false

/-!
# Paths as text

A path is text whose segments stand between slashes.  `collapse` drops empty and `.` segments and
lets each `..` cancel the segment before it; nothing here looks at a file system.
-/

namespace SheetBuild.Path

/-- A segment of a path: text without a slash. -/
abbrev Segment : Type := List Char

/-- The segment that names the directory it stands in. -/
def here : Segment := ['.']

/-- The segment that names the directory above. -/
def up : Segment := ['.', '.']

/-- The texts between the slashes, one more than there are slashes. -/
def segments : List Char → List Segment
  | [] => [[]]
  | c :: r =>
    if c = '/' then [] :: segments r
    else match segments r with
      | s :: ss => (c :: s) :: ss
      | [] => [[c]]

/-- Segments with slashes between them. -/
def joinSegments : List Segment → List Char
  | [] => []
  | [s] => s
  | s :: ss => s ++ '/' :: joinSegments ss

/-- Puts a segment behind those kept so far (the last one first).  In a rooted path a `..` with
nothing to cancel disappears; elsewhere it stays. -/
def pushSegment (rooted : Bool) (kept : List Segment) (s : Segment) : List Segment :=
  if s = [] ∨ s = here then kept
  else if s = up then
    match kept with
    | [] => if rooted then [] else [up]
    | t :: rest => if t = up then up :: t :: rest else rest
  else s :: kept

/-- The segments that remain once empty, `.` and `..` segments have had their effect. -/
def collapse (rooted : Bool) (ss : List Segment) : List Segment :=
  (ss.foldl (pushSegment rooted) []).reverse

/-- Whether the text begins with a slash. -/
def isRooted (cs : List Char) : Bool := cs.head? = some '/'

/-- The slashes that a normal path begins with: two where the path has exactly two, else one where
it has any. -/
def rootSlashes (cs : List Char) : List Char :=
  match cs.takeWhile (· = '/') with
  | [] => []
  | ['/', '/'] => ['/', '/']
  | _ => ['/']

/-- The path without redundant segments; `.` where nothing remains. -/
def normal (cs : List Char) : List Char :=
  let text := rootSlashes cs ++ joinSegments (collapse (isRooted cs) (segments cs))
  if text = [] then here else text

/-- A path below another; a rooted path stands for itself. -/
def join (base rel : List Char) : List Char :=
  if isRooted rel then rel
  else if base = [] ∨ base.getLast? = some '/' then base ++ rel
  else base ++ '/' :: rel

/-- The text after the last slash. -/
def baseName (cs : List Char) : List Char :=
  (cs.reverse.takeWhile (· ≠ '/')).reverse

/-- The text before the last slash, without the slashes it ends in unless it has nothing else. -/
def directory (cs : List Char) : List Char :=
  let front := cs.take (cs.length - (baseName cs).length)
  if front.all (· = '/') then front else Text.dropEndWhile (· = '/') front

/-- A path below another as shown to a person: no empty and no `.` segments, every `..` kept. -/
def shownJoin (base rel : List Char) : List Char :=
  let whole := join base rel
  let kept := (segments whole).filter fun s => s ≠ [] ∧ s ≠ here
  let text := rootSlashes whole ++ joinSegments kept
  if text = [] then here else text

/-! ## Segments -/

theorem segments_ne_nil (cs : List Char) : segments cs ≠ [] := by
  cases cs with
  | nil => simp [segments]
  | cons c r =>
    unfold segments
    split
    · simp
    · split <;> simp

/-- Cutting at the slashes and joining again gives the text back. -/
theorem joinSegments_segments (cs : List Char) : joinSegments (segments cs) = cs := by
  induction cs with
  | nil => rfl
  | cons c r ih =>
    have hne := segments_ne_nil r
    unfold segments
    split
    · rename_i hc
      obtain ⟨s, ss, hs⟩ := List.exists_cons_of_ne_nil hne
      rw [hs] at ih ⊢
      simp [joinSegments, ih, hc]
    · cases hs : segments r with
      | nil => exact absurd hs hne
      | cons s ss =>
        rw [hs] at ih
        cases ss with
        | nil => simp only [joinSegments] at ih ⊢; rw [ih]
        | cons t ts => simp only [joinSegments, List.cons_append] at ih ⊢; rw [ih]

/-- No segment holds a slash. -/
theorem slash_not_mem_of_mem_segments {cs : List Char} {s : Segment} (h : s ∈ segments cs) :
    '/' ∉ s := by
  induction cs generalizing s with
  | nil => simp [segments] at h; simp [h]
  | cons c r ih =>
    unfold segments at h
    split at h
    · rcases List.mem_cons.1 h with rfl | h
      · simp
      · exact ih h
    · rename_i hc
      cases hs : segments r with
      | nil => exact absurd hs (segments_ne_nil r)
      | cons t ts =>
        rw [hs] at h
        rcases List.mem_cons.1 h with rfl | h
        · have := ih (s := t) (by simp [hs])
          simp only [List.mem_cons, not_or]
          exact ⟨fun hc' => hc hc'.symm, this⟩
        · exact ih (by simp [hs, h])

end SheetBuild.Path
