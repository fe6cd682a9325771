import SheetBuild.Path.Lexical
set_option autoImplicit false

/-!
# Logical paths

The canonical name of a project file: relative to the project root, with forward slashes, without
empty, `.` and `..` segments.  `normalize` brings a path as written into this form, and refuses one
that is empty or leaves the root.  The file name tells whether a stylesheet is a partial and which of
the two spellings of the language it is in.
-/

namespace SheetBuild.Path

/-- Why a path as written names no project file. -/
inductive PathError where
  | empty
  /-- the path leaves the project root, or names the root itself -/
  | outside (path : String)
  deriving DecidableEq, Repr

/-- The wording of a path error. -/
def PathError.message : PathError → String
  | .empty => "Empty source path"
  | .outside p => "Source path '" ++ p ++ "' is outside the project root"

/-- The path as written, trimmed and with forward slashes. -/
def cleaned (cs : List Char) : List Char :=
  Text.trim (cs.map fun c => if c = '\\' then '/' else c)

/-- The segments of the canonical form of a trimmed path, where it has one. -/
def canonical? (q : List Char) : Option (List Segment) :=
  let ss := collapse (isRooted q) (segments q)
  if ss = [] ∨ ss.head? = some up then none else some ss

/-- The canonical form of a path as written. -/
def normalize (path : String) : Except PathError String :=
  let q := cleaned path.toList
  if q = [] then .error .empty
  else match canonical? q with
    | none => .error (.outside path)
    | some ss => .ok (String.ofList (joinSegments ss))

/-- The two spellings of the stylesheet language, each with its file extension. -/
inductive Extension where
  | scss
  | sass
  deriving DecidableEq, Repr

namespace Extension

/-- The extensions in the order in which they are tried. -/
def all : List Extension := [.scss, .sass]

/-- The extension as it stands at the end of a path. -/
def text : Extension → List Char
  | .scss => ['.', 's', 'c', 's', 's']
  | .sass => ['.', 's', 'a', 's', 's']

end Extension

/-- Cuts a stylesheet extension off a path, where it has one. -/
def splitExtension (cs : List Char) : List Char × Option Extension :=
  match Extension.all.find? fun e => e.text.isSuffixOf cs with
  | some e => (cs.take (cs.length - e.text.length), some e)
  | none => (cs, none)

/-- The mark at the front of the name of a file that is only imported. -/
def partialMark : Char := '_'

/-- Whether the file name carries the mark of a partial. -/
def isPartial (cs : List Char) : Bool := (baseName cs).head? = some partialMark

/-- Whether the path names a file in the indented spelling. -/
def isIndented (cs : List Char) : Bool := (splitExtension cs).2 = some .sass

/-- The path of the stylesheet that is written for an entry. -/
def outputPath (cs : List Char) : List Char := (splitExtension cs).1 ++ ['.', 'c', 's', 's']

/-- A file has one extension at most, and cutting it off loses nothing else. -/
theorem splitExtension_eq_some {cs stem : List Char} {e : Extension}
    (h : splitExtension cs = (stem, some e)) : cs = stem ++ e.text := by
  unfold splitExtension at h
  split at h
  · rename_i e' hf
    simp only [Prod.mk.injEq, Option.some.injEq] at h
    obtain ⟨rfl, rfl⟩ := h
    have hs := List.find?_some hf
    obtain ⟨t, rfl⟩ := List.isSuffixOf_iff_suffix.1 hs
    simp
  · simp at h

end SheetBuild.Path
