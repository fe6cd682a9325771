import SheetBuild.Text.Base64
import SheetBuild.Text.Blank
set_option autoImplicit false

/-!
# Embedded source maps

A compiler may put the source map into the stylesheet, as a comment at its end that holds the map in
base64.  `split` takes such a comment off; a stylesheet that does not end in one is left alone.
-/

namespace SheetBuild.Compile.EmbeddedMap

/-- The opening of the comment, up to the kind of its content. -/
def opening : List Char := "/*# sourceMappingURL=data:application/json;".toList

/-- The statement of the character set, which may be missing. -/
def charset : List Char := "charset=utf-8;".toList

/-- The statement of the encoding. -/
def encoding : List Char := "base64,".toList

/-- The end of the comment. -/
def closing : List Char := " */".toList

/-- Whether a character can stand in the payload. -/
def isPayload (c : Char) : Bool :=
  ('A' ≤ c && c ≤ 'Z') || ('a' ≤ c && c ≤ 'z') || ('0' ≤ c && c ≤ '9')
    || c = '+' || c = '/' || c = '='

/-- The comment for a payload. -/
def comment (withCharset : Bool) (payload : List Char) : List Char :=
  opening ++ (if withCharset then charset else []) ++ encoding ++ payload ++ closing

/-- What stands before an ending, where the text has it. -/
def dropEnding? (ending cs : List Char) : Option (List Char) :=
  if ending.isSuffixOf cs then some (cs.take (cs.length - ending.length)) else none

/-- The front of a stylesheet and the payload of the comment that it ends in, where it ends in
one. -/
def find? (css : List Char) : Option (List Char × List Char) := do
  let body ← dropEnding? closing (Text.dropEndWhile Text.isBlank css)
  let payload := (body.reverse.takeWhile isPayload).reverse
  let front := Text.dropEndWhile isPayload body
  if payload.isEmpty then none
  else
    let front ← dropEnding? encoding front
    match dropEnding? (opening ++ charset) front with
    | some rest => some (rest, payload)
    | none => (dropEnding? opening front).map fun rest => (rest, payload)

/-- Why a payload is no map. -/
inductive MapError where
  | base64 (e : Text.Base64.DecodeError)
  | notText
  deriving DecidableEq, Repr

/-- The wording of a map error. -/
def MapError.message : MapError → String
  | .base64 e => e.message
  | .notText => "Source map is not valid UTF-8"

/-- The map that a payload holds. -/
def decode (payload : List Char) : Except MapError (List Char) :=
  match Text.Base64.decode payload with
  | .error e => .error (.base64 e)
  | .ok bytes =>
    match Text.Utf8.decode? bytes with
    | some cs => .ok cs
    | none => .error .notText

/-- A stylesheet without the comment it ends in, and the map of the comment. -/
def split (css : List Char) : Except MapError (List Char × Option (List Char)) :=
  match find? css with
  | none => .ok (css, none)
  | some (front, payload) =>
    (decode payload).map fun m => (Text.dropEndWhile Text.isBlank front ++ ['\n'], some m)

end SheetBuild.Compile.EmbeddedMap
