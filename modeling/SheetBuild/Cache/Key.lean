import SheetBuild.Options
import SheetBuild.Source
set_option autoImplicit false

/-!
# Cache keys

The key of compiling an entry is the digest of everything that the output depends on: the content of
the entry, the paths and contents of the files it reaches, in order, and the options.  The entry's
own path is not among them, so entries that are alike share one compilation.

Every part is written with its length in front, so that different lists of parts never run together
into the same bytes.
-/

namespace SheetBuild.Cache

/-- The version of the key's layout. -/
def keyVersion : String := "2"

/-- The decimal text of a count. -/
def countText (n : Nat) : String := String.ofList (Nat.toDigits 10 n)

/-- The parts that go into a key, in order. -/
def keyParts (entry : SourceFile) (dependencies : List SourceFile) (options : CompileOptions) :
    List String :=
  ["stylebatch", keyVersion, entry.contentHash, countText dependencies.length]
    ++ dependencies.flatMap (fun d => [d.path, d.contentHash])
    ++ countText options.includePaths.length :: options.includePaths
    ++ [options.outputMode.word, if options.sourceMaps then "map" else "nomap"]

/-- A part with its length in bytes in front. -/
def delimited (part : String) : Bytes :=
  let bytes := Text.Utf8.encode part.toList
  Text.Utf8.encode (Nat.toDigits 10 bytes.length ++ [':']) ++ bytes

/-- The bytes that a key is the digest of. -/
def keyMaterial (entry : SourceFile) (dependencies : List SourceFile) (options : CompileOptions) :
    Bytes :=
  (keyParts entry dependencies options).flatMap delimited

/-- The key of compiling an entry. -/
def key (entry : SourceFile) (dependencies : List SourceFile) (options : CompileOptions) : String :=
  Digest.sha256Hex (keyMaterial entry dependencies options)

/-- The path, the target and the candidate flag of the entry have no part in its key. -/
theorem key_congr {e e' : SourceFile} (h : e.contentHash = e'.contentHash)
    (dependencies : List SourceFile) (options : CompileOptions) :
    key e dependencies options = key e' dependencies options := by
  simp [key, keyMaterial, keyParts, h]

end SheetBuild.Cache
