import SheetBuild.FileSet
set_option autoImplicit false

/-!
# Resolving references

A reference names a stylesheet of the file set.  It is looked for below the directory of the file
that imports it and then below each include path; below each, first as a partial, then as a plain
file, then as the index of a directory, always `.scss` before `.sass`.  The first candidate that is a
file of the set is the answer.

A reference that begins with braces and a slash, or with a slash alone, is looked for below the
project root only.  External references (built-in modules, URLs, plain style sheets, bare modules,
interpolations) are left to the compiler.
-/

namespace SheetBuild.Import

open SheetBuild.Path (Extension)

/-- The mark in front of a reference that counts from the project root. -/
def rootMark : List Char := ['\x7b', '\x7d', '/']

/-- The beginnings of references that are left to the compiler. -/
def externalStarts : List (List Char) :=
  ["sass:".toList, "http://".toList, "https://".toList, "//".toList, "url(".toList, "~".toList]

/-- Whether a list of characters stands somewhere inside another. -/
def occursIn (needle : List Char) : List Char → Bool
  | [] => needle.isEmpty
  | c :: r => needle.isPrefixOf (c :: r) || occursIn needle r

/-- Whether a reference is left to the compiler. -/
def isExternal (reference : List Char) : Bool :=
  externalStarts.any (·.isPrefixOf reference)
    || ".css".toList.isSuffixOf reference
    || occursIn ['#', '\x7b'] reference

/-- A reference without its extension, its blank ends and its root mark, and the directories that it
is looked for in; the empty directory is the project root. -/
def searchPlan (importer reference : List Char) (includePaths : List (List Char)) :
    List Char × List (List Char) :=
  let stem := (Path.splitExtension (Text.trim reference)).1
  if rootMark.isPrefixOf stem then (stem.drop rootMark.length, [[]])
  else if Path.isRooted stem then (stem.dropWhile (· = '/'), [[]])
  else (stem, Path.directory importer :: includePaths)

/-- The places where a stem may be found, without extension: a partial, a plain file, and four names
inside the directory that the stem names. -/
def forms (joined : List Char) : List (List Char) :=
  let dir := Path.directory joined
  let name := Path.baseName joined
  let marked := Path.partialMark :: name
  let index := "index".toList
  [Path.join dir marked, Path.join dir name, Path.join joined (Path.partialMark :: index),
    Path.join joined index, Path.join joined marked, Path.join joined name]

/-- Whether a normal path names nothing below the directory it counts from. -/
def leavesBase (joined : List Char) : Bool :=
  joined = Path.here || joined.isEmpty || joined = Path.up || ['.', '.', '/'].isPrefixOf joined

/-- The candidates for a stem below one directory, in order of preference. -/
def candidatesIn (base stem : List Char) : List (List Char) :=
  let joined := Path.normal (if base.isEmpty then stem else Path.join base stem)
  if leavesBase joined then []
  else (forms joined).flatMap fun form => Extension.all.map fun e => form ++ e.text

/-- The candidates for a reference, in order of preference, each once. -/
def candidates (importer reference : String) (includePaths : List String) : List String :=
  let (stem, bases) := searchPlan importer.toList reference.toList (includePaths.map String.toList)
  ((bases.flatMap (candidatesIn · stem)).map String.ofList).eraseDups

/-- What a reference comes to. -/
inductive Resolution where
  /-- it is left to the compiler -/
  | external
  | found (file : SourceFile)
  | unresolved

/-- Resolves a reference as it stands in the file at `importer`. -/
def resolve (files : FileSet) (includePaths : List String) (importer reference : String) :
    Resolution :=
  if isExternal reference.toList then .external
  else match (candidates importer reference includePaths).findSome? files.get? with
    | some f => .found f
    | none => .unresolved

/-- A reference resolves to a file of the set. -/
theorem mem_of_resolve_eq_found {files : FileSet} {includePaths : List String}
    {importer reference : String} {f : SourceFile}
    (h : resolve files includePaths importer reference = .found f) : f ∈ files.files := by
  unfold resolve at h
  split at h
  · simp at h
  · split at h
    · rename_i g hg
      obtain ⟨p, -, hp⟩ := List.exists_of_findSome?_eq_some hg
      simp only [Resolution.found.injEq] at h
      exact h ▸ (FileSet.mem_of_get? hp).1
    · simp at h

end SheetBuild.Import
