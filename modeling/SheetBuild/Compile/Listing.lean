import SheetBuild.Compile.Compiler
import SheetBuild.Import.Resolve
import SheetBuild.Import.Scan
import SheetBuild.Json.Printer
set_option autoImplicit false

/-!
# The listing engine

An engine that shows what a build would read.  It follows every import reference in the order in
which they stand, and its stylesheet lists each text it was given with its name and its length,
imports before the text that imports them; a reference that it is not served stays as an `@import`.
Three marks in a text make it fail, so that every way of failing can be tried out.
-/

namespace SheetBuild.Compile.Listing

open SheetBuild.Import (Reference occursIn scan)

/-- The body of a listing: its parts, and the names of the texts in it. -/
structure Body where
  parts : List String
  names : List String

/-- One body after another. -/
def Body.append (a b : Body) : Body := ⟨a.parts ++ b.parts, a.names ++ b.names⟩

/-- A body with nothing in it. -/
def Body.empty : Body := ⟨[], []⟩

/-- The failure that a mark in the text forces. -/
def forced? (name : String) (text : List Char) : Option EngineFault :=
  if occursIn "@error".toList text then
    some (.reported
      ("Error: forced failure\n        on line 2:5 of " ++ name ++ "\n>> @error\n"))
  else if occursIn "@vague".toList text then some (.reported "Error: no position\n")
  else if occursIn "@crash".toList text then some (.crashed "backend exploded")
  else none

/-- The result of listing texts. -/
abbrev Listed : Type := Session (Except EngineFault Body)

/-- Goes on from a listing, unless it failed. -/
def andThen (s : Listed) (f : Body → Listed) : Listed :=
  s.bind fun
    | .error e => .finish (.error e)
    | .ok l => f l

/-- Follows the references of a text one after the other. -/
def follow (list : String → List Char → Bool → Listed) (name : String) (acc : Body) :
    List Reference → Listed
  | [] => .finish (.ok acc)
  | r :: rs =>
    .ask r.target name fun
      | none =>
        follow list name (acc.append ⟨["@import \"" ++ r.target ++ "\";"], []⟩) rs
      | some (path, text) =>
        andThen (list path text.toList (".sass".toList.isSuffixOf path.toList)) fun l =>
          follow list name (acc.append l) rs

/-- Lists a text behind the texts that it imports.  The first argument bounds the depth of the
imports. -/
def list : Nat → String → List Char → Bool → Listed
  | 0, _, _, _ => .finish (.error (.crashed "imports nested too deeply"))
  | depth + 1, name, text, indented =>
    match forced? name text with
    | some e => .finish (.error e)
    | none =>
      match scan indented text with
      | .error e =>
        .finish (.error (.crashed ("Line " ++ toString e.line ++ ", column " ++ toString e.column
          ++ ": " ++ e.message)))
      | .ok references =>
        andThen (follow (list depth) name .empty references) fun l =>
          .finish (.ok (l.append
            ⟨["/* " ++ name ++ " " ++ toString text.length ++ " */"], [name]⟩))

/-- The deepest nesting of imports that the engine follows. -/
def maxDepth : Nat := 4096

/-- The source map of a listing. -/
def sourceMap (l : Body) : List Char :=
  Json.compact (.object [("version", .int 3), ("sources", .array (l.names.map .text)),
    ("contents", .bool true)])

/-- The stylesheet of a listing. -/
def stylesheet (j : Job) (l : Body) : String :=
  let css := String.intercalate (if j.compressed then "" else "\n") l.parts ++ "\n"
  if j.embedMap then
    css ++ "\n" ++ String.ofList (EmbeddedMap.comment true
      (Text.Base64.encode (Text.Utf8.encode (sourceMap l))))
  else css

/-- The listing engine. -/
def engine : Engine := fun j =>
  (list maxDepth entryName j.text j.indented).map fun
    | .error e => .error e
    | .ok l => .ok (stylesheet j l)

end SheetBuild.Compile.Listing
