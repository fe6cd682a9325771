import SheetBuild.Path.Logical
import SheetBuild.Record
set_option autoImplicit false

/-!
# Compile options

The options of a whole build that reach the compiled output, and so the cache keys.
-/

namespace SheetBuild

open SheetBuild.Json (Value)

/-- The layout of the compiled text. -/
inductive OutputMode where
  | compact
  | expanded
  deriving DecidableEq, Repr

namespace OutputMode

/-- The word for a layout. -/
def word : OutputMode → String
  | .compact => "compact"
  | .expanded => "expanded"

/-- The layout that a word names. -/
def ofWord? : String → Option OutputMode
  | "compact" => some .compact
  | "expanded" => some .expanded
  | _ => none

@[simp] theorem ofWord?_word (m : OutputMode) : ofWord? m.word = some m := by
  cases m <;> rfl

theorem word_injective {m n : OutputMode} (h : m.word = n.word) : m = n := by
  have := congrArg ofWord? h
  simpa using this

/-- Reads a layout from a field. -/
def ofRaw : Record.Raw → Except Record.Fault OutputMode
  | .value (.text s) =>
    match ofWord? s with
    | some m => .ok m
    | none => .error .notOutputMode
  | _ => .error .notOutputMode

end OutputMode

/-- The options of a build. -/
structure CompileOptions where
  /-- the directories that are searched after the importing file's own -/
  includePaths : List String := []
  outputMode : OutputMode := .expanded
  sourceMaps : Bool := false
  deriving DecidableEq, Repr

namespace CompileOptions

/-- Brings include paths into their canonical form; the first that has none is a fault. -/
def canonicalPaths (paths : List String) : Record.Checked (List String) :=
  match paths.mapM Path.normalize with
  | .ok ps => .ok ps
  | .error e => .error [⟨"include_paths", .refused e.message⟩]

/-- Builds options from their fields. -/
def ofFields (fields : Record.Fields) : Record.Checked CompileOptions :=
  (Record.both ((Record.listOf fields "include_paths" Record.name).bind canonicalPaths)
    (Record.both (Record.defaulted fields "output_mode" .expanded OutputMode.ofRaw)
      (Record.defaulted fields "source_maps" false Record.flag))).map
    fun (includePaths, outputMode, sourceMaps) => ⟨includePaths, outputMode, sourceMaps⟩

/-- Options as a JSON object. -/
def toJson (o : CompileOptions) : Value :=
  .object [("include_paths", .array (o.includePaths.map .text)),
    ("output_mode", .text o.outputMode.word), ("source_maps", .bool o.sourceMaps)]

end CompileOptions

end SheetBuild
