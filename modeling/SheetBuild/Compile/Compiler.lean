import SheetBuild.Compile.EmbeddedMap
import SheetBuild.Compile.Session
import SheetBuild.Diagnostic
import SheetBuild.Number.Integer
import SheetBuild.Options
import SheetBuild.Source
import SheetBuild.Text.Digit
set_option autoImplicit false

/-!
# Compilers

A compiler takes a source file and the options to a stylesheet.  An engine is a compiler of text: it
knows the entry only under the name `stdin`, reports an error as one message with the place inside
it, and embeds the source map in the stylesheet.  `Engine.compiler` turns one into a compiler of
source files.
-/

namespace SheetBuild.Compile

/-- A stylesheet, with its source map where one is asked for. -/
structure Output where
  css : String
  sourceMap : Option String := none
  deriving DecidableEq, Repr

/-- The refusal of a source by the compiler. -/
structure Rejection where
  message : String
  sourceFile : Option String := none
  line : Option Int := none
  column : Option Int := none
  deriving DecidableEq, Repr

/-- The diagnostic of a refusal. -/
def Rejection.diagnostic (r : Rejection) : Diagnostic :=
  ⟨.compiler, r.message, r.sourceFile.map .whole, r.line, r.column⟩

/-- Why there is no stylesheet. -/
inductive Fault where
  /-- the compiler refuses the source -/
  | rejected (r : Rejection)
  /-- the compiler refuses the source at a place with a number of more digits than are read -/
  | longNumber (digits : Nat)
  /-- the embedded source map cannot be read -/
  | badMap (e : EmbeddedMap.MapError)
  /-- the compiler breaks down -/
  | crashed (reason : String)
  deriving DecidableEq, Repr

/-- A compiler of source files. -/
abbrev Compiler : Type := SourceFile → CompileOptions → Session (Except Fault Output)

/-! ## Reported places -/

/-- A place in an error message: the digits of its line and of its column, and the file. -/
structure ReportedPlace where
  line : List Char
  column : List Char
  file : String
  deriving DecidableEq, Repr

/-- What follows a fixed text. -/
def after? (start cs : List Char) : Option (List Char) :=
  if start.isPrefixOf cs then some (cs.drop start.length) else none

/-- The digits at the front of a text, and what follows them. -/
def digits? (cs : List Char) : Option (List Char × List Char) :=
  let ds := cs.takeWhile Text.isDigit
  if ds.isEmpty then none else some (ds, cs.dropWhile Text.isDigit)

/-- The place that a text begins with: `on line L:C of FILE`. -/
def placeHere? (cs : List Char) : Option ReportedPlace := do
  let cs ← after? "on line ".toList cs
  let (line, cs) ← digits? cs
  let cs ← after? [':'] cs
  let (column, cs) ← digits? cs
  let cs ← after? " of ".toList cs
  let file := cs.takeWhile (!Text.isBlank ·)
  if file.isEmpty then none else some ⟨line, column, String.ofList file⟩

/-- The first place in a message. -/
def place? : List Char → Option ReportedPlace
  | [] => none
  | c :: r =>
    match placeHere? (c :: r) with
    | some p => some p
    | none => place? r

/-- The name under which an engine knows the entry. -/
def entryName : String := "stdin"

/-- The number that digits of any script write. -/
def number (ds : List Char) : Except Fault Int :=
  if Number.Integer.maxDigits < ds.length then .error (.longNumber ds.length)
  else .ok (Text.digitsValue ds)

/-- The refusal that an engine reports: its message without blank ends, at the place it names. -/
def Rejection.ofReport (message entry : String) : Except Fault Rejection :=
  let trimmed := Text.trim message.toList
  match place? trimmed with
  | none => .ok ⟨String.ofList trimmed, some entry, none, none⟩
  | some p => do
    let line ← number p.line
    let column ← number p.column
    return ⟨String.ofList trimmed, some (if p.file = entryName then entry else p.file), some line,
      some column⟩

/-- The fault that comes of a report. -/
def Fault.ofReport (message entry : String) : Fault :=
  match Rejection.ofReport message entry with
  | .ok r => .rejected r
  | .error e => e

/-! ## Engines -/

/-- What an engine is asked to compile. -/
structure Job where
  text : List Char
  compressed : Bool
  indented : Bool
  /-- the directories on disk where it may look for files by itself -/
  includePaths : Option (List String)
  /-- whether to embed the source map, with the contents of the sources -/
  embedMap : Bool
  deriving DecidableEq, Repr

/-- The name of the output style. -/
def Job.style (j : Job) : String := if j.compressed then "compressed" else "expanded"

/-- How an engine fails. -/
inductive EngineFault where
  /-- it reports an error in the sources -/
  | reported (message : String)
  /-- it breaks down -/
  | crashed (reason : String)
  deriving DecidableEq, Repr

/-- A compiler of text.  It names the file that a request stands in: the entry by `stdin` or by no
name, an imported file by the path it was served under. -/
abbrev Engine : Type := Job → Session (Except EngineFault String)

/-- The job of compiling a source file; with a project root on disk the include paths are passed on
as places below it. -/
def job (root : Option String) (f : SourceFile) (o : CompileOptions) : Job where
  text := f.text
  compressed := o.outputMode = .compact
  indented := f.isIndented
  includePaths := root.map fun r =>
    o.includePaths.map fun p => String.ofList (Path.shownJoin r.toList p.toList)
  embedMap := o.sourceMaps

/-- The result of a job as the result of compiling a source file. -/
def ofEngine (f : SourceFile) (o : CompileOptions) :
    Except EngineFault String → Except Fault Output
  | .error (.reported message) => .error (.ofReport message f.path)
  | .error (.crashed reason) => .error (.crashed reason)
  | .ok css =>
    if o.sourceMaps then
      match EmbeddedMap.split css.toList with
      | .error e => .error (.badMap e)
      | .ok (front, sourceMap) => .ok ⟨String.ofList front, sourceMap.map String.ofList⟩
    else .ok ⟨css, none⟩

/-- The path of the file that an engine means by a name. -/
def importerPath (entry name : String) : String :=
  if name = "" ∨ name = entryName then entry else name

/-- The compiler that an engine makes. -/
def Engine.compiler (engine : Engine) (root : Option String) : Compiler := fun f o =>
  ((engine (job root f o)).renameImporters (importerPath f.path)).map (ofEngine f o)

end SheetBuild.Compile
