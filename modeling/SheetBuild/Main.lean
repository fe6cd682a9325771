import SheetBuild.Command.Run
import SheetBuild.Compile.Listing
set_option autoImplicit false

/-!
# The program

Loads what a command works on from disk, carries the command out with the listing engine, and puts
the changes back.  Nothing is decided here.
-/

namespace SheetBuild.Command

open SheetBuild.Disk (Node Place Tree)

/-- How the program is called. -/
def usageText : String := "usage: sheetbuild [-h] [-v] COMMAND ...\n"

/-- What the program can do. -/
def helpText : String :=
  String.intercalate "\n" [
    usageText,
    "commands:",
    "  build [-h] [--target \x7bclient,server\x7d] [--json] [DIRECTORY]",
    "                 compile the stylesheets of a project",
    "  clean [-h] [DIRECTORY]",
    "                 remove the persisted entries of a project",
    "",
    "options:",
    "  -h, --help     show this text",
    "  -v, --verbose  show warnings",
    ""]

/-- What is on disk below a place. -/
partial def nodesBelow (p : Place) : IO (List (Place × Node)) := do
  let mut nodes := []
  for e in ← ((← IO.currentDir) / p.text).readDir do
    let q := p ++ [e.fileName]
    match (← e.path.metadata).type with
    | .dir => nodes := (q, .directory) :: (← nodesBelow q) ++ nodes
    | .file => nodes := (q, .file (← IO.FS.readBinFile e.path).toList) :: nodes
    | _ => pure ()
  return nodes

/-- Adds what is on disk at a place, with the directories on the way to it. -/
def load (t : Tree) (p : Place) : IO Tree := do
  let mut t := t
  for n in List.range p.length do
    let q : Place := p.take (n + 1)
    let path := (← IO.currentDir) / q.text
    if ← path.isDir then
      t := t.put q .directory
    else if ← path.pathExists then
      t := t.put q (.file (← IO.FS.readBinFile path).toList)
  if t.isDirectory p then
    for (q, n) in ← nodesBelow p do
      t := t.put q n
  return t

/-- Loads the site of a request: the project, and the directories that it writes to. -/
def loadSite (r : Request) : IO Site := do
  let here := Place.names (← IO.currentDir).toString.toList
  let empty : Site := ⟨{}, some here⟩
  match empty.place r.directory with
  | .error _ => return empty
  | .ok root =>
    let site : Site := ⟨← load {} root, some here⟩
    match site.project r.directory with
    | .error _ => return site
    | .ok (root, c) =>
      let mut t := site.tree
      for p in [(cachePlace root c).resolve, (outputPlace root c).resolve] do
        if !p.isBelow root && p.all Place.isNameable then
          t ← load t p
      return ⟨t, some here⟩

/-- Makes the disk hold what the second tree holds, where it holds what the first one does. -/
def settle (before after : Tree) : IO Unit := do
  for (p, n) in before.nodes.mergeSort fun a b => decide (b.1.length ≤ a.1.length) do
    if (after.node? p).isNone then
      match n with
      | .directory => IO.FS.removeDir p.text
      | .file _ => IO.FS.removeFile p.text
  for (p, n) in after.nodes.mergeSort fun a b => decide (a.1.length ≤ b.1.length) do
    if before.node? p ≠ some n then
      match n with
      | .directory => IO.FS.createDirAll p.text
      | .file content => IO.FS.writeBinFile p.text (ByteArray.mk content.toArray)

/-- Carries out a request on disk and shows how it ends. -/
def perform (r : Request) : IO UInt32 := do
  let site ← loadSite r
  let (ending, after) := run Compile.Listing.engine site r
  settle site.tree after.tree
  match ending with
  | .finished report =>
    if r.verbose then
      for w in report.warnings do
        IO.eprintln ("WARNING " ++ w.message)
    IO.print report.output
    IO.eprint report.errors
    return UInt32.ofNat report.code
  | .aborted a =>
    IO.eprint (errorLine a.message)
    return 1

end SheetBuild.Command

/-- Runs the command that the arguments ask for. -/
def main (args : List String) : IO UInt32 :=
  match SheetBuild.Command.Request.ofArguments args with
  | .error .help => do
    IO.print SheetBuild.Command.helpText
    return 0
  | .error .usage => do
    IO.eprint SheetBuild.Command.usageText
    return 2
  | .ok r => SheetBuild.Command.perform r
