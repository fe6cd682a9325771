import SheetBuild.Project.Sources
import SheetBuild.Text.Digit
set_option autoImplicit false

/-!
# Command lines

A command line names a command, with options before and behind the name.  Arguments that begin with
a hyphen are options: a long name stands behind two hyphens and may be cut short as long as it fits
no other option, short names are single letters and may share an argument, and a value stands in the
next argument or behind an equals sign.  All other arguments are operands, and so is everything
behind the argument `--`.  An equals sign behind a short name counts for nothing.

`Request.ofArguments` reads a command line.  Every argument is judged before any is carried out, and
arguments that nothing has a use for count only at the end, so a request for help is answered even
beside them.
-/

namespace SheetBuild.Command

/-- An option of a command. -/
inductive Flag where
  | help
  | verbose
  | json
  | target
  deriving DecidableEq, Repr

/-- Whether an option takes a value.  Such an option has no short name. -/
def Flag.takesValue : Flag → Bool
  | .target => true
  | _ => false

/-- The options that a command knows, by their names without hyphens. -/
structure Vocabulary where
  letters : List (Char × Flag)
  names : List (List Char × Flag)
  deriving DecidableEq, Repr

/-- The options before the name of the command. -/
def common : Vocabulary :=
  ⟨[('h', .help), ('v', .verbose)], [("help".toList, .help), ("verbose".toList, .verbose)]⟩

/-! ## One argument -/

/-- What stands in one argument with the name of an option. -/
inductive Attached where
  | nothing
  /-- the text behind the equals sign of a long name -/
  | value (v : List Char)
  /-- the text behind a short name -/
  | letters (cs : List Char)
  deriving DecidableEq, Repr

/-- What an argument is by its own text. -/
inductive Word where
  | operand
  | option (f : Flag) (a : Attached)
  /-- an option that the command does not know -/
  | unknown
  /-- a name cut so short that it fits several options -/
  | ambiguous
  deriving DecidableEq, Repr

/-- Whether the text behind a hyphen makes the argument a negative number.  A line feed at the end
does no harm. -/
def isNumber (cs : List Char) : Bool :=
  let cs := if cs.getLast? = some '\n' then cs.dropLast else cs
  match cs.dropWhile Text.isDigit with
  | [] => !cs.isEmpty
  | '.' :: fraction => !fraction.isEmpty && fraction.all Text.isDigit
  | _ => false

/-- What is attached behind a long name. -/
def behindName : List Char → Attached
  | _ :: v => .value v
  | [] => .nothing

/-- What is attached behind a short name. -/
def behindLetter : List Char → Attached
  | [] => .nothing
  | '=' :: cs => .letters cs
  | cs => .letters cs

/-- The options that a long name stands for: the one of this name, else all whose names begin with
it. -/
def Vocabulary.fits (k : Vocabulary) (name : List Char) : List Flag :=
  match k.names.lookup name with
  | some f => [f]
  | none => (k.names.filter fun n => name.isPrefixOf n.1).map (·.2)

/-- An argument that begins like an option and names none. -/
def nameless (cs : List Char) : Word :=
  if isNumber cs ∨ ' ' ∈ cs then .operand else .unknown

/-- What an argument is. -/
def Vocabulary.word (k : Vocabulary) : List Char → Word
  | '-' :: '-' :: cs =>
    match k.fits (cs.takeWhile (· ≠ '=')) with
    | [] => nameless ('-' :: cs)
    | [f] => .option f (behindName (cs.dropWhile (· ≠ '=')))
    | _ => .ambiguous
  | '-' :: c :: cs =>
    match k.letters.lookup c with
    | some f => .option f (behindLetter cs)
    | none => nameless (c :: cs)
  | _ => .operand

/-! ## Several arguments -/

/-- The argument behind which there are only operands. -/
def divider : String := "--"

/-- A step in carrying out a command line. -/
inductive Item where
  | switch (f : Flag)
  | value (f : Flag) (v : String)
  | operand (s : String)
  | divider
  /-- an argument that there is no use for -/
  | surplus
  /-- a use of an option that makes the whole command line wrong -/
  | misuse
  deriving DecidableEq, Repr

/-- The steps of a switch with what is attached to it.  Behind a short name there are further ones; a
letter that is none of them makes the argument as a whole a misuse. -/
def Vocabulary.switches (k : Vocabulary) (f : Flag) : Attached → List Item
  | .nothing => [.switch f]
  | .value _ => [.misuse]
  | .letters [] => [.misuse]
  | .letters cs =>
    match cs.mapM fun c => k.letters.lookup c with
    | some fs => (f :: fs).map .switch
    | none => [.misuse]

/-- The steps that arguments come to. -/
def Vocabulary.items (k : Vocabulary) : List String → List Item
  | [] => []
  | arg :: rest =>
    if arg = divider then .divider :: rest.map .operand
    else match k.word arg.toList with
      | .operand => .operand arg :: k.items rest
      | .unknown => .surplus :: k.items rest
      | .ambiguous => .misuse :: k.items rest
      | .option f a =>
        if f.takesValue then
          match a, rest with
          | .value v, rest => .value f (String.ofList v) :: k.items rest
          | .letters v, rest => .value f (String.ofList v) :: k.items rest
          | .nothing, [] => [.misuse]
          | .nothing, v :: rest =>
            if v ≠ divider ∧ k.word v.toList = .operand then .value f v :: k.items rest
            else [.misuse]
        else k.switches f a ++ k.items rest

/-- Whether a name among the arguments is cut too short. -/
def Vocabulary.isAmbiguous (k : Vocabulary) (args : List String) : Bool :=
  (args.takeWhile (· ≠ divider)).any fun a => k.word a.toList = .ambiguous

/-- Why no command is carried out. -/
inductive Halt where
  /-- help is asked for -/
  | help
  /-- the command line is wrong -/
  | usage
  deriving DecidableEq, Repr

/-- What the options and the operand of a command say. -/
structure Given where
  verbose : Bool := false
  json : Bool := false
  target : Option String := none
  directory : Option String := none
  /-- whether the latest step was to take the directory -/
  justTaken : Bool := false
  /-- whether there was anything without use -/
  surplus : Bool := false
  deriving DecidableEq, Repr

namespace Given

/-- Carries out one step.  The divider as a value is a target that no file belongs to. -/
def step (g : Given) (i : Item) : Except Halt Given :=
  let h := { g with justTaken := false }
  match i with
  | .switch .help => .error .help
  | .switch .verbose => .ok { h with verbose := true }
  | .switch .json => .ok { h with json := true }
  | .switch .target => .error .usage
  | .value _ v =>
    if v ∈ Project.targetNames ∨ v = divider then .ok { h with target := some v } else .error .usage
  | .operand s =>
    match g.directory with
    | none => .ok { h with directory := some s, justTaken := true }
    | some _ => .ok { h with surplus := true }
  | .divider => .ok { h with surplus := g.surplus || (g.directory.isSome && !g.justTaken) }
  | .surplus => .ok { h with surplus := true }
  | .misuse => .error .usage

/-- Carries out the steps of arguments. -/
def read (k : Vocabulary) (args : List String) : Except Halt Given :=
  if k.isAmbiguous args then .error .usage else (k.items args).foldlM step {}

end Given

/-! ## Whole command lines -/

/-- A command. -/
inductive Verb where
  | build
  | clean
  deriving DecidableEq, Repr

namespace Verb

/-- The name of a command. -/
def name : Verb → String
  | .build => "build"
  | .clean => "clean"

/-- The command of a name. -/
def ofName? : String → Option Verb
  | "build" => some .build
  | "clean" => some .clean
  | _ => none

@[simp] theorem ofName?_name (v : Verb) : ofName? v.name = some v := by
  cases v <;> rfl

/-- The options behind the name of a command. -/
def vocabulary : Verb → Vocabulary
  | .build => ⟨[('h', .help)],
      [("help".toList, .help), ("target".toList, .target), ("json".toList, .json)]⟩
  | .clean => ⟨[('h', .help)], [("help".toList, .help)]⟩

end Verb

/-- What a command line asks for. -/
structure Request where
  verb : Verb
  /-- the project directory, as written -/
  directory : String
  /-- the build target; without one there are the entries of all targets -/
  target : Option String := none
  /-- whether to show the artifacts instead of writing them -/
  json : Bool := false
  /-- whether to show warnings -/
  verbose : Bool := false
  deriving DecidableEq, Repr

/-- The directory that a command works on where none is named. -/
def currentDirectory : String := "."

/-- Whether an argument stands before the name of the command. -/
def isLeading (arg : String) : Bool := arg ≠ divider && common.word arg.toList ≠ .operand

/-- The request that arguments make: options, the name of a command, and the rest for the command. -/
def Request.ofArguments (args : List String) : Except Halt Request :=
  if common.isAmbiguous args then .error .usage
  else do
    let front ← Given.read common (args.takeWhile isLeading)
    match args.dropWhile isLeading with
    | [] => .error (if front.surplus then .usage else .help)
    | name :: rest =>
      match Verb.ofName? name with
      | none => .error .usage
      | some verb =>
        let back ← Given.read verb.vocabulary rest
        if front.surplus || back.surplus then .error .usage
        else .ok ⟨verb, back.directory.getD currentDirectory, back.target, back.json,
          front.verbose⟩

end SheetBuild.Command
