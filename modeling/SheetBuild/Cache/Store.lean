import SheetBuild.Cache.Document
import SheetBuild.Cache.Memory
import SheetBuild.Disk.Tree
set_option autoImplicit false

/-!
# The entry store

Entries under their keys: in memory, and where the store has a directory also on disk, one document
a key.  Trouble with the disk leaves a warning, and the store goes on with what it has in memory.  Three
things are not taken for trouble with the disk, and fail a request: a document of brackets beyond the
depth that is read, a directory whose name no file can have, and an entry with a number of more digits
than are written.

`getOrCompute` computes an entry that is not there and keeps it.  While it does, the key is in flight,
and another request for it has to wait for the outcome.  Where the entry cannot be stored there is no
outcome, and the key stays in flight.
-/

namespace SheetBuild.Cache

open SheetBuild.Disk (FileError Node Place Tree)

/-- Trouble with the disk. -/
inductive Warning where
  /-- what is persisted under a key cannot be read -/
  | unreadable
  /-- an entry cannot be persisted -/
  | memoryOnly
  deriving DecidableEq, Repr

/-- The wording of a warning. -/
def Warning.message : Warning → String
  | .unreadable => "Ignoring unreadable cache entry"
  | .memoryOnly => "Keeping cache entry in memory only"

/-- Why an entry is not stored; it is kept in memory all the same. -/
inductive StoreError where
  /-- no file can have the name of the directory -/
  | unnameable
  /-- the document of the entry cannot be written -/
  | unwritten (e : Json.WriteError)
  deriving DecidableEq, Repr

/-- The wording of a store error. -/
def StoreError.message : StoreError → String
  | .unnameable => Place.unnameableMessage
  | .unwritten e => e.message

/-- Entries in memory and on disk. -/
structure Store where
  memory : Memory := {}
  /-- the directory that entries are persisted in -/
  directory : Option Place := none
  disk : Tree := {}
  /-- the keys whose entries are being computed -/
  inFlight : List String := []
  /-- the trouble met so far -/
  warnings : List Warning := []
  deriving DecidableEq, Repr

/-- The bound on the number of entries is not positive. -/
inductive LimitError where
  | notPositive
  deriving DecidableEq, Repr

/-- The wording of a limit error. -/
def LimitError.message : LimitError → String
  | .notPositive => "max_entries must be a positive integer"

/-- Whether a character is a digit of a key. -/
def isKeyDigit (c : Char) : Bool := ('0' ≤ c && c ≤ '9') || ('a' ≤ c && c ≤ 'f')

/-- Whether a key is a digest, and so may name a file: 16 to 128 digits.  A line feed at the end does
no harm. -/
def isDigest (key : String) : Bool :=
  let cs := key.toList
  let digits := if cs.getLast? = some '\n' then cs.dropLast else cs
  16 ≤ digits.length && digits.length ≤ 128 && digits.all isKeyDigit

/-- The extension of a document. -/
def documentExtension : String := ".json"

/-- The directory of the document of a key: documents are spread by the first two digits. -/
def shelf (directory : Place) (key : String) : Place :=
  directory ++ [String.ofList (key.toList.take 2)]

/-- The place of the document of a key. -/
def documentPlace (directory : Place) (key : String) : Place :=
  shelf directory key ++ [key ++ documentExtension]

/-- The name of a temporary file for the document of a key; there is one for each number. -/
def temporaryName (key : String) (n : Nat) : String :=
  key ++ documentExtension ++ String.ofList (Nat.toDigits 10 n) ++ ".tmp"

/-- Where a document is written to before it is moved to its place: beside it, under the first name that
is not in use.  There are more names than places in use. -/
def temporaryPlace (disk : Tree) (directory : Place) (key : String) : Place :=
  let place n := shelf directory key ++ [temporaryName key n]
  place (((List.range (disk.nodes.length + 1)).find? fun n => !disk.contains (place n)).getD 0)

namespace Store

/-- A store with nothing in memory. -/
def new (directory : Option Place) (limit : Option Int) (disk : Tree) : Except LimitError Store :=
  match limit with
  | none => .ok { directory, disk }
  | some i =>
    match Limit.ofInt? i with
    | none => .error .notPositive
    | some l => .ok { memory := { limit := some l }, directory, disk }

/-- Notes trouble. -/
def warn (s : Store) (w : Warning) : Store := { s with warnings := s.warnings ++ [w] }

/-- Keeps an entry in memory. -/
def remember (s : Store) (key : String) (e : Entry) : Store :=
  { s with memory := s.memory.insert key e }

/-- What is persisted under a key, if anything is. -/
def persisted (s : Store) (key : String) : Option Content :=
  match s.directory with
  | none => none
  | some directory =>
    if isDigest key then
      match s.disk.find? (documentPlace directory key) with
      | none => none
      | some .directory => some .unreadable
      | some (.file content) => some (.ofBytes content)
    else some .unreadable

/-- The entry under a key, if there is one.  One that is found on disk only is kept in memory from
then on. -/
def lookup (s : Store) (key : String) : Except Json.TooDeep (Option Entry) × Store :=
  match s.memory.find? key with
  | some e => (.ok (some e), { s with memory := s.memory.touch key })
  | none =>
    match s.persisted key with
    | none => (.ok none, s)
    | some .unreadable => (.ok none, s.warn .unreadable)
    | some (.entry e) => (.ok (some e), s.remember key e)
    | some (.tooDeep e) => (.error e, s)

/-- Writes the document of an entry as a whole, with the directories on the way to it.  These stay
where the document cannot be written. -/
def persist (s : Store) (directory : Place) (key : String) (e : Entry) :
    Option StoreError × Store :=
  if isDigest key then
    match s.disk.makeDirectories (shelf directory key) with
    | (disk, some .unnameable) => (some .unnameable, { s with disk })
    | (disk, some _) => (none, { s with disk }.warn .memoryOnly)
    | (disk, none) =>
      match serialize e with
      | .error e => (some (.unwritten e), { s with disk })
      | .ok text =>
        match disk.replace (temporaryPlace disk directory key) (documentPlace directory key)
            (Text.Utf8.encode text.toList) with
        | (disk, some _) => (none, { s with disk }.warn .memoryOnly)
        | (disk, none) => (none, { s with disk })
  else (none, s.warn .memoryOnly)

/-- Stores an entry under a key.  An equal entry that is in memory already is left alone. -/
def store (s : Store) (key : String) (e : Entry) : Option StoreError × Store :=
  if s.memory.find? key = some e then (none, s)
  else
    let s := s.remember key e
    match s.directory with
    | none => (none, s)
    | some directory => s.persist directory key e

/-- Takes all entries out, of memory and then of the disk. -/
def clear (s : Store) : Option FileError × Store :=
  let s := { s with memory := s.memory.clear }
  match s.directory with
  | none => (none, s)
  | some directory =>
    if s.disk.contains directory then
      let (disk, failure) := s.disk.removeDirectory directory
      (failure, { s with disk })
    else (none, s)

/-- The answer to a request for an entry. -/
structure Answer where
  entry : Entry
  /-- whether this request computed the entry -/
  computed : Bool
  deriving DecidableEq, Repr

/-- Why a request has no answer. -/
inductive Refusal (ε : Type) where
  /-- the computation failed -/
  | failed (e : ε)
  /-- what is persisted under the key is too deep -/
  | tooDeep (e : Json.TooDeep)
  /-- the computation succeeded, and its entry cannot be stored -/
  | unstored (e : StoreError)
  /-- the key is in flight; the outcome of its computation is the answer, if there is one -/
  | waiting

variable {ε : Type}

/-- Puts a key in flight. -/
def claim (s : Store) (key : String) : Store := { s with inFlight := key :: s.inFlight }

/-- Takes a key out of flight. -/
def release (s : Store) (key : String) : Store := { s with inFlight := s.inFlight.erase key }

/-- The entry under a key, computed and stored where it is not there.  The key is taken out of flight when
the computation fails and when its entry has been stored. -/
def getOrCompute (s : Store) (key : String) (compute : Store → Except ε Entry × Store) :
    Except (Refusal ε) Answer × Store :=
  match s.lookup key with
  | (.error e, s) => (.error (.tooDeep e), s)
  | (.ok (some e), s) => (.ok ⟨e, false⟩, s)
  | (.ok none, s) =>
    if s.inFlight.contains key then (.error .waiting, s)
    else
      match compute (s.claim key) with
      | (.error e, s) => (.error (.failed e), s.release key)
      | (.ok e, s) =>
        match s.store key e with
        | (some failure, s) => (.error (.unstored failure), s)
        | (none, s) => (.ok ⟨e, true⟩, s.release key)

/-- A number of lookups of one key. -/
def lookups (s : Store) (key : String) : Nat → Store
  | 0 => s
  | n + 1 => lookups (s.lookup key).2 key n

/-- A request that others for the same key come upon.  The first one computes, the others look the
key up, find it in flight and share the outcome.  Where the entry cannot be stored there is none for
them, and they go on waiting. -/
def getOrComputeTogether (s : Store) (key : String) (others : Nat)
    (compute : Store → Except ε Entry × Store) : List (Except (Refusal ε) Answer) × Store :=
  match s.getOrCompute key fun s => compute (s.lookups key others) with
  | (.ok ⟨e, true⟩, s) => (.ok ⟨e, true⟩ :: List.replicate others (.ok ⟨e, false⟩), s)
  | (.error (.failed e), s) => (List.replicate (others + 1) (.error (.failed e)), s)
  | (.error (.unstored e), s) =>
    (.error (.unstored e) :: List.replicate others (.error .waiting), s)
  | (answer, s) => (List.replicate (others + 1) answer, s.lookups key others)

@[simp] theorem inFlight_warn (s : Store) (w : Warning) : (s.warn w).inFlight = s.inFlight := rfl

@[simp] theorem inFlight_remember (s : Store) (key : String) (e : Entry) :
    (s.remember key e).inFlight = s.inFlight := rfl

/-- Looking up leaves the keys in flight alone. -/
@[simp] theorem inFlight_lookup (s : Store) (key : String) :
    (s.lookup key).2.inFlight = s.inFlight := by
  unfold lookup
  split
  · rfl
  · split <;> rfl

/-- Storing leaves the keys in flight alone. -/
@[simp] theorem inFlight_store (s : Store) (key : String) (e : Entry) :
    (s.store key e).2.inFlight = s.inFlight := by
  unfold store
  split
  · rfl
  · simp only
    split
    · rfl
    · unfold persist
      split
      · split
        · rfl
        · rfl
        · split
          · rfl
          · split <;> rfl
      · rfl

end Store

end SheetBuild.Cache
