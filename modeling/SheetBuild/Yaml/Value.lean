import SheetBuild.Text.Base64
import SheetBuild.Yaml.Node
import SheetBuild.Yaml.Numeral
set_option autoImplicit false

/-!
# Values

The values that the nodes of a document stand for.  A mapping first takes in the entries of the
mappings that its merge keys name.  A collection is known by the number of its node, and its content
is read only when it is its turn: the root first, then what it holds, and so on.  So the first fault
in this order is the one that is reported.
-/

namespace SheetBuild.Yaml

/-- A value.  Of dates, floating-point numbers and bytes only the type is kept. -/
inductive Value where
  | null
  | flag (b : Bool)
  | integer (i : Int)
  | real
  | moment
  | binary
  | text (s : Text.Loose)
  /-- a key and a value, as an item of a list -/
  | pair
  | list (id : Nat)
  | mapping (id : Nat)
  | set (id : Nat)
  deriving DecidableEq, Repr

/-- Whether a value can be a key. -/
def Value.isKey : Value → Bool
  | .list _ => false
  | .mapping _ => false
  | .set _ => false
  | _ => true

/-- The values of a document. -/
structure Document where
  root : Value := .null
  /-- the items of the lists, by number -/
  lists : List (Nat × List Value) := []
  /-- the entries of the mappings and sets, by number -/
  mappings : List (Nat × List (Value × Value)) := []
  deriving DecidableEq, Repr

namespace Document

/-- The entries of a mapping; of several with one key the last counts. -/
def entries? (d : Document) (v : Value) : Option (List (Value × Value)) :=
  match v with
  | .mapping id => some ((d.mappings.lookup id).getD [])
  | _ => none

/-- The items of a list. -/
def items? (d : Document) (v : Value) : Option (List Value) :=
  match v with
  | .list id => some ((d.lists.lookup id).getD [])
  | _ => none

/-- The value under a name. -/
def field? (entries : List (Value × Value)) (name : String) : Option Value :=
  (entries.reverse.find? fun e => e.1 = .text (.whole name)).map (·.2)

end Document

/-- The state of reading values. -/
structure ValueState where
  nodes : Nodes
  /-- the values of the nodes that have been met -/
  built : List (Nat × Value) := []
  /-- the collections whose content has not been read, the latest first -/
  waiting : List Nat := []
  lists : List (Nat × List Value) := []
  mappings : List (Nat × List (Value × Value)) := []

/-- A reader of values. -/
abbrev ValueReader (α : Type) : Type := StateT ValueState (Except Fault) α

namespace ValueReader

/-- Ends in a fault of the document. -/
def refuse {α : Type} : ValueReader α := throw .malformed

/-- The node of a number. -/
def node (id : Nat) : ValueReader Node := fun s =>
  match s.nodes[id]? with
  | some n => .ok (n, s)
  | none => .error .malformed

/-- Changes the node of a number. -/
def change (id : Nat) (f : Node → Node) : ValueReader Unit :=
  modify fun s => { s with nodes := s.nodes.modify id f }

/-- The entries of a node that has to be a mapping. -/
def entriesOf (id : Nat) : ValueReader (List (Nat × Nat)) := do
  match (← node id).content with
  | .mapping entries => return entries
  | _ => refuse

/-- The text of a node that has to be a scalar.  A mapping with a default value stands for it. -/
def textOf : Nat → Nat → ValueReader (List Text.Point)
  | 0, _ => refuse
  | n + 1, id => do
    match (← node id).content with
    | .scalar text => return text
    | .sequence _ => refuse
    | .mapping entries =>
      match ← entries.findM? fun e => return (← node e.1).tag = .default with
      | some e => textOf n e.2
      | none => refuse

mutual

/-- Takes the entries under the merge keys of a mapping into it, in front of its own.  A key for the
default value becomes an ordinary one. -/
def flatten : Nat → Nat → ValueReader Unit
  | 0, _ => refuse
  | n + 1, id => do
    let entries ← entriesOf id
    flattenFrom n (entries.length + 1) id 0 []
termination_by n => (n, 0, 0)

/-- Goes on with the entry at an index; `merged` are the entries taken in so far. -/
def flattenFrom : Nat → Nat → Nat → Nat → List (Nat × Nat) → ValueReader Unit
  | n + 1, m + 1, id, index, merged => do
    let entries ← entriesOf id
    match entries[index]? with
    | none =>
      if merged ≠ [] then
        change id fun nd => { nd with content := .mapping (merged ++ entries) }
    | some (key, value) =>
      match (← node key).tag with
      | .merge => do
        change id fun nd => { nd with content := .mapping (entries.eraseIdx index) }
        match (← node value).content with
        | .mapping _ => do
          flatten n value
          flattenFrom (n + 1) m id index (merged ++ (← entriesOf value))
        | .sequence items => do
          let lists ← flattenAll n items []
          flattenFrom (n + 1) m id index (merged ++ lists)
        | .scalar _ => refuse
      | .default => do
        change key fun nd => { nd with tag := .text }
        flattenFrom (n + 1) m id (index + 1) merged
      | _ => flattenFrom (n + 1) m id (index + 1) merged
  | _, _, _, _, _ => refuse
termination_by n m => (n, 2, m)

/-- The entries of several mappings, those of the last one first. -/
def flattenAll (n : Nat) : List Nat → List (Nat × Nat) → ValueReader (List (Nat × Nat))
  | [], acc => return acc
  | id :: ids, acc => do
    flatten n id
    let entries ← entriesOf id
    flattenAll n ids (entries ++ acc)
termination_by ids => (n, 1, ids.length)

end

/-- A bound on the depth of merges: each takes an entry out of a mapping. -/
def depth : ValueReader Nat := do return 2 * (← get).nodes.size + 4

/-- Lets a check of a scalar end the reading. -/
def check {α : Type} (r : Except Fault α) : ValueReader α := fun s => r.map fun a => (a, s)

/-- Keeps a collection for later. -/
def await (id : Nat) (v : Value) : ValueReader Value := do
  modify fun s => { s with waiting := id :: s.waiting }
  return v

/-- The bytes that a scalar writes in base64, of which only the form is checked. -/
def binary (text : List Text.Point) : ValueReader Value :=
  match Text.Point.chars? text with
  | some cs =>
    if cs.all (·.toNat < 128) && (Text.Base64.decode cs).isOk then return .binary else refuse
  | none => refuse

/-- The value of a node that has not been met. -/
def build (id : Nat) : ValueReader Value := do
  let text : ValueReader (List Text.Point) := do textOf (← depth) id
  match (← node id).tag with
  | .null => do
    let _ ← text
    return .null
  | .flag => do return .flag (← check (Numeral.flag (← text)))
  | .integer => do return .integer (← check (Numeral.integer (← text)))
  | .real => do
    check (Numeral.checkReal (← text))
    return .real
  | .moment => do
    let t ← text
    match (← node id).content with
    | .scalar _ => check (Numeral.checkMoment t)
    | _ => throw .momentOfMapping
    return .moment
  | .binary => do binary (← text)
  | .text => do return .text (.ofPoints (← text))
  | .sequence => await id (.list id)
  | .orderedMap => await id (.list id)
  | .pairs => await id (.list id)
  | .mapping => await id (.mapping id)
  | .set => await id (.set id)
  | .merge => refuse
  | .default => refuse
  | .unknown => refuse

/-- The value of a node. -/
def value (id : Nat) : ValueReader Value := do
  match (← get).built.lookup id with
  | some v => return v
  | none =>
    let v ← build id
    modify fun s => { s with built := (id, v) :: s.built }
    return v

/-- The only entry of a node, as an item of a list. -/
def pair (id : Nat) : ValueReader Value := do
  match ← entriesOf id with
  | [(key, v)] => do
    let _ ← value key
    let _ ← value v
    return .pair
  | _ => refuse

/-- An entry of a mapping. -/
def entry (e : Nat × Nat) : ValueReader (Value × Value) := do
  let key ← value e.1
  if !key.isKey then refuse
  let v ← value e.2
  return (key, v)

/-- Reads the entries of a mapping or of a set. -/
def fillEntries (id : Nat) : ValueReader Unit := do
  flatten (← depth) id
  let es ← (← entriesOf id).mapM entry
  modify fun s => { s with mappings := (id, es) :: s.mappings }

/-- Reads the content of a collection. -/
def fill (id : Nat) : ValueReader Unit := do
  let nd ← node id
  match nd.tag, nd.content with
  | .sequence, .sequence items => do
    let vs ← items.mapM value
    modify fun s => { s with lists := (id, vs) :: s.lists }
  | .orderedMap, .sequence items => do
    let vs ← items.mapM pair
    modify fun s => { s with lists := (id, vs) :: s.lists }
  | .pairs, .sequence items => do
    let vs ← items.mapM pair
    modify fun s => { s with lists := (id, vs) :: s.lists }
  | .mapping, .mapping _ => fillEntries id
  | .set, .mapping _ => fillEntries id
  | _, _ => refuse

/-- Reads the content of all collections, in the order in which they were met.  Every round reads one
at least, so the number of nodes bounds the rounds. -/
def fillAll : Nat → ValueReader Unit
  | 0 => return
  | n + 1 => do
    match (← get).waiting.reverse with
    | [] => return
    | ids =>
      modify fun s => { s with waiting := [] }
      ids.forM fill
      fillAll n

end ValueReader

/-- The document of a text; null where the text holds none. -/
def Document.ofText (text : List Char) : Except Fault Document :=
  match readNodes text with
  | .error e => .error e
  | .ok (none, _) => .ok {}
  | .ok (some root, nodes) =>
    let read : ValueReader Value := do
      let v ← ValueReader.value root
      ValueReader.fillAll (nodes.size + 1)
      return v
    match read.run { nodes } with
    | .error e => .error e
    | .ok (root, s) => .ok ⟨root, s.lists, s.mappings⟩

end SheetBuild.Yaml
