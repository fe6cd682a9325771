import SheetBuild.Yaml.Tag
import SheetBuild.Yaml.Token
set_option autoImplicit false

/-!
# Nodes

The document of a token list, as a graph: a node is known by its number, and an alias stands for the
number of the node with its anchor, so that a collection may hold itself.

Each reader takes tokens off the front.  Its first argument bounds the depth of the calls, which the
number of tokens bounds in turn.  So a text is read however deep its collections stand inside one
another; that a host runs out of calls on some of them is left out here.
-/

namespace SheetBuild.Yaml

/-- What a node holds; other nodes are given by their numbers. -/
inductive Content where
  | scalar (text : List Text.Point)
  | sequence (items : List Nat)
  | mapping (entries : List (Nat × Nat))
  deriving DecidableEq, Repr

/-- A node. -/
structure Node where
  tag : Tag
  content : Content
  deriving DecidableEq, Repr

/-- The nodes of a document by their numbers. -/
abbrev Nodes : Type := Array Node

/-- The state of reading nodes. -/
structure NodeState where
  tokens : List Token
  /-- what is wrong behind the last token -/
  fault : Fault
  nodes : Nodes := #[]
  anchors : List (String × Nat) := []
  /-- what the tag handles stand for -/
  handles : List (String × String) := []

/-- A reader of nodes. -/
abbrev NodeReader (α : Type) : Type := StateT NodeState (Except Fault) α

namespace NodeReader

/-- The handles that every document has. -/
def commonHandles : List (String × String) := [("!", "!"), ("!!", Tag.common)]

/-- Ends in a fault of the document. -/
def refuse {α : Type} : NodeReader α := throw .malformed

/-- The next token, which stays. -/
def peek : NodeReader Token := fun s =>
  match s.tokens with
  | t :: _ => .ok (t, s)
  | [] => .error s.fault

/-- Takes the next token off. -/
def skip : NodeReader Unit := modify fun s => { s with tokens := s.tokens.drop 1 }

/-- Adds a node. -/
def add (tag : Tag) (content : Content) : NodeReader Nat := fun s =>
  .ok (s.nodes.size, { s with nodes := s.nodes.push ⟨tag, content⟩ })

/-- Completes the content of a node. -/
def complete (id : Nat) (content : Content) : NodeReader Nat := fun s =>
  .ok (id, { s with nodes := s.nodes.modify id fun n => { n with content } })

/-- Gives a node its anchor. -/
def anchored (anchor : Option String) (id : Nat) : NodeReader Nat := fun s =>
  .ok (id, match anchor with
    | some a => { s with anchors := (a, id) :: s.anchors }
    | none => s)

/-- An empty scalar. -/
def addEmpty : NodeReader Nat := add .null (.scalar [])

/-- The anchor and the tag in front of a node, in either order. -/
structure Properties where
  anchor : Option String := none
  tag : Option (Option String × String) := none

/-- Reads the properties in front of a node. -/
def properties : NodeReader Properties := do
  match ← peek with
  | .anchor a =>
    skip
    match ← peek with
    | .tag h s => do skip; return ⟨some a, some (h, s)⟩
    | _ => return ⟨some a, none⟩
  | .tag h s =>
    skip
    match ← peek with
    | .anchor a => do skip; return ⟨some a, some (h, s)⟩
    | _ => return ⟨none, some (h, s)⟩
  | _ => return ⟨none, none⟩

/-- The full name of a tag. -/
def tagName (tag : Option (Option String × String)) : NodeReader (Option String) := do
  match tag with
  | none => return none
  | some (none, suffix) => return some suffix
  | some (some handle, suffix) =>
    match (← get).handles.lookup handle with
    | some meaning => return some (meaning ++ suffix)
    | none => refuse

/-- The type of a collection: as tagged, or the common one of its kind. -/
def collectionTag (name : Option String) (common : Tag) : Tag :=
  match name with
  | none => common
  | some n => if n = "!" then common else Tag.ofName n

/-- The type of a scalar.  The tag `!` asks for the type of a plain one. -/
def scalarTag (name : Option String) (text : List Text.Point) (plain : Bool) : Tag :=
  match name with
  | none => if plain then Tag.ofPoints text else .text
  | some n => if n = "!" then Tag.ofPoints text else Tag.ofName n

/-- Refuses an anchor that a node of the document has already. -/
def checkAnchor (anchor : Option String) : NodeReader Unit := do
  match anchor with
  | none => return
  | some a => if ((← get).anchors.lookup a).isSome then refuse else return

/-- Where an entry may be missing: the tokens that come in its place. -/
abbrev Missing : Type := Token → Bool

/-- The end of a block sequence, or its next entry. -/
def isBlockItem : Missing
  | .blockEntry => true
  | .blockEnd => true
  | _ => false

/-- What may follow a sequence that stands at the column of its mapping, or its next entry. -/
def isOpenItem : Missing
  | .blockEntry => true
  | .key => true
  | .value => true
  | .blockEnd => true
  | _ => false

/-- The end of a block mapping, or its next mark. -/
def isBlockField : Missing
  | .key => true
  | .value => true
  | .blockEnd => true
  | _ => false

/-- The end of an item of a flow sequence. -/
def isFlowItemEnd : Missing
  | .flowEntry => true
  | .flowSequenceEnd => true
  | _ => false

/-- The end of an entry of a flow mapping. -/
def isFlowFieldEnd : Missing
  | .flowEntry => true
  | .flowMappingEnd => true
  | _ => false

/-- The mark of a value, or one of the given ends. -/
def isValueOr (ends : Missing) : Missing
  | .value => true
  | t => ends t

mutual

/-- A node.  In block style it may be a block collection; `open_` allows a sequence that stands at
the column of its mapping. -/
def node : Nat → Bool → Bool → NodeReader Nat
  | 0, _, _ => refuse
  | n + 1, block, open_ => do
    match ← peek with
    | .alias name =>
      skip
      match (← get).anchors.lookup name with
      | some id => return id
      | none => refuse
    | _ =>
      let p ← properties
      let tag ← tagName p.tag
      let t ← peek
      let sequence : NodeReader Nat := do
        checkAnchor p.anchor
        add (collectionTag tag .sequence) (.sequence []) >>= anchored p.anchor
      let mapping : NodeReader Nat := do
        checkAnchor p.anchor
        add (collectionTag tag .mapping) (.mapping []) >>= anchored p.anchor
      let scalar (text : List Text.Point) (plain : Bool) : NodeReader Nat := do
        checkAnchor p.anchor
        add (scalarTag tag text plain) (.scalar text) >>= anchored p.anchor
      match t, block, open_ with
      | .blockEntry, _, true => do
        let id ← sequence
        let items ← openItems n []
        complete id (.sequence items)
      | .scalar text plain, _, _ => do
        skip
        scalar text plain
      | .flowSequenceStart, _, _ => do
        let id ← sequence
        skip
        let items ← flowItems n true []
        complete id (.sequence items)
      | .flowMappingStart, _, _ => do
        let id ← mapping
        skip
        let entries ← flowFields n true []
        complete id (.mapping entries)
      | .blockSequenceStart, true, _ => do
        let id ← sequence
        skip
        let items ← blockItems n []
        complete id (.sequence items)
      | .blockMappingStart, true, _ => do
        let id ← mapping
        skip
        let entries ← blockFields n []
        complete id (.mapping entries)
      | _, _, _ =>
        if p.anchor.isSome || tag.isSome then scalar [] true else refuse

/-- A node, or an empty scalar where the next token shows that there is none. -/
def nodeUnless : Nat → Missing → Bool → Bool → NodeReader Nat
  | 0, _, _, _ => refuse
  | n + 1, missing, block, open_ => do
    if missing (← peek) then addEmpty else node n block open_

/-- The items of a block sequence. -/
def blockItems : Nat → List Nat → NodeReader (List Nat)
  | 0, _ => refuse
  | n + 1, acc => do
    match ← peek with
    | .blockEntry =>
      skip
      let id ← nodeUnless n isBlockItem true false
      blockItems n (id :: acc)
    | .blockEnd => do
      skip
      return acc.reverse
    | _ => refuse

/-- The items of a sequence that stands at the column of its mapping. -/
def openItems : Nat → List Nat → NodeReader (List Nat)
  | 0, _ => refuse
  | n + 1, acc => do
    match ← peek with
    | .blockEntry =>
      skip
      let id ← nodeUnless n isOpenItem true false
      openItems n (id :: acc)
    | _ => return acc.reverse

/-- The entries of a block mapping. -/
def blockFields : Nat → List (Nat × Nat) → NodeReader (List (Nat × Nat))
  | 0, _ => refuse
  | n + 1, acc => do
    match ← peek with
    | .key =>
      skip
      let key ← nodeUnless n isBlockField true true
      let value ← valueAfter n isBlockField true
      blockFields n ((key, value) :: acc)
    | .blockEnd => do
      skip
      return acc.reverse
    | _ => refuse

/-- The value behind a key, or an empty scalar. -/
def valueAfter : Nat → Missing → Bool → NodeReader Nat
  | 0, _, _ => refuse
  | n + 1, missing, block => do
    match ← peek with
    | .value =>
      skip
      nodeUnless n missing block block
    | _ => addEmpty

/-- The items of a flow sequence; one with a key is a mapping of one entry. -/
def flowItems : Nat → Bool → List Nat → NodeReader (List Nat)
  | 0, _, _ => refuse
  | n + 1, first, acc => do
    match ← peek with
    | .flowSequenceEnd => do
      skip
      return acc.reverse
    | t =>
      if !first then
        if t = .flowEntry then skip else refuse
      match ← peek with
      | .key => do
        let id ← add .mapping (.mapping [])
        skip
        let key ← nodeUnless n (isValueOr isFlowItemEnd) false false
        let value ← valueAfter n isFlowItemEnd false
        let id ← complete id (.mapping [(key, value)])
        flowItems n false (id :: acc)
      | .flowSequenceEnd => do
        skip
        return acc.reverse
      | _ => do
        let id ← node n false false
        flowItems n false (id :: acc)

/-- The entries of a flow mapping; one without a key mark has no value. -/
def flowFields : Nat → Bool → List (Nat × Nat) → NodeReader (List (Nat × Nat))
  | 0, _, _ => refuse
  | n + 1, first, acc => do
    match ← peek with
    | .flowMappingEnd => do
      skip
      return acc.reverse
    | t =>
      if !first then
        if t = .flowEntry then skip else refuse
      match ← peek with
      | .key => do
        skip
        let key ← nodeUnless n (isValueOr isFlowFieldEnd) false false
        let value ← valueAfter n isFlowFieldEnd false
        flowFields n false ((key, value) :: acc)
      | .flowMappingEnd => do
        skip
        return acc.reverse
      | _ => do
        let key ← node n false false
        let value ← addEmpty
        flowFields n false ((key, value) :: acc)

end

/-- Reads the directives in front of a document. -/
def directives : Nat → Bool → List (String × String) → NodeReader Unit
  | 0, _, _ => refuse
  | n + 1, versioned, handles => do
    match ← peek with
    | .directive (.version major) => do
      skip
      if versioned || major ≠ 1 then refuse else directives n true handles
    | .directive (.handle name target) => do
      skip
      if (handles.lookup name).isSome then refuse
      else directives n versioned ((name, target) :: handles)
    | .directive .other => do
      skip
      directives n versioned handles
    | _ => modify fun s => { s with handles := handles ++ commonHandles }

/-- Goes over the marks of the ends of documents. -/
def skipEnds : Nat → NodeReader Unit
  | 0 => refuse
  | n + 1 => do
    match ← peek with
    | .documentEnd => do
      skip
      skipEnds n
    | _ => return

/-- The content of a document that begins with a mark. -/
def content (n : Nat) : NodeReader Nat := do
  match ← peek with
  | .directive _ => addEmpty
  | .documentStart => addEmpty
  | .documentEnd => addEmpty
  | .streamEnd => addEmpty
  | _ => node n true false

/-- A document that begins with directives or with a mark. -/
def explicitDocument (n : Nat) : NodeReader Nat := do
  directives n false []
  match ← peek with
  | .documentStart => do
    skip
    content n
  | _ => refuse

/-- Makes sure that nothing follows the document. -/
def finish (n : Nat) : NodeReader Unit := do
  skipEnds n
  match ← peek with
  | .streamEnd => return
  | _ =>
    directives n false []
    refuse

/-- The root of the only document, if there is one. -/
def document (n : Nat) : NodeReader (Option Nat) := do
  match ← peek with
  | .streamEnd => return none
  | .directive _ => do
    let root ← explicitDocument n
    finish n
    return some root
  | .documentStart => do
    let root ← explicitDocument n
    finish n
    return some root
  | _ =>
    modify fun s => { s with handles := commonHandles }
    let root ← node n true false
    finish n
    return some root

end NodeReader

/-- The nodes of a text, with the number of the root where there is a document. -/
def readNodes (text : List Char) : Except Fault (Option Nat × Nodes) :=
  let ts := Tokens.ofText text
  match (NodeReader.document (4 * ts.tokens.length + 8)).run { tokens := ts.tokens, fault := ts.fault } with
  | .error e => .error e
  | .ok (root, s) => .ok (root, s.nodes)

end SheetBuild.Yaml
