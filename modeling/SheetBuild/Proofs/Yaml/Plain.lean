import SheetBuild.Yaml.Value
set_option autoImplicit false

/-!
# Documents of plain fields

Only merge keys and default keys make something else of a mapping than it is in the text.  Without
them a mapping is taken as it stands (`flatten_of_plain`), which gives the document of a text with one
field that holds a text or a list (`ofText_textField`, `ofText_listField`).
-/

namespace SheetBuild.Yaml

open SheetBuild.Text (Loose Point)

/-- Entries none of which has a merge key or a default key. -/
def Nodes.PlainKeys (nodes : Nodes) (entries : List (Nat × Nat)) : Prop :=
  ∀ e ∈ entries, ∃ nd, nodes[e.1]? = some nd ∧ nd.tag ≠ .merge ∧ nd.tag ≠ .default

namespace ValueReader

variable {α β : Type} {s s' : ValueState} {id : Nat} {tag : Tag} {entries : List (Nat × Nat)}

theorem bind_of_ok {m : ValueReader α} {a : α} (h : m s = .ok (a, s')) (k : α → ValueReader β) :
    (m >>= k) s = k a s' := by
  simp only [bind, StateT.bind, Except.bind, h]

theorem bind_of_error {m : ValueReader α} {f : Fault} (h : m s = .error f) (k : α → ValueReader β) :
    (m >>= k) s = .error f := by
  simp only [bind, StateT.bind, Except.bind, h]

theorem node_eq {nd : Node} (h : s.nodes[id]? = some nd) : node id s = .ok (nd, s) := by
  simp only [node, h]

theorem entriesOf_eq (hid : s.nodes[id]? = some ⟨tag, .mapping entries⟩) :
    entriesOf id s = .ok (entries, s) := by
  rw [entriesOf, bind_of_ok (node_eq hid)]
  rfl

/-- From any entry on, a mapping without merge keys and default keys stays as it is. -/
theorem flattenFrom_of_plain (hid : s.nodes[id]? = some ⟨tag, .mapping entries⟩)
    (hplain : s.nodes.PlainKeys entries)
    (n : Nat) {m index : Nat} (hindex : index ≤ entries.length) (hm : entries.length < index + m) :
    flattenFrom (n + 1) m id index [] s = .ok ((), s) := by
  induction m generalizing index with
  | zero => omega
  | succ m ih =>
    rw [flattenFrom, bind_of_ok (entriesOf_eq hid)]
    cases hentry : entries[index]? with
    | none => rfl
    | some e =>
      obtain ⟨⟨keyTag, content⟩, hnd, hmerge, hdefault⟩ := hplain e (List.mem_of_getElem? hentry)
      have hlt : index < entries.length := (List.getElem?_eq_some_iff.1 hentry).1
      have hrest : flattenFrom (n + 1) m id (index + 1) [] s = .ok ((), s) :=
        ih hlt (by omega)
      simp only
      rw [bind_of_ok (node_eq hnd)]
      cases keyTag with
      | merge => exact absurd rfl hmerge
      | default => exact absurd rfl hdefault
      | _ => exact hrest

/-- A mapping without merge keys and default keys is taken as it stands. -/
theorem flatten_of_plain (hid : s.nodes[id]? = some ⟨tag, .mapping entries⟩)
    (hplain : s.nodes.PlainKeys entries) (n : Nat) : flatten (n + 2) id s = .ok ((), s) := by
  rw [flatten, bind_of_ok (entriesOf_eq hid)]
  exact flattenFrom_of_plain hid hplain n (Nat.zero_le _) (by omega)

/-- The entries of such a mapping are the values of its keys with the values of what is under them. -/
theorem fillEntries_of_plain (hid : s.nodes[id]? = some ⟨tag, .mapping entries⟩)
    (hplain : s.nodes.PlainKeys entries) :
    fillEntries id s = (do
      let es ← entries.mapM entry
      modify fun s => { s with mappings := (id, es) :: s.mappings } : ValueReader Unit) s := by
  have hdepth : depth s = .ok (2 * s.nodes.size + 2 + 2, s) := rfl
  rw [fillEntries, bind_of_ok hdepth, bind_of_ok (flatten_of_plain hid hplain _),
    bind_of_ok (entriesOf_eq hid)]

/-- A round of reading collections goes over those that wait, the earliest first. -/
theorem fillAll_of_forM {ids : List Nat} (hwaiting : s.waiting.reverse = id :: ids)
    (h : (id :: ids).forM fill { s with waiting := [] } = .ok ((), s')) (n : Nat) :
    fillAll (n + 1) s = fillAll n s' := by
  have hget : (get : ValueReader ValueState) s = .ok (s, s) := rfl
  have hclear : (modify fun s => { s with waiting := [] } : ValueReader Unit) s
      = .ok ((), { s with waiting := [] }) := rfl
  rw [fillAll, bind_of_ok hget, hwaiting]
  simp only
  rw [bind_of_ok hclear, bind_of_ok h]

end ValueReader

/-! ## Texts with one field -/

/-- The nodes of a text with one field; what it holds comes last. -/
def fieldNodes (name : List Point) (held : List Node) : Nodes :=
  (⟨.mapping, .mapping [(1, 2)]⟩ :: ⟨.text, .scalar name⟩ :: held).toArray

/-- The only entry of a field has a plain key. -/
theorem plainKeys_fieldNodes (name : List Point) (held : List Node) :
    (fieldNodes name held).PlainKeys [(1, 2)] := by
  intro e he
  obtain rfl := List.mem_singleton.1 he
  exact ⟨⟨.text, .scalar name⟩, rfl, Tag.noConfusion, Tag.noConfusion⟩

open ValueReader in
/-- What a document is read to, from its root and from the rounds that follow. -/
theorem ofText_of_rounds {text : List Char} {nodes : Nodes} {root : Value} {s t : ValueState}
    (h : readNodes text = .ok (some 0, nodes)) (hroot : value 0 { nodes } = .ok (root, s))
    (hall : fillAll (nodes.size + 1) s = .ok ((), t)) :
    Document.ofText text = .ok ⟨root, t.lists, t.mappings⟩ := by
  have hread : (value 0 >>= fun v => fillAll (nodes.size + 1) >>= fun _ => pure v) { nodes }
      = .ok (root, t) := by
    rw [bind_of_ok hroot, bind_of_ok hall]
    rfl
  simp only [Document.ofText, h, StateT.run, hread]

open ValueReader in
/-- The document of a text with one field that holds a text. -/
theorem ofText_textField {text : List Char} {name held : List Point}
    (h : readNodes text = .ok (some 0, fieldNodes name [⟨.text, .scalar held⟩])) :
    Document.ofText text = .ok
      { root := .mapping 0
        mappings := [(0, [(.text (.ofPoints name), .text (.ofPoints held))])] } := by
  -- the states before and after the mapping is filled in
  let s : ValueState :=
    { nodes := fieldNodes name [⟨.text, .scalar held⟩], built := [(0, .mapping 0)] }
  let t : ValueState :=
    { s with
      built := (2, .text (.ofPoints held)) :: (1, .text (.ofPoints name)) :: s.built
      mappings := [(0, [(.text (.ofPoints name), .text (.ofPoints held))])] }
  have hfill : fill 0 s = .ok ((), t) :=
    (fillEntries_of_plain (s := s) rfl (plainKeys_fieldNodes name _)).trans rfl
  have hround : [0].forM fill s = .ok ((), t) := bind_of_ok hfill _
  have hwaiting : ({ s with waiting := [0] } : ValueState).waiting.reverse = [0] := rfl
  have hall : fillAll 4 { s with waiting := [0] } = .ok ((), t) :=
    (fillAll_of_forM hwaiting hround 3).trans rfl
  exact ofText_of_rounds h rfl hall

end SheetBuild.Yaml
