import SheetBuild.Proofs.Yaml.Plain
set_option autoImplicit false

/-!
# Where faults of values come from

A text that is a YAML document can still have a value that cannot be read.  Then the fault is in a
scalar: a node of the document is announced to be a flag, a number or a date, and the text that it
holds writes none (`misfit_of_ofText`).  A mapping with a default value counts as the text of that
value.  Merge keys and default keys change the nodes while values are read, but never the text of a
scalar, and no type to one that can be missed.
-/

namespace SheetBuild.Yaml

/-- Whether a text writes a value of a type. -/
def Tag.check (tag : Tag) (text : List Text.Point) : Except Fault Unit :=
  match tag with
  | .flag => (Numeral.flag text).map fun _ => ()
  | .integer => (Numeral.integer text).map fun _ => ()
  | .real => Numeral.checkReal text
  | .moment => Numeral.checkMoment text
  | _ => .ok ()

namespace Nodes

/-- A node stands for a text: it is a scalar with this text, or a mapping that has it for its default
value. -/
def Holds (nodes : Nodes) (nd : Node) (text : List Text.Point) : Prop :=
  nd.content = .scalar text ∨
    (∃ entries, nd.content = .mapping entries) ∧ ∃ nd' ∈ nodes, nd'.content = .scalar text

/-- A fault in a node that does not hold what it is announced to be. -/
inductive Misfit (nodes : Nodes) : Fault → Prop where
  | text {nd : Node} {text : List Text.Point} {f : Fault} (hnd : nd ∈ nodes) (htext : nodes.Holds nd text)
      (hcheck : nd.tag.check text = .error f) : Misfit nodes f
  | mapping {nd : Node} (hnd : nd ∈ nodes) (htag : nd.tag = .moment)
      (hcontent : ∃ entries, nd.content = .mapping entries) : Misfit nodes .momentOfMapping

end Nodes

/-! ## Nodes that change -/

/-- What a node can become while values are read. -/
structure Node.Becomes (a b : Node) : Prop where
  tag : b.tag = a.tag ∨ b.tag = .text
  content : b.content = a.content ∨
    (∃ entries, a.content = .mapping entries) ∧ ∃ entries, b.content = .mapping entries

theorem Node.Becomes.refl (nd : Node) : nd.Becomes nd := ⟨.inl rfl, .inl rfl⟩

theorem Node.Becomes.trans {a b c : Node} (h : a.Becomes b) (h' : b.Becomes c) : a.Becomes c where
  tag := by
    rcases h'.tag with heq | htext
    · rw [heq]
      exact h.tag
    · exact .inr htext
  content := by
    rcases h'.content with heq | ⟨hb, hc⟩
    · rw [heq]
      exact h.content
    · rcases h.content with heq | ⟨ha, -⟩
      · exact .inr ⟨heq ▸ hb, hc⟩
      · exact .inr ⟨ha, hc⟩

namespace Nodes

variable {nodes N : Nodes} {id : Nat}

/-- Nodes each of which was one of a document. -/
def ComesFrom (nodes N : Nodes) : Prop := ∀ nd ∈ nodes, ∃ nd₀ ∈ N, nd₀.Becomes nd

theorem ComesFrom.refl (N : Nodes) : N.ComesFrom N := fun nd hnd => ⟨nd, hnd, .refl nd⟩

theorem ComesFrom.modify (h : nodes.ComesFrom N) {f : Node → Node}
    (hf : ∀ nd, nodes[id]? = some nd → nd.Becomes (f nd)) : ComesFrom (nodes.modify id f) N := by
  intro nd hnd
  obtain ⟨i, hi⟩ := Array.mem_iff_getElem?.1 hnd
  rw [Array.getElem?_modify] at hi
  split at hi
  · rename_i heq
    subst heq
    obtain ⟨nd', hnd', rfl⟩ := Option.map_eq_some_iff.1 hi
    obtain ⟨nd₀, hnd₀, hbecomes⟩ := h nd' (Array.mem_of_getElem? hnd')
    exact ⟨nd₀, hnd₀, hbecomes.trans (hf nd' hnd')⟩
  · exact h nd (Array.mem_of_getElem? hi)

/-- The text of a scalar is that of a scalar of the document. -/
theorem ComesFrom.scalar (h : nodes.ComesFrom N) {nd : Node} (hnd : nd ∈ nodes) {text : List Text.Point}
    (htext : nd.content = .scalar text) : ∃ nd₀ ∈ N, nd₀.Becomes nd ∧ nd₀.content = .scalar text := by
  obtain ⟨nd₀, hnd₀, hbecomes⟩ := h nd hnd
  refine ⟨nd₀, hnd₀, hbecomes, ?_⟩
  rcases hbecomes.content with heq | ⟨-, entries, hentries⟩
  · rw [← heq, htext]
  · rw [htext] at hentries
    exact absurd hentries (by simp)

/-- A mapping was one in the document. -/
theorem ComesFrom.mapping (h : nodes.ComesFrom N) {nd : Node} (hnd : nd ∈ nodes)
    (hcontent : ∃ entries, nd.content = .mapping entries) :
    ∃ nd₀ ∈ N, nd₀.Becomes nd ∧ ∃ entries, nd₀.content = .mapping entries := by
  obtain ⟨nd₀, hnd₀, hbecomes⟩ := h nd hnd
  refine ⟨nd₀, hnd₀, hbecomes, ?_⟩
  rcases hbecomes.content with heq | ⟨hmapping, -⟩
  · exact heq ▸ hcontent
  · exact hmapping

end Nodes

namespace ValueReader

variable {α β : Type} {N : Nodes} {s : ValueState} {id : Nat}

/-! ## Reading without a change -/

/-- A reader that leaves the state as it is, gives something with a property, or refuses. -/
def Reads (Q : α → Prop) (m : ValueReader α) (s : ValueState) : Prop :=
  (∃ a, m s = .ok (a, s) ∧ Q a) ∨ m s = .error .malformed

theorem Reads.bind {Q : α → Prop} {R : β → Prop} {m : ValueReader α} {k : α → ValueReader β}
    (h : Reads Q m s) (hk : ∀ a, Q a → Reads R (k a) s) : Reads R (m >>= k) s := by
  rcases h with ⟨a, ha, hq⟩ | hrefuses
  · rcases hk a hq with ⟨b, hb, hr⟩ | hrefuses
    · exact .inl ⟨b, (bind_of_ok ha k).trans hb, hr⟩
    · exact .inr ((bind_of_ok ha k).trans hrefuses)
  · exact .inr (bind_of_error hrefuses k)

/-- A reader whose faults are in nodes of a document, and that leaves nodes of the document. -/
structure Honest (N : Nodes) (m : ValueReader α) (s : ValueState) : Prop where
  fault : ∀ f, m s = .error f → f = .malformed ∨ N.Misfit f
  nodes : ∀ a s', m s = .ok (a, s') → s'.nodes.ComesFrom N

theorem Honest.bind {m : ValueReader α} {k : α → ValueReader β} (h : Honest N m s)
    (hk : ∀ a s', m s = .ok (a, s') → s'.nodes.ComesFrom N → Honest N (k a) s') :
    Honest N (m >>= k) s := by
  cases hm : m s with
  | error f =>
    have hbind : (m >>= k) s = .error f := bind_of_error hm k
    constructor
    · intro f' hf'
      obtain rfl := Except.error.inj (hbind.symm.trans hf')
      exact h.fault f hm
    · intro b s' hb
      exact absurd (hbind.symm.trans hb) (by simp)
  | ok r =>
    obtain ⟨a, s'⟩ := r
    have hrest := hk a s' hm (h.nodes a s' hm)
    have hbind : (m >>= k) s = k a s' := bind_of_ok hm k
    exact ⟨fun f hf => hrest.fault f (hbind.symm.trans hf),
      fun b t hb => hrest.nodes b t (hbind.symm.trans hb)⟩

end ValueReader

end SheetBuild.Yaml
