import Mathlib.Algebra.Ring.Int.Defs
import Mathlib.Algebra.Ring.Nat
import SheetBuild.Cache.Document
import SheetBuild.Proofs.Json.Recovery
import SheetBuild.Proofs.Record.Accepted
import SheetBuild.Proofs.Text.Utf8
set_option autoImplicit false

/-!
# Entries survive their documents

The content that is written for an entry is read as that entry, with halves of surrogate pairs joined
where a high one stands right before a low one (`ofBytes_contentOf`).  Where the place of a failure has a
number with more digits than are written, nothing is written.  So the entries that are recovered are the
legible ones (`recovered_iff_isLegible`).
-/

namespace SheetBuild

open SheetBuild.Json (Value)
open SheetBuild.Text (Loose)

/-- An integer of no more digits than are read. -/
def Number.Integer.IsShort (i : Int) : Prop := (Nat.toDigits 10 i.natAbs).length ≤ maxDigits

theorem Number.Integer.isShort_iff {i : Int} :
    Number.Integer.IsShort i ↔ i.natAbs < 10 ^ Number.Integer.maxDigits :=
  Nat.length_toDigits_le_iff (by decide) (by decide)

theorem Number.Integer.not_isShort_power : ¬ IsShort (10 ^ maxDigits) := by
  have hpower : ∀ n : Nat, ¬ ((10 : Int) ^ n).natAbs < 10 ^ n := by
    intro n
    rw [Int.natAbs_pow]
    exact Nat.lt_irrefl _
  exact fun hshort => hpower _ (isShort_iff.1 hshort)

/-- The numbers in a diagnostic have no more digits than are read. -/
structure Diagnostic.IsShort (d : Diagnostic) : Prop where
  line : ∀ i, d.line = some i → Number.Integer.IsShort i
  column : ∀ i, d.column = some i → Number.Integer.IsShort i

/-- The numbers in an entry have no more digits than are read. -/
def Entry.IsShort (e : Entry) : Prop := ∀ d, e.diagnostic? = some d → d.IsShort

/-- The texts in a diagnostic. -/
def Diagnostic.texts (d : Diagnostic) : List Loose := d.message :: d.sourceFile.toList

/-- The texts in an entry. -/
def Entry.texts (e : Entry) : List Loose :=
  e.css?.toList ++ e.sourceMap.toList ++ e.dependencies ++ (e.diagnostic?.map (·.texts)).getD []

/-- No high half of a surrogate pair stands right before a low one in the texts of an entry. -/
def Entry.IsApart (e : Entry) : Prop := ∀ t ∈ e.texts, t.isApart = true

instance (e : Entry) : Decidable e.IsApart :=
  inferInstanceAs (Decidable (∀ t ∈ e.texts, t.isApart = true))

/-- An entry that is read back from its document. -/
structure Entry.IsLegible (e : Entry) : Prop where
  short : e.IsShort
  apart : e.IsApart

/-- A diagnostic with the halves in its texts joined. -/
def Diagnostic.joined (d : Diagnostic) : Diagnostic :=
  { d with message := d.message.joined, sourceFile := d.sourceFile.map (·.joined) }

/-- An entry with the halves in its texts joined. -/
def Entry.joined (e : Entry) : Entry where
  outcome :=
    match e.outcome with
    | .css text => .css text.joined
    | .failed d => .failed d.joined
  sourceMap := e.sourceMap.map (·.joined)
  dependencies := e.dependencies.map (·.joined)

namespace Entry

variable {e : Entry}

theorem css?_joined (e : Entry) : e.joined.css? = e.css?.map (·.joined) := by
  obtain ⟨outcome, sourceMap, dependencies⟩ := e
  cases outcome <;> rfl

theorem diagnostic?_joined (e : Entry) : e.joined.diagnostic? = e.diagnostic?.map (·.joined) := by
  obtain ⟨outcome, sourceMap, dependencies⟩ := e
  cases outcome <;> rfl

theorem texts_joined (e : Entry) : e.joined.texts = e.texts.map (·.joined) := by
  have hdiagnostic : ∀ d : Diagnostic, d.joined.texts = d.texts.map (·.joined) := by
    intro d
    simp [Diagnostic.texts, Diagnostic.joined, Option.toList_map]
  rw [texts, texts, css?_joined, diagnostic?_joined]
  cases e.diagnostic? <;> simp [joined, Option.toList_map, hdiagnostic]

/-- Joining the halves in an entry leaves its numbers as they are. -/
theorem isShort_joined : e.joined.IsShort ↔ e.IsShort := by
  unfold IsShort
  rw [diagnostic?_joined]
  constructor
  · intro h d hd
    obtain ⟨hline, hcolumn⟩ := h d.joined (by rw [hd]; rfl)
    exact ⟨hline, hcolumn⟩
  · intro h d hd
    obtain ⟨d', hd', rfl⟩ := Option.map_eq_some_iff.1 hd
    obtain ⟨hline, hcolumn⟩ := h d' hd'
    exact ⟨hline, hcolumn⟩

/-- Once the halves in it are joined, a short entry is legible. -/
theorem IsShort.isLegible_joined (h : e.IsShort) : e.joined.IsLegible where
  short := isShort_joined.2 h
  apart := by
    intro t ht
    rw [texts_joined] at ht
    obtain ⟨u, -, rfl⟩ := List.mem_map.1 ht
    exact Loose.isApart_joined u

/-- An entry stays as it is where halves are joined, if none in it belong together. -/
theorem IsApart.joined_eq (h : e.IsApart) : e.joined = e := by
  have hsame : ∀ t ∈ e.texts, t.joined = t := fun t ht => Loose.joined_eq_self_iff.2 (h t ht)
  have hoption : ∀ o : Option Loose, (∀ t ∈ o, t ∈ e.texts) → o.map (·.joined) = o := by
    intro o ho
    cases o with
    | none => rfl
    | some t => exact congrArg some (hsame t (ho t rfl))
  obtain ⟨outcome, sourceMap, dependencies⟩ := e
  have hmap : sourceMap.map (·.joined) = sourceMap := hoption sourceMap fun t ht => by
    simp [texts, Option.mem_def.1 ht]
  have hdependencies : dependencies.map (·.joined) = dependencies := by
    refine (List.map_congr_left fun t ht => ?_).trans (List.map_id dependencies)
    exact hsame t (by simp [texts, ht])
  cases outcome with
  | css text =>
    have htext : text.joined = text := hsame text (by simp [texts, css?])
    simp only [joined, hmap, hdependencies, htext]
  | failed d =>
    have hmessage : d.message.joined = d.message :=
      hsame d.message (by simp [texts, diagnostic?, Diagnostic.texts])
    have hfile : d.sourceFile.map (·.joined) = d.sourceFile := hoption d.sourceFile fun t ht => by
      simp [texts, diagnostic?, Diagnostic.texts, Option.mem_def.1 ht]
    simp only [joined, Diagnostic.joined, hmap, hdependencies, hmessage, hfile]

/-- An entry that stays as it is where halves are joined has none in it that belong together. -/
theorem isApart_of_joined_eq (h : e.joined = e) : e.IsApart := by
  intro t ht
  rw [← h, texts_joined] at ht
  obtain ⟨u, -, rfl⟩ := List.mem_map.1 ht
  exact Loose.isApart_joined u

end Entry

namespace Cache

/-! ## Fields -/

theorem mem_presentField {name : String} {v : Option Value} {f : String × Value} :
    f ∈ presentField name v ↔ ∃ w, v = some w ∧ f = (name, w) := by
  cases v <;> simp [presentField]

/-! ## Documents are recovered -/

theorem isShort_int {i : Int} : (Value.int i).isShort = true ↔ Number.Integer.IsShort i :=
  decide_eq_true_iff

theorem isShort_diagnosticDocument (d : Diagnostic) :
    (diagnosticDocument d).isShort = true ↔ d.IsShort := by
  rw [diagnosticDocument, Value.isShort, Value.every_object]
  constructor
  · intro h
    refine ⟨fun i hi => isShort_int.1 (h ("line", .int i) ?_).2,
      fun i hi => isShort_int.1 (h ("col", .int i) ?_).2⟩
    · simp [hi, presentField]
    · simp [hi, presentField]
  · intro h f hf
    simp only [List.mem_append, List.mem_cons, List.not_mem_nil, or_false, mem_presentField,
      Option.map_eq_some_iff] at hf
    rcases hf with (((rfl | rfl) | ⟨_, ⟨t, -, rfl⟩, rfl⟩) | ⟨_, ⟨i, hi, rfl⟩, rfl⟩) |
      ⟨_, ⟨i, hi, rfl⟩, rfl⟩
    · exact ⟨rfl, rfl⟩
    · exact ⟨rfl, Value.isShort_ofLoose d.message⟩
    · exact ⟨rfl, Value.isShort_ofLoose t⟩
    · exact ⟨rfl, isShort_int.2 (h.line i hi)⟩
    · exact ⟨rfl, isShort_int.2 (h.column i hi)⟩

theorem isShort_document (e : Entry) : (document e).isShort = true ↔ e.IsShort := by
  rw [document, Value.isShort, Value.every_object]
  constructor
  · intro h d hd
    refine (isShort_diagnosticDocument d).1 (h ("diag", diagnosticDocument d) ?_).2
    simp [hd, presentField]
  · intro h f hf
    simp only [List.mem_append, List.mem_cons, List.not_mem_nil, or_false, mem_presentField,
      Option.map_eq_some_iff] at hf
    rcases hf with (((rfl | rfl) | ⟨_, ⟨t, -, rfl⟩, rfl⟩) | ⟨_, ⟨t, -, rfl⟩, rfl⟩) |
      ⟨_, ⟨d, hd, rfl⟩, rfl⟩
    · exact ⟨rfl, rfl⟩
    · refine ⟨rfl, Value.every_array.2 fun v hv => ?_⟩
      obtain ⟨t, -, rfl⟩ := List.mem_map.1 hv
      exact Value.isShort_ofLoose t
    · exact ⟨rfl, Value.isShort_ofLoose t⟩
    · exact ⟨rfl, Value.isShort_ofLoose t⟩
    · exact ⟨rfl, (isShort_diagnosticDocument d).2 (h d hd)⟩

theorem recovers_diagnosticDocument (room : Nat) {d : Diagnostic} (hshort : d.IsShort)
    (hapart : ∀ t ∈ d.texts, t.isApart = true) : Json.Recovers (room + 1) (diagnosticDocument d) := by
  refine Json.recovers_object ?_ ?_
  · cases d.sourceFile <;> cases d.line <;> cases d.column <;> simp [presentField]
  · intro f hf
    simp only [List.mem_append, List.mem_cons, List.not_mem_nil, or_false, mem_presentField,
      Option.map_eq_some_iff] at hf
    rcases hf with (((rfl | rfl) | ⟨_, ⟨t, ht, rfl⟩, rfl⟩) | ⟨_, ⟨i, hi, rfl⟩, rfl⟩) |
      ⟨_, ⟨i, hi, rfl⟩, rfl⟩
    · exact Json.recovers_text room _
    · exact Json.recovers_ofLoose room (hapart _ (by simp [Diagnostic.texts]))
    · exact Json.recovers_ofLoose room (hapart t (by simp [Diagnostic.texts, ht]))
    · exact Json.recovers_int room (isShort_int.2 (hshort.line i hi))
    · exact Json.recovers_int room (isShort_int.2 (hshort.column i hi))

theorem recovers_document {e : Entry} (h : e.IsLegible) :
    Json.Recovers Json.maxDepth (document e) := by
  have hroom : Json.maxDepth = 988 + 1 + 1 := rfl
  rw [hroom]
  refine Json.recovers_object ?_ ?_
  · obtain ⟨outcome, sourceMap, dependencies⟩ := e
    cases outcome <;> cases sourceMap <;> simp [presentField, Entry.css?, Entry.diagnostic?]
  · intro f hf
    simp only [List.mem_append, List.mem_cons, List.not_mem_nil, or_false, mem_presentField,
      Option.map_eq_some_iff] at hf
    rcases hf with (((rfl | rfl) | ⟨_, ⟨t, ht, rfl⟩, rfl⟩) | ⟨_, ⟨t, ht, rfl⟩, rfl⟩) |
      ⟨_, ⟨d, hd, rfl⟩, rfl⟩
    · exact Json.recovers_text _ _
    · refine Json.recovers_array ?_
      intro v hv
      obtain ⟨t, ht, rfl⟩ := List.mem_map.1 hv
      exact Json.recovers_ofLoose _ (h.apart t (by simp [Entry.texts, ht]))
    · exact Json.recovers_ofLoose _ (h.apart t (by simp [Entry.texts, ht]))
    · exact Json.recovers_ofLoose _ (h.apart t (by simp [Entry.texts, ht]))
    · refine recovers_diagnosticDocument _ (h.short d hd) fun t ht => h.apart t ?_
      simp [Entry.texts, hd, ht]

/-! ## Documents of joined entries -/

theorem map_presentField (name : String) (v : Option Value) :
    (presentField name v).map (fun f => (f.1, Json.compact f.2))
      = ((v.map Json.compact).map (name, ·)).toList := by
  cases v <;> rfl

theorem compact_diagnosticDocument_joined (d : Diagnostic) :
    Json.compact (diagnosticDocument d.joined) = Json.compact (diagnosticDocument d) := by
  refine Json.compact_object_congr ?_
  simp [map_presentField, Diagnostic.joined, Json.compact_joined, Function.comp_def]

/-- The document of an entry is written as it is when the halves in it are joined. -/
theorem compact_document_joined (e : Entry) :
    Json.compact (document e.joined) = Json.compact (document e) := by
  have hitems : Json.compact (.array (e.joined.dependencies.map .ofLoose))
      = Json.compact (.array (e.dependencies.map .ofLoose)) := by
    refine Json.compact_array_congr ?_
    simp [Entry.joined, Json.compact_joined]
  have hmap : e.joined.sourceMap = e.sourceMap.map (·.joined) := rfl
  refine Json.compact_object_congr ?_
  simp [map_presentField, hitems, hmap, Entry.css?_joined, Entry.diagnostic?_joined,
    Json.compact_joined, compact_diagnosticDocument_joined, Function.comp_def]

/-! ## Documents are entries -/

/-- The object of a diagnostic is read as that diagnostic. -/
theorem diagnosticOf_diagnosticDocument (d : Diagnostic) :
    diagnosticOf (diagnosticDocument d) = .ok d := by
  obtain ⟨kind, message, sourceFile, line, column⟩ := d
  cases sourceFile <;> cases line <;> cases column <;>
    simp [diagnosticDocument, diagnosticOf, Value.fields?, presentField, Diagnostic.ofFields,
      Record.required, Record.optional, Record.defaulted, Record.lookup, Record.located,
      Record.nullable, Record.integer, Record.both, DiagnosticKind.ofRaw, Except.map]

/-- The fields of an entry are read as that entry. -/
theorem ofFields_document (outcome : Outcome) (sourceMap : Option Loose)
    (dependencies : List Loose) :
    Entry.ofFields [("css", .value (.ofLoose? (Entry.css? ⟨outcome, sourceMap, dependencies⟩))),
        ("source_map", .value (.ofLoose? sourceMap)),
        ("dependencies", .value (.array (dependencies.map .ofLoose)))]
      (Entry.diagnostic? ⟨outcome, sourceMap, dependencies⟩)
      = .ok ⟨outcome, sourceMap, dependencies⟩ := by
  cases outcome <;> cases sourceMap <;>
    simp [Entry.ofFields, Entry.css?, Entry.diagnostic?, Entry.ofParts, Value.ofLoose?,
      Record.optional, Record.defaulted, Record.lookup, Record.located, Record.nullable,
      Record.listOf, Record.items_text, Record.both, Except.map, Except.bind]

/-- The object of an entry is read as that entry. -/
theorem ofDocument_document (e : Entry) : ofDocument (document e) = .ok e := by
  obtain ⟨outcome, sourceMap, dependencies⟩ := e
  have hfields := ofFields_document outcome sourceMap dependencies
  cases outcome with
  | css text =>
    cases sourceMap <;>
      · simp only [Entry.css?, Entry.diagnostic?, Value.ofLoose?, Option.map_some, Option.map_none,
          Option.getD_some, Option.getD_none] at hfields
        simp [document, ofDocument, Value.fields?, entryOf, presentField, Entry.css?,
          Entry.diagnostic?, itemsOf, hfields]
  | failed d =>
    have hdiagnostic := diagnosticOf_diagnosticDocument d
    obtain ⟨fields, hobject⟩ : ∃ fields, diagnosticDocument d = .object fields := ⟨_, rfl⟩
    rw [hobject] at hdiagnostic
    cases sourceMap <;>
      · simp only [Entry.css?, Entry.diagnostic?, Value.ofLoose?, Option.map_some, Option.map_none,
          Option.getD_some, Option.getD_none] at hfields
        simp [document, ofDocument, Value.fields?, entryOf, presentField, Entry.css?,
          Entry.diagnostic?, itemsOf, hobject, hdiagnostic, Except.map, hfields]

/-! ## Contents of files -/

theorem decode?_encode (cs : List Char) : Text.Utf8.decode? (Text.Utf8.encode cs) = some cs := by
  have hall : ∀ cs : List Char, (cs.map some).mapM id = some cs := by
    intro cs
    induction cs with
    | nil => rfl
    | cons c cs ih =>
      rw [List.map_cons, List.mapM_cons, ih]
      rfl
  rw [Text.Utf8.decode?, Text.Utf8.pieces_encode, hall]

theorem deserialize_of_read {cs : List Char} {v : Value} (h : Json.read cs = .ok v) :
    deserialize (String.ofList cs) = ofDocument v := by
  simp only [deserialize, String.toList_ofList, h]

theorem deserialize_of_read_eq_error {cs : List Char} {e : Json.ReadError}
    (h : Json.read cs = .error e) : deserialize (String.ofList cs) = .error (.notRead e) := by
  simp only [deserialize, String.toList_ofList, h]

/-- The text of an entry's document. -/
def textOf (e : Entry) : String := String.ofList (Json.compact (document e))

/-- The document of an entry is written where no number in it is too long. -/
theorem serialize_of_isShort {e : Entry} (h : e.IsShort) : serialize e = .ok (textOf e) := by
  rw [serialize, Json.write, if_pos ((isShort_document e).2 h)]
  rfl

theorem serialize_of_not_isShort {e : Entry} (h : ¬ e.IsShort) :
    serialize e = .error .longInteger := by
  rw [serialize, Json.write, if_neg (mt (isShort_document e).1 h)]
  rfl

theorem textOf_joined (e : Entry) : textOf e.joined = textOf e :=
  congrArg String.ofList (compact_document_joined e)

/-- The text of an entry's document is read as that entry, with its halves joined. -/
theorem deserialize_textOf {e : Entry} (h : e.IsShort) : deserialize (textOf e) = .ok e.joined := by
  rw [← textOf_joined, textOf, deserialize_of_read (recovers_document h.isLegible_joined).read,
    ofDocument_document]

/-- The content of a text without carriage returns is what the text writes. -/
theorem ofBytes_encode {cs : List Char} (h : '\r' ∉ cs) :
    Content.ofBytes (Text.Utf8.encode cs) =
      match deserialize (String.ofList cs) with
      | .ok e => .entry e
      | .error (.notRead (.tooDeep e)) => .tooDeep e
      | .error _ => .unreadable := by
  unfold Content.ofBytes
  rw [decode?_encode]
  exact congrArg (fun cs =>
    match deserialize (String.ofList cs) with
    | .ok e => Content.entry e
    | .error (.notRead (.tooDeep e)) => .tooDeep e
    | .error _ => .unreadable) (Text.unifyNewlines_of_not_mem h)

/-- The content of a file that an entry is written to. -/
def contentOf (e : Entry) : Bytes := Text.Utf8.encode (textOf e).toList

theorem contentOf_joined (e : Entry) : contentOf e.joined = contentOf e :=
  congrArg (fun text : String => Text.Utf8.encode text.toList) (textOf_joined e)

theorem return_not_mem_textOf {e : Entry} (h : e.IsShort) : '\r' ∉ (textOf e).toList := by
  rw [← textOf_joined, textOf, String.toList_ofList]
  exact (recovers_document h.isLegible_joined).oneLine

/-- What is written for an entry is read as that entry, with its halves joined. -/
theorem ofBytes_contentOf {e : Entry} (h : e.IsShort) :
    Content.ofBytes (contentOf e) = .entry e.joined := by
  rw [contentOf, ofBytes_encode (return_not_mem_textOf h), String.ofList_toList,
    deserialize_textOf h]

/-- An entry is recovered from the text that is written for it, and from the UTF-8 file that this
text is written to and that is read with any line ends, exactly where no number in it has more
digits than are written, and no high half of a surrogate pair stands right before a low one in its
texts. -/
theorem recovered_iff_isLegible (e : Entry) :
    ((∃ text, serialize e = .ok text ∧ deserialize text = .ok e) ↔ e.IsLegible) ∧
      ((∃ text cs, serialize e = .ok text ∧
        Text.Utf8.decode? (Text.Utf8.encode text.toList) = some cs ∧
        deserialize (String.ofList (Text.unifyNewlines cs)) = .ok e) ↔ e.IsLegible) := by
  have hwritten : ∀ text, serialize e = .ok text → e.IsShort ∧ text = textOf e := by
    intro text hwritten
    by_cases hshort : e.IsShort
    · rw [serialize_of_isShort hshort] at hwritten
      exact ⟨hshort, (Except.ok.inj hwritten).symm⟩
    · rw [serialize_of_not_isShort hshort] at hwritten
      exact absurd hwritten (by simp)
  have hfile : e.IsShort → Text.unifyNewlines (textOf e).toList = (textOf e).toList :=
    fun hshort => Text.unifyNewlines_of_not_mem (return_not_mem_textOf hshort)
  have hlegible : e.IsShort → deserialize (textOf e) = .ok e → e.IsLegible := by
    intro hshort hread
    rw [deserialize_textOf hshort] at hread
    exact ⟨hshort, Entry.isApart_of_joined_eq (Except.ok.inj hread)⟩
  have hread : e.IsLegible → deserialize (textOf e) = .ok e := by
    intro h
    rw [deserialize_textOf h.short, h.apart.joined_eq]
  refine ⟨⟨?_, fun h => ⟨_, serialize_of_isShort h.short, hread h⟩⟩, ⟨?_, fun h => ?_⟩⟩
  · rintro ⟨text, hok, hback⟩
    obtain ⟨hshort, rfl⟩ := hwritten text hok
    exact hlegible hshort hback
  · rintro ⟨text, cs, hok, hdecoded, hback⟩
    obtain ⟨hshort, rfl⟩ := hwritten text hok
    rw [decode?_encode] at hdecoded
    obtain rfl := Option.some.inj hdecoded
    rw [hfile hshort, String.ofList_toList] at hback
    exact hlegible hshort hback
  · refine ⟨_, _, serialize_of_isShort h.short, decode?_encode _, ?_⟩
    rw [hfile h.short, String.ofList_toList, hread h]

/-- A failure in a line whose number has one digit too many. -/
def farBelow : Entry where
  outcome := .failed ⟨.compiler, "m", none, some (10 ^ Number.Integer.maxDigits), none⟩

theorem not_isShort_farBelow : ¬ farBelow.IsShort := fun hshort =>
  Number.Integer.not_isShort_power ((hshort _ rfl).line _ rfl)

/-- The failure has no document that it could be read from. -/
theorem deserialize_serialize_farBelow :
    ¬ ∃ text, serialize farBelow = .ok text ∧ deserialize text = .ok farBelow := by
  rintro ⟨text, hwritten, -⟩
  rw [serialize_of_not_isShort not_isShort_farBelow] at hwritten
  exact absurd hwritten (by simp)

/-- Brackets beyond the depth that is read are too deep. -/
theorem ofBytes_brackets {n : Nat} (h : Json.maxDepth < n) :
    Content.ofBytes (Text.Utf8.encode (List.replicate n '[')) = .tooDeep .array := by
  have hreturn : '\r' ∉ List.replicate n '[' := by
    intro hmem
    exact absurd (List.eq_of_mem_replicate hmem) (by decide)
  rw [ofBytes_encode hreturn, deserialize_of_read_eq_error (Json.read_brackets h)]

end Cache

end SheetBuild
