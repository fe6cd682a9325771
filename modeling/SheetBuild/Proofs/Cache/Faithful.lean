import SheetBuild.Proofs.Cache.Document
import SheetBuild.Proofs.Json.Legible
set_option autoImplicit false

/-!
# Accepted documents are faithful

`Writes` says which values write an entry, in whatever order their fields stand and whatever else they
hold; these are the values that are read as it (`ofDocument_eq_ok_iff`).  So a text that is accepted
holds the same fields as the document that is written for its entry, and a text whose fields are of
other types is refused (`deserialize_faithful`).  Numbers are the exception: a place may be given as
anything that an integer is read from, and it is the integer that is written.
-/

namespace SheetBuild

open SheetBuild.Json (Value)
open SheetBuild.Record (TakenFor)
open SheetBuild.Text (Loose)

/-! ## Integers that are read are short -/

namespace Number.Integer

theorem isShort_of_lt {i : Int} (h : i.natAbs < 10 ^ 19) : IsShort i :=
  isShort_iff.2 (Nat.lt_of_lt_of_le h (Nat.pow_le_pow_right (by decide) (by decide)))

theorem isShort_of_ofDigits {cs : List Char} {n : Nat} (h : ofDigits cs = .ok n) :
    IsShort (n : Int) := by
  have hlength := length_le_of_ofDigits h
  refine isShort_iff.2 ?_
  unfold ofDigits at h
  split at h
  · simp at h
  · obtain rfl := Except.ok.inj h
    exact Nat.pow_pos (by decide)
  · simp at h
  · simp only at h
    split at h
    · simp at h
    split at h
    · rename_i hall
      obtain rfl := Except.ok.inj h
      have hdigits : ∀ c ∈ cs.takeWhile isDigit, isDigit c = true := fun c => List.mem_takeWhile_imp
      exact Nat.lt_of_lt_of_le (digitsValue_lt hdigits)
        (Nat.pow_le_pow_right (by decide) (hall ▸ hlength))
    · simp at h

theorem isShort_of_ofSigned {cs : List Char} {i : Int} (h : ofSigned cs = .ok i) : IsShort i := by
  have hof : ∃ (ds : List Char) (n : Nat), ofDigits ds = .ok n ∧ i.natAbs = n := by
    unfold ofSigned at h
    split at h
    -- with a minus in front and without, the digits are those of the absolute value
    all_goals
      cases hds : ofDigits _ with
      | error e =>
        rw [hds] at h
        exact absurd h (by simp [Except.map, bind, Except.bind])
      | ok n =>
        rw [hds] at h
        obtain rfl := Except.ok.inj h
        exact ⟨_, n, hds, by simp⟩
  obtain ⟨ds, n, hds, rfl⟩ := hof
  exact isShort_iff.2 (isShort_iff.1 (isShort_of_ofDigits hds))

theorem isShort_of_ofText {cs : List Char} {i : Int} (h : ofText cs = .ok i) : IsShort i := by
  unfold ofText at h
  simp only at h
  split at h
  · simp at h
  · exact isShort_of_ofSigned h

end Number.Integer

/-- What a short value is taken for is short. -/
theorem Record.TakenFor.isShort {v : Value} {i : Int} (h : TakenFor v i) (hv : v.isShort = true) :
    Number.Integer.IsShort i := by
  cases h with
  | int i => exact Cache.isShort_int.1 hv
  | flag b => cases b <;> exact Number.Integer.isShort_of_lt (by decide)
  | whole _ hbound =>
    refine Number.Integer.isShort_of_lt ?_
    unfold floatBound at hbound
    omega
  | digits h => exact Number.Integer.isShort_of_ofText h

namespace Cache

/-! ## Fields that are given -/

theorem field?_eq_none {v : Value} (h : v.fields? = none) (name : String) : v.field? name = none := by
  rw [Value.field?, h]
  rfl

theorem lookup_eq_field? {v : Value} {fields : List (String × Value)} (h : v.fields? = some fields)
    (name : String) : Value.lookup fields name = v.field? name := by
  rw [Value.field?, h]
  rfl

/-- The value under a name, where one other than null is given. -/
def given? (v : Value) (name : String) : Option Value :=
  match v.field? name with
  | some .null => none
  | found => found

theorem given?_eq_none_iff {v : Value} {name : String} :
    given? v name = none ↔ (v.field? name).getD .null = .null := by
  unfold given?
  split
  · simp_all
  · rename_i h
    cases hfound : v.field? name with
    | none => simp
    | some w => simpa using fun hnull : w = .null => h (hnull ▸ hfound)

theorem given?_eq_some_iff {v w : Value} {name : String} :
    given? v name = some w ↔ v.field? name = some w ∧ w ≠ .null := by
  unfold given?
  split
  · rename_i h
    simpa [h] using fun hnull => hnull.symm
  · rename_i h
    exact ⟨fun hfound => ⟨hfound, fun hnull => h (hnull ▸ hfound)⟩, And.left⟩

/-- A field that may be null is read from the value that is given for it. -/
theorem nullable_eq_ok_iff_rel {α : Type} {read : Record.Raw → Except Record.Fault α} {v : Value}
    {name : String} {x : Option α} :
    Record.nullable read (.value ((v.field? name).getD .null)) = .ok x ↔
      Option.Rel (fun w a => read (.value w) = .ok a) (given? v name) x := by
  rw [Record.nullable_eq_ok_iff]
  cases hgiven : given? v name with
  | none =>
    rw [given?_eq_none_iff.1 hgiven]
    cases x <;> simp
  | some w =>
    obtain ⟨hfound, hw⟩ := given?_eq_some_iff.1 hgiven
    rw [hfound]
    cases x <;> simp [hw]

theorem nullable_text_eq_ok_iff {v : Value} {name : String} {x : Option Loose} :
    Record.nullable Record.text (.value ((v.field? name).getD .null)) = .ok x ↔
      given? v name = x.map .ofLoose := by
  rw [nullable_eq_ok_iff_rel]
  cases given? v name <;> cases x <;> simp [Record.text_eq_ok_iff]

theorem nullable_integer_eq_ok_iff {v : Value} {name : String} {x : Option Int} :
    Record.nullable Record.integer (.value ((v.field? name).getD .null)) = .ok x ↔
      Option.Rel TakenFor (given? v name) x := by
  simp only [nullable_eq_ok_iff_rel, Record.integer_eq_ok_iff]

/-! ## Values that write entries -/

/-- The object writes the diagnostic. -/
structure WritesDiagnostic (v : Value) (d : Diagnostic) : Prop where
  kind : v.field? "k" = some (.text d.kind.word)
  message : v.field? "msg" = some (.ofLoose d.message)
  sourceFile : given? v "file" = d.sourceFile.map .ofLoose
  line : Option.Rel TakenFor (given? v "line") d.line
  column : Option.Rel TakenFor (given? v "col") d.column

/-- The object writes the entry. -/
structure Writes (v : Value) (e : Entry) : Prop where
  version : v.field? "v" = some (.text documentVersion)
  dependencies : ∃ deps, v.field? "deps" = some deps ∧
    itemsOf deps = some (e.dependencies.map .ofLoose)
  css : given? v "css" = e.css?.map .ofLoose
  sourceMap : given? v "map" = e.sourceMap.map .ofLoose
  diagnostic : Option.Rel WritesDiagnostic (given? v "diag") e.diagnostic?

/-- The fields of a diagnostic under the names that it has in a document. -/
theorem ofFields_diagnostic_eq_ok_iff {v k msg : Value} {d : Diagnostic} :
    Diagnostic.ofFields [("kind", .value k), ("message", .value msg),
        ("source_file", .value ((v.field? "file").getD .null)),
        ("line", .value ((v.field? "line").getD .null)),
        ("column", .value ((v.field? "col").getD .null))] = .ok d ↔
      k = .text d.kind.word ∧ msg = .ofLoose d.message ∧
        given? v "file" = d.sourceFile.map .ofLoose ∧
        Option.Rel TakenFor (given? v "line") d.line ∧
        Option.Rel TakenFor (given? v "col") d.column := by
  simp [Diagnostic.ofFields_eq_ok_iff, Record.required_eq_ok_iff, Record.optional,
    Record.defaulted_eq_ok_iff, Record.lookup, DiagnosticKind.ofRaw_eq_ok_iff,
    Record.text_eq_ok_iff, nullable_text_eq_ok_iff, nullable_integer_eq_ok_iff]

/-- The values that are read as a diagnostic are those that write it. -/
theorem diagnosticOf_eq_ok_iff {v : Value} {d : Diagnostic} :
    diagnosticOf v = .ok d ↔ WritesDiagnostic v d := by
  unfold diagnosticOf
  cases hfields : v.fields? with
  | none => exact iff_of_false (by simp) fun h => by simpa [field?_eq_none hfields] using h.kind
  | some fields =>
    simp only [lookup_eq_field? hfields]
    constructor
    · intro h
      split at h
      · exact absurd h (by simp)
      rename_i k hk
      split at h
      · split at h
        · exact absurd h (by simp)
        · exact absurd h (by simp)
        rename_i msg _ hmsg
        split at h
        · rename_i d' hd
          obtain rfl := Except.ok.inj h
          obtain ⟨hkind, hmessage, hfile, hline, hcolumn⟩ := ofFields_diagnostic_eq_ok_iff.1 hd
          exact ⟨hkind ▸ hk, hmessage ▸ hmsg, hfile, hline, hcolumn⟩
        · exact absurd h (by simp)
      · exact absurd h (by simp)
    · intro h
      have hread := ofFields_diagnostic_eq_ok_iff.2 ⟨rfl, rfl, h.sourceFile, h.line, h.column⟩
      simp only [h.kind, h.message, DiagnosticKind.ofWord?_word, hread]

/-- The fields of an entry under the names that it has in a document. -/
theorem ofFields_entry_eq_ok_iff {v : Value} {items : List Value} {diagnostic : Option Diagnostic}
    {e : Entry} :
    Entry.ofFields [("css", .value ((v.field? "css").getD .null)),
        ("source_map", .value ((v.field? "map").getD .null)),
        ("dependencies", .value (.array items))] diagnostic = .ok e ↔
      given? v "css" = e.css?.map .ofLoose ∧ given? v "map" = e.sourceMap.map .ofLoose ∧
        items = e.dependencies.map .ofLoose ∧ diagnostic = e.diagnostic? := by
  simp [Entry.ofFields_eq_ok_iff, Record.optional, Record.defaulted_eq_ok_iff, Record.lookup,
    Record.listOf, nullable_text_eq_ok_iff, Record.items_text_eq_ok_iff]

/-- The diagnostic under its name in a document, where one other than null is given. -/
theorem givenDiagnostic_eq_ok_iff {v : Value} {x : Option Diagnostic} :
    (match (v.field? "diag").getD .null with
      | .null => Except.ok none
      | w => (diagnosticOf w).map some) = .ok x ↔
      Option.Rel WritesDiagnostic (given? v "diag") x := by
  cases hgiven : given? v "diag" with
  | none =>
    rw [given?_eq_none_iff.1 hgiven]
    cases x <;> simp
  | some w =>
    obtain ⟨hfound, hw⟩ := given?_eq_some_iff.1 hgiven
    rw [hfound, Option.getD_some]
    split
    · exact absurd rfl hw
    · rw [Record.map_eq_ok_iff]
      cases x <;> simp [diagnosticOf_eq_ok_iff]

/-- The fields that are read as an entry, where their version is another matter. -/
theorem entryOf_eq_ok_iff {v : Value} {fields : List (String × Value)} {e : Entry}
    (hfields : v.fields? = some fields) : entryOf fields = .ok e ↔
      (∃ deps, v.field? "deps" = some deps ∧ itemsOf deps = some (e.dependencies.map .ofLoose)) ∧
        given? v "css" = e.css?.map .ofLoose ∧ given? v "map" = e.sourceMap.map .ofLoose ∧
        Option.Rel WritesDiagnostic (given? v "diag") e.diagnostic? := by
  simp only [entryOf, lookup_eq_field? hfields]
  constructor
  · intro h
    split at h
    · exact absurd h (by simp)
    rename_i deps hdeps
    split at h
    · exact absurd h (by simp)
    rename_i items hitems
    split at h
    · exact absurd h (by simp)
    rename_i diagnostic hdiagnostic
    split at h
    · rename_i e' he
      obtain rfl := Except.ok.inj h
      obtain ⟨hcss, hmap, rfl, rfl⟩ := ofFields_entry_eq_ok_iff.1 he
      exact ⟨⟨deps, hdeps, hitems⟩, hcss, hmap, givenDiagnostic_eq_ok_iff.1 hdiagnostic⟩
    · exact absurd h (by simp)
  · rintro ⟨⟨deps, hdeps, hitems⟩, hcss, hmap, hdiagnostic⟩
    have hread := ofFields_entry_eq_ok_iff.2 ⟨hcss, hmap, rfl, rfl⟩
    have hgiven := givenDiagnostic_eq_ok_iff.2 hdiagnostic
    simp only [hdeps, hitems]
    -- the diagnostic is matched on here as in the lemma, but not by the same matcher
    split
    · rename_i refusal hrefused
      exact absurd (hrefused.symm.trans hgiven) (by simp)
    · rename_i diagnostic hfound
      obtain rfl : diagnostic = e.diagnostic? := Except.ok.inj (hfound.symm.trans hgiven)
      rw [hread]

/-- The values that are read as an entry are those that write it. -/
theorem ofDocument_eq_ok_iff {v : Value} {e : Entry} : ofDocument v = .ok e ↔ Writes v e := by
  unfold ofDocument
  cases hfields : v.fields? with
  | none => exact iff_of_false (by simp) fun h => by simpa [field?_eq_none hfields] using h.version
  | some fields =>
    simp only [lookup_eq_field? hfields]
    constructor
    · intro h
      split at h
      · rename_i version hversion
        split at h
        · rename_i hcurrent
          obtain ⟨hdeps, hcss, hmap, hdiagnostic⟩ := (entryOf_eq_ok_iff hfields).1 h
          exact ⟨hcurrent ▸ hversion, hdeps, hcss, hmap, hdiagnostic⟩
        · exact absurd h (by simp)
      · exact absurd h (by simp)
      · exact absurd h (by simp)
    · intro h
      simp only [h.version, if_pos]
      exact (entryOf_eq_ok_iff hfields).2 ⟨h.dependencies, h.css, h.sourceMap, h.diagnostic⟩

theorem writes_document (e : Entry) : Writes (document e) e :=
  ofDocument_eq_ok_iff.1 (ofDocument_document e)

theorem writesDiagnostic_diagnosticDocument (d : Diagnostic) :
    WritesDiagnostic (diagnosticDocument d) d :=
  diagnosticOf_eq_ok_iff.1 (diagnosticOf_diagnosticDocument d)

/-! ## What is accepted is legible -/

theorem isLegible_of_given? {v w : Value} {name : String} (h : given? v name = some w)
    (hv : v.IsLegible) : w.IsLegible :=
  hv.of_field? (given?_eq_some_iff.1 h).1

theorem isApart_of_given? {v : Value} {name : String} {x : Option Loose}
    (h : given? v name = x.map .ofLoose) (hv : v.IsLegible) : ∀ t ∈ x, t.isApart = true := by
  rintro t rfl
  rw [← Value.isApart_ofLoose]
  exact (isLegible_of_given? h hv).apart

/-- The items of a legible value are legible. -/
theorem isApart_of_itemsOf {v : Value} {texts : List Loose}
    (h : itemsOf v = some (texts.map .ofLoose)) (hv : v.isApart = true) :
    ∀ t ∈ texts, t.isApart = true := by
  intro t ht
  have hitem : Value.ofLoose t ∈ texts.map .ofLoose := List.mem_map_of_mem ht
  rw [← Value.isApart_ofLoose]
  unfold itemsOf at h
  split at h
  · obtain rfl := Option.some.inj h
    exact Value.every_array.1 hv _ hitem
  · rw [← Option.some.inj h] at hitem
    obtain ⟨c, -, hc⟩ := List.mem_map.1 hitem
    exact hc ▸ rfl
  · rw [← Option.some.inj h] at hitem
    obtain ⟨p, -, hp⟩ := List.mem_map.1 hitem
    -- one code point alone is no pair
    rw [← hp, Value.isApart_ofLoose, Loose.isApart, Loose.points_ofPoints]
    cases p with
    | char c => rfl
    | half high n => cases high <;> rfl
  · rw [← Option.some.inj h] at hitem
    obtain ⟨f, -, hf⟩ := List.mem_map.1 hitem
    exact hf ▸ rfl
  · rw [← Option.some.inj h] at hitem
    obtain ⟨f, hmem, hf⟩ := List.mem_map.1 hitem
    exact hf ▸ (Value.every_torn.1 hv f hmem).1
  · exact absurd h (by simp)

/-- A diagnostic that a legible value writes is legible. -/
theorem WritesDiagnostic.legible {v : Value} {d : Diagnostic} (h : WritesDiagnostic v d)
    (hv : v.IsLegible) : d.IsShort ∧ ∀ t ∈ d.texts, t.isApart = true := by
  have hnumber : ∀ {name : String} {x : Option Int}, Option.Rel TakenFor (given? v name) x →
      ∀ i, x = some i → Number.Integer.IsShort i := by
    rintro name x hx i rfl
    cases hfound : given? v name with
    | none => simp [hfound] at hx
    | some n =>
      rw [hfound, Option.rel_some_some] at hx
      exact hx.isShort (isLegible_of_given? hfound hv).short
  refine ⟨⟨hnumber h.line, hnumber h.column⟩, fun t ht => ?_⟩
  rcases List.mem_cons.1 ht with rfl | ht
  · rw [← Value.isApart_ofLoose]
    exact (hv.of_field? h.message).apart
  · exact isApart_of_given? h.sourceFile hv t (Option.mem_toList.1 ht)

/-- An entry that a legible value writes is legible. -/
theorem Writes.isLegible {v : Value} {e : Entry} (h : Writes v e) (hv : v.IsLegible) :
    e.IsLegible := by
  have hdiagnostic : ∀ d, e.diagnostic? = some d → d.IsShort ∧ ∀ t ∈ d.texts, t.isApart = true := by
    intro d hd
    have hwrites := h.diagnostic
    rw [hd] at hwrites
    cases hgiven : given? v "diag" with
    | none => simp [hgiven] at hwrites
    | some w =>
      rw [hgiven, Option.rel_some_some] at hwrites
      exact hwrites.legible (isLegible_of_given? hgiven hv)
  refine ⟨fun d hd => (hdiagnostic d hd).1, fun t ht => ?_⟩
  simp only [Entry.texts, List.mem_append, Option.mem_toList] at ht
  rcases ht with ((hcss | hmap) | hdep) | hin
  · exact isApart_of_given? h.css hv t hcss
  · exact isApart_of_given? h.sourceMap hv t hmap
  · obtain ⟨deps, hdeps, hitems⟩ := h.dependencies
    exact isApart_of_itemsOf hitems (hv.of_field? hdeps).apart t hdep
  · cases hd : e.diagnostic? with
    | none => simp [hd] at hin
    | some d =>
      simp only [hd, Option.map_some, Option.getD_some] at hin
      exact (hdiagnostic d hd).2 t hin

/-! ## Fields are kept -/

/-- The integer stands for the value that it is taken for. -/
def KeptNumber (v w : Value) : Prop := ∃ i, TakenFor v i ∧ w = .int i

/-- The fields of a diagnostic are kept. -/
structure KeptDiagnostic (v w : Value) : Prop where
  kind : given? w "k" = given? v "k"
  message : given? w "msg" = given? v "msg"
  sourceFile : given? w "file" = given? v "file"
  line : Option.Rel KeptNumber (given? v "line") (given? w "line")
  column : Option.Rel KeptNumber (given? v "col") (given? w "col")

/-- The fields of a document are kept; of dependencies that are no array nothing is said. -/
structure Kept (v w : Value) : Prop where
  version : given? w "v" = given? v "v"
  dependencies : ∀ items, v.field? "deps" = some (.array items) →
    w.field? "deps" = some (.array items)
  css : given? w "css" = given? v "css"
  sourceMap : given? w "map" = given? v "map"
  diagnostic : Option.Rel KeptDiagnostic (given? v "diag") (given? w "diag")

theorem given?_diagnosticDocument_line (d : Diagnostic) :
    given? (diagnosticDocument d) "line" = d.line.map .int := by
  obtain ⟨kind, message, sourceFile, line, column⟩ := d
  cases sourceFile <;> cases line <;> cases column <;> rfl

theorem given?_diagnosticDocument_column (d : Diagnostic) :
    given? (diagnosticDocument d) "col" = d.column.map .int := by
  obtain ⟨kind, message, sourceFile, line, column⟩ := d
  cases sourceFile <;> cases line <;> cases column <;> rfl

theorem given?_document_diagnostic (e : Entry) :
    given? (document e) "diag" = e.diagnostic?.map diagnosticDocument := by
  obtain ⟨outcome, sourceMap, dependencies⟩ := e
  cases outcome <;> cases sourceMap <;> rfl

theorem given?_of_field? {v : Value} {name : String} {t : Loose}
    (h : v.field? name = some (.ofLoose t)) : given? v name = some (.ofLoose t) :=
  given?_eq_some_iff.2 ⟨h, by simp⟩

theorem given?_of_text {v : Value} {name s : String} (h : v.field? name = some (.text s)) :
    given? v name = some (.text s) :=
  given?_eq_some_iff.2 ⟨h, by simp⟩

theorem rel_map {α : Type} {R : Value → α → Prop} {S : Value → Value → Prop} {f : α → Value}
    {x : Option Value} {y : Option α} (h : Option.Rel R x y) (hf : ∀ v a, R v a → S v (f a)) :
    Option.Rel S x (y.map f) := by
  cases h with
  | none => exact .none
  | some h => exact .some (hf _ _ h)

theorem rel_keptNumber {v : Option Value} {x : Option Int} (h : Option.Rel TakenFor v x) :
    Option.Rel KeptNumber v (x.map .int) :=
  rel_map h fun _ i hi => ⟨i, hi, rfl⟩

theorem keptDiagnostic_of_writes {v : Value} {d : Diagnostic} (h : WritesDiagnostic v d) :
    KeptDiagnostic v (diagnosticDocument d) where
  kind := by
    rw [given?_of_text h.kind, given?_of_text (writesDiagnostic_diagnosticDocument d).kind]
  message := by
    rw [given?_of_field? h.message, given?_of_field? (writesDiagnostic_diagnosticDocument d).message]
  sourceFile := by rw [h.sourceFile, (writesDiagnostic_diagnosticDocument d).sourceFile]
  line := given?_diagnosticDocument_line d ▸ rel_keptNumber h.line
  column := given?_diagnosticDocument_column d ▸ rel_keptNumber h.column

theorem kept_of_writes {v : Value} {e : Entry} (h : Writes v e) : Kept v (document e) where
  version := by rw [given?_of_text h.version, given?_of_text (writes_document e).version]
  dependencies := by
    intro items hitems
    obtain ⟨deps, hdeps, hof⟩ := h.dependencies
    obtain rfl := Option.some.inj (hitems.symm.trans hdeps)
    obtain rfl := Option.some.inj hof
    rfl
  css := by rw [h.css, (writes_document e).css]
  sourceMap := by rw [h.sourceMap, (writes_document e).sourceMap]
  diagnostic :=
    given?_document_diagnostic e ▸ rel_map h.diagnostic fun _ _ => keptDiagnostic_of_writes

/-! ## What is refused -/

/-- The fields of a diagnostic are of the types that are written, and a number is what an integer is
read from. -/
structure FitsDiagnostic (v : Value) : Prop where
  kind : ∃ k : DiagnosticKind, v.field? "k" = some (.text k.word)
  message : ∃ t, v.field? "msg" = some (.ofLoose t)
  sourceFile : ∀ w, given? v "file" = some w → ∃ t, w = .ofLoose t
  line : ∀ w, given? v "line" = some w → ∃ i, TakenFor w i
  column : ∀ w, given? v "col" = some w → ∃ i, TakenFor w i

/-- The fields of a document are of the types that are written; of dependencies that are no array it is
only said that they have items. -/
structure Fits (v : Value) : Prop where
  version : v.field? "v" = some (.text documentVersion)
  dependencies : ∃ deps, v.field? "deps" = some deps ∧ (itemsOf deps).isSome = true ∧
    ∀ items, deps = .array items → ∀ item ∈ items, ∃ t, item = .ofLoose t
  css : ∀ w, given? v "css" = some w → ∃ t, w = .ofLoose t
  sourceMap : ∀ w, given? v "map" = some w → ∃ t, w = .ofLoose t
  diagnostic : ∀ w, given? v "diag" = some w → FitsDiagnostic w

theorem exists_text_of_eq_map {x : Option Value} {y : Option Loose} (h : x = y.map .ofLoose) :
    ∀ w, x = some w → ∃ t, w = .ofLoose t := by
  rintro w rfl
  obtain ⟨t, -, ht⟩ := Option.map_eq_some_iff.1 h.symm
  exact ⟨t, ht.symm⟩

theorem exists_of_rel {α : Type} {R : Value → α → Prop} {x : Option Value} {y : Option α}
    (h : Option.Rel R x y) : ∀ w, x = some w → ∃ a, R w a := by
  rintro w rfl
  cases h with
  | some h => exact ⟨_, h⟩

theorem WritesDiagnostic.fits {v : Value} {d : Diagnostic} (h : WritesDiagnostic v d) :
    FitsDiagnostic v where
  kind := ⟨d.kind, h.kind⟩
  message := ⟨d.message, h.message⟩
  sourceFile := exists_text_of_eq_map h.sourceFile
  line := exists_of_rel h.line
  column := exists_of_rel h.column

theorem Writes.fits {v : Value} {e : Entry} (h : Writes v e) : Fits v where
  version := h.version
  dependencies := by
    obtain ⟨deps, hdeps, hitems⟩ := h.dependencies
    refine ⟨deps, hdeps, hitems ▸ rfl, ?_⟩
    rintro items rfl item hitem
    obtain rfl := Option.some.inj hitems
    obtain ⟨s, -, hs⟩ := List.mem_map.1 hitem
    exact ⟨s, hs.symm⟩
  css := exists_text_of_eq_map h.css
  sourceMap := exists_text_of_eq_map h.sourceMap
  diagnostic := fun w hw =>
    have ⟨_, hd⟩ := exists_of_rel h.diagnostic w hw
    hd.fits

theorem diagnosticOf_ne_notRead {v : Value} {r : Json.ReadError} :
    diagnosticOf v ≠ .error (.notRead r) := by
  intro h
  unfold diagnosticOf at h
  split at h
  · split at h
    · exact absurd h (by simp)
    split at h
    · split at h
      · exact absurd h (by simp)
      · exact absurd h (by simp)
      simp only at h
      split at h <;> exact absurd h (by simp)
    · exact absurd h (by simp)
  · exact absurd h (by simp)

theorem entryOf_ne_notRead {fields : List (String × Value)} {r : Json.ReadError} :
    entryOf fields ≠ .error (.notRead r) := by
  intro h
  unfold entryOf at h
  simp only at h
  split at h
  · exact absurd h (by simp)
  split at h
  · exact absurd h (by simp)
  split at h
  · rename_i refusal hdiagnostic
    obtain rfl := Except.error.inj h
    split at hdiagnostic
    · exact absurd hdiagnostic (by simp)
    · cases hof : diagnosticOf ((Value.lookup fields "diag").getD .null) with
      | ok d => simp [hof, Except.map] at hdiagnostic
      | error refusal =>
        rw [hof] at hdiagnostic
        exact diagnosticOf_ne_notRead (hof.trans (congrArg _ (Except.error.inj hdiagnostic)))
  · split at h <;> exact absurd h (by simp)

/-- A value is refused for what it is, and not as a text that is not read. -/
theorem ofDocument_ne_notRead {v : Value} {r : Json.ReadError} :
    ofDocument v ≠ .error (.notRead r) := by
  intro h
  unfold ofDocument at h
  split at h
  · split at h
    · split at h
      · exact entryOf_ne_notRead h
      · exact absurd h (by simp)
    · exact absurd h (by simp)
    · exact absurd h (by simp)
  · exact absurd h (by simp)

/-! ## Texts -/

/-- The text of a legible entry is read as its document. -/
theorem read_textOf {e : Entry} (h : e.IsLegible) :
    Json.read (textOf e).toList = .ok (document e) := by
  rw [textOf, String.toList_ofList]
  exact (recovers_document h).read

/-- A text that is accepted is an object whose fields are kept by the document that is written for its
entry.  One that is read, but whose fields are of other types, is refused for them. -/
theorem deserialize_faithful (data : String) :
    (∀ e, deserialize data = .ok e → ∃ v text, Json.read data.toList = .ok v ∧
        serialize e = .ok text ∧ Json.read text.toList = .ok (document e) ∧
        Kept v (document e)) ∧
      ∀ v, Json.read data.toList = .ok v → ¬ Fits v →
        ∃ refusal, deserialize data = .error refusal ∧ ∀ r, refusal ≠ .notRead r := by
  unfold deserialize
  cases hread : Json.read data.toList with
  | error r => simp
  | ok v =>
    simp only
    refine ⟨fun e he => ?_, ?_⟩
    · have hwrites := ofDocument_eq_ok_iff.1 he
      have hlegible := hwrites.isLegible (Json.isLegible_of_read hread)
      exact ⟨v, textOf e, rfl, serialize_of_isShort hlegible.short, read_textOf hlegible,
        kept_of_writes hwrites⟩
    · rintro v' hv hfits
      obtain rfl := Except.ok.inj hv
      cases hof : ofDocument v with
      | ok e => exact absurd (ofDocument_eq_ok_iff.1 hof).fits hfits
      | error refusal => exact ⟨refusal, rfl, fun r hr => ofDocument_ne_notRead (hr ▸ hof)⟩

/-- A failure whose line is given as a text. -/
def lineAsText : String :=
  "\x7b\"v\":\"1\",\"deps\":[],\"diag\":\x7b\"k\":\"compiler\",\"msg\":\"m\",\"line\":\"12\"\x7d\x7d"

/-- The entry that it is taken for. -/
def inLineTwelve : Entry where
  outcome := .failed ⟨.compiler, "m", none, some 12, none⟩

theorem read_lineAsText : Json.read lineAsText.toList = .ok (.object [("v", .text "1"),
    ("deps", .array []),
    ("diag", .object [("k", .text "compiler"), ("msg", .text "m"), ("line", .text "12")])]) := by
  have htext : lineAsText.toList = Json.compact (.object [("v", .text "1"), ("deps", .array []),
      ("diag", .object [("k", .text "compiler"), ("msg", .text "m"), ("line", .text "12")])]) := by
    decide
  have hdiagnostic : Json.Recovers (Json.maxDepth - 1)
      (.object [("k", .text "compiler"), ("msg", .text "m"), ("line", .text "12")]) := by
    refine Json.recovers_object (by decide) ?_
    simp only [List.forall_mem_cons]
    exact ⟨Json.recovers_text _ _, Json.recovers_text _ _, Json.recovers_text _ _, by simp⟩
  rw [htext]
  refine Json.Recovers.read ?_
  refine Json.recovers_object (by decide) ?_
  simp only [List.forall_mem_cons]
  exact ⟨Json.recovers_text _ _, Json.recovers_array (by simp), hdiagnostic, by simp⟩

theorem deserialize_lineAsText : deserialize lineAsText = .ok inLineTwelve := by
  simp only [deserialize, read_lineAsText]
  rfl

/-- A stylesheet that is given as a number. -/
def styleAsNumber : String := "\x7b\"v\":\"1\",\"deps\":[],\"css\":1\x7d"

theorem read_styleAsNumber : Json.read styleAsNumber.toList =
    .ok (.object [("v", .text "1"), ("deps", .array []), ("css", .int 1)]) := by
  have htext : styleAsNumber.toList =
      Json.compact (.object [("v", .text "1"), ("deps", .array []), ("css", .int 1)]) := by decide
  rw [htext]
  refine Json.Recovers.read ?_
  refine Json.recovers_object (by decide) ?_
  simp only [List.forall_mem_cons]
  exact ⟨Json.recovers_text _ _, Json.recovers_array (by simp), Json.recovers_int _ (by decide),
    by simp⟩

theorem deserialize_faithful_literal :
    (deserialize lineAsText = .ok inLineTwelve ∧ ∃ v text,
        Json.read lineAsText.toList = .ok v ∧ serialize inLineTwelve = .ok text ∧
        Json.read text.toList = .ok (document inLineTwelve) ∧ Kept v (document inLineTwelve)) ∧
      ∃ v, Json.read styleAsNumber.toList = .ok v ∧ ¬ Fits v ∧
        ∃ refusal, deserialize styleAsNumber = .error refusal ∧ ∀ r, refusal ≠ .notRead r := by
  have hfits : ¬ Fits (.object [("v", .text "1"), ("deps", .array []), ("css", .int 1)]) := by
    intro h
    obtain ⟨t, ht⟩ := h.css (.int 1) rfl
    cases t <;> exact absurd ht (by simp)
  exact ⟨⟨deserialize_lineAsText, (deserialize_faithful lineAsText).1 _ deserialize_lineAsText⟩,
    _, read_styleAsNumber, hfits, (deserialize_faithful styleAsNumber).2 _ read_styleAsNumber hfits⟩

/-- A stylesheet that is half of a surrogate pair. -/
def styleInHalf : Entry where
  outcome := .css (.ofPoints [.ofCode 0xD800])

/-- Its document. -/
def halfAsStyle : String := "\x7b\"v\":\"1\",\"deps\":[],\"css\":\"\\ud800\"\x7d"

/-- Such a text is accepted, and is written as the same escape. -/
example :
    deserialize halfAsStyle = .ok styleInHalf ∧ serialize styleInHalf = .ok halfAsStyle := by
  have hshort : styleInHalf.IsShort := by
    rintro d ⟨⟩
  have hapart : styleInHalf.IsApart := by decide
  have htext : textOf styleInHalf = halfAsStyle := by decide
  have hread := deserialize_textOf hshort
  rw [hapart.joined_eq, htext] at hread
  exact ⟨hread, htext ▸ serialize_of_isShort hshort⟩

/-- The line of a failure that was accepted is another value in the document that is written for it. -/
theorem line_not_same : ∃ v text, Json.read lineAsText.toList = .ok v ∧
    deserialize lineAsText = .ok inLineTwelve ∧ serialize inLineTwelve = .ok text ∧
    Json.read text.toList = .ok (document inLineTwelve) ∧
    (given? v "diag").bind (given? · "line") ≠
      (given? (document inLineTwelve) "diag").bind (given? · "line") := by
  have hlegible : inLineTwelve.IsLegible := by
    refine ⟨?_, by decide⟩
    rintro d ⟨⟩
    exact ⟨by rintro i ⟨⟩; exact Number.Integer.isShort_of_lt (by decide), by simp⟩
  refine ⟨_, _, read_lineAsText, deserialize_lineAsText, serialize_of_isShort hlegible.short,
    read_textOf hlegible, ?_⟩
  exact fun h => absurd (Option.some.inj h) (by simp)

end Cache

end SheetBuild
