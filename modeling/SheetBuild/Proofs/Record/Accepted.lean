import SheetBuild.Entry
import SheetBuild.Options
import SheetBuild.Source
set_option autoImplicit false

/-!
# What records accept

For each reader of a value and of a field, exactly what it accepts and what it gives for it; and so for
the records, each of whose fields is read by itself (`SourceFile.ofFields_eq_ok_iff` and its like).
-/

namespace SheetBuild

open SheetBuild.Json (Value)
open SheetBuild.Number (Binary64)
open SheetBuild.Text (Loose)

namespace Record

/-! ## Values -/

theorem text_eq_ok_iff {r : Raw} {t : Loose} : text r = .ok t ↔ r = .value (.ofLoose t) := by
  constructor
  · intro h
    unfold text at h
    split at h
    · exact Except.ok.inj h ▸ rfl
    · exact Except.ok.inj h ▸ rfl
    · exact absurd h (by simp)
  · rintro rfl
    cases t <;> rfl

@[simp] theorem text_ofLoose (t : Loose) : text (.value (.ofLoose t)) = .ok t :=
  text_eq_ok_iff.2 rfl

@[simp] theorem nullable_text_ofLoose (t : Loose) :
    nullable text (.value (.ofLoose t)) = .ok (some t) := by
  cases t <;> rfl

theorem name_eq_ok_iff {r : Raw} {s : String} : name r = .ok s ↔ r = .value (.text s) := by
  constructor
  · intro h
    unfold name at h
    split at h <;> simp_all
  · rintro rfl
    rfl

theorem bytes_eq_ok_iff {r : Raw} {content : Bytes} : bytes r = .ok content ↔
    r = .bytes content ∨ ∃ s, r = .value (.text s) ∧ content = Text.Utf8.encode s.toList := by
  constructor
  · intro h
    unfold bytes at h
    split at h <;> simp_all
  · rintro (rfl | ⟨s, rfl, rfl⟩) <;> rfl

/-- The integer that a value is taken for: besides an integer a flag, a floating-point number that is
whole and within bounds, and a text that writes one. -/
inductive TakenFor : Value → Int → Prop
  | int (i : Int) : TakenFor (.int i) i
  | flag (b : Bool) : TakenFor (.bool b) (if b then 1 else 0)
  | whole {x : Binary64} {i : Int} (h : x.toInt? = some i)
      (hbound : -floatBound < i ∧ i < floatBound) : TakenFor (.real x) i
  | digits {s : String} {i : Int} (h : Number.Integer.ofText s.toList = .ok i) : TakenFor (.text s) i

theorem integerOfReal_eq_ok_iff {x : Binary64} {i : Int} :
    integerOfReal x = .ok i ↔ x.toInt? = some i ∧ -floatBound < i ∧ i < floatBound := by
  cases x with
  | finite negative m e =>
    unfold integerOfReal
    cases (Binary64.finite negative m e).toInt? with
    | none => simp
    | some j =>
      simp only [Option.some.injEq]
      split <;> grind
  | infinite negative => simp [integerOfReal, Binary64.toInt?]
  | nan => simp [integerOfReal, Binary64.toInt?]

theorem integer_eq_ok_iff {v : Value} {i : Int} :
    integer (.value v) = .ok i ↔ TakenFor v i := by
  constructor
  · intro h
    unfold integer at h
    split at h
    · rename_i j heq
      obtain rfl := Raw.value.inj heq
      exact Except.ok.inj h ▸ .int j
    · rename_i b heq
      obtain rfl := Raw.value.inj heq
      exact Except.ok.inj h ▸ .flag b
    · rename_i x heq
      obtain rfl := Raw.value.inj heq
      obtain ⟨hx, hbound⟩ := integerOfReal_eq_ok_iff.1 h
      exact .whole hx hbound
    · rename_i s heq
      obtain rfl := Raw.value.inj heq
      split at h
      · rename_i j hs
        exact .digits (Except.ok.inj h ▸ hs)
      · exact absurd h (by simp)
      · exact absurd h (by simp)
    · exact absurd h (by simp)
    · exact absurd h (by simp)
  · rintro (i | b | ⟨hx, hbound⟩ | hs)
    · rfl
    · rfl
    · exact integerOfReal_eq_ok_iff.2 ⟨hx, hbound⟩
    · simp only [integer, hs]

/-! ## Fields -/

section Fields

variable {α β : Type} {fields : Fields} {name : String} {read : Raw → Except Fault α}

theorem map_eq_ok_iff {ε : Type} {x : Except ε α} {g : α → β} {b : β} :
    x.map g = .ok b ↔ ∃ a, x = .ok a ∧ g a = b := by
  cases x <;> simp [Except.map]

theorem bind_eq_ok_iff {ε : Type} {x : Except ε α} {g : α → Except ε β} {b : β} :
    x.bind g = .ok b ↔ ∃ a, x = .ok a ∧ g a = .ok b := by
  cases x <;> simp [Except.bind]

theorem located_eq_ok_iff {location : String} {x : Except Fault α} {a : α} :
    located location x = .ok a ↔ x = .ok a := by
  cases x <;> simp [located]

theorem required_eq_ok_iff {a : α} :
    required fields name read = .ok a ↔ ∃ r, lookup fields name = some r ∧ read r = .ok a := by
  unfold required
  cases lookup fields name <;> simp [located_eq_ok_iff]

theorem defaulted_eq_ok_iff {default a : α} : defaulted fields name default read = .ok a ↔
    lookup fields name = none ∧ default = a ∨ ∃ r, lookup fields name = some r ∧ read r = .ok a := by
  unfold defaulted
  cases lookup fields name <;> simp [located_eq_ok_iff]

/-- Null is read as none, and everything else by the reader. -/
theorem nullable_eq_ok_iff {v : Value} {x : Option α} : nullable read (.value v) = .ok x ↔
    v = .null ∧ x = none ∨ v ≠ .null ∧ ∃ a, read (.value v) = .ok a ∧ x = some a := by
  unfold nullable
  split
  · rename_i heq
    obtain rfl := Raw.value.inj heq
    simp [eq_comm]
  · rename_i hne
    have hv : v ≠ .null := fun h => hne (h ▸ rfl)
    simp only [map_eq_ok_iff, hv, false_and, ne_eq, not_false_eq_true, true_and, false_or,
      eq_comm (b := x)]

/-- Where a reader accepts what is written for its values, a list of them is accepted as it is written. -/
theorem items_eq_ok_iff {written : α → Value}
    (hread : ∀ v a, read (.value v) = .ok a ↔ v = written a) {n : Nat} {vs : List Value} {as : List α} :
    items name read n vs = .ok as ↔ vs = as.map written := by
  induction vs generalizing n as with
  | nil => simp [items, eq_comm]
  | cons v vs ih =>
    simp only [items, map_eq_ok_iff, both_eq_ok, located_eq_ok_iff, hread, ih]
    constructor
    · rintro ⟨⟨a, as⟩, ⟨rfl, rfl⟩, rfl⟩
      rfl
    · intro h
      obtain ⟨a, as, rfl, rfl, rfl⟩ := List.map_eq_cons_iff.1 h.symm
      exact ⟨(a, as), ⟨rfl, rfl⟩, rfl⟩

theorem items_text_eq_ok_iff {n : Nat} {vs : List Value} {texts : List Loose} :
    items name text n vs = .ok texts ↔ vs = texts.map .ofLoose :=
  items_eq_ok_iff fun v t => by rw [text_eq_ok_iff, Raw.value.injEq]

theorem items_name_eq_ok_iff {n : Nat} {vs : List Value} {names : List String} :
    items name Record.name n vs = .ok names ↔ vs = names.map .text :=
  items_eq_ok_iff fun v s => by rw [name_eq_ok_iff, Raw.value.injEq]

/-- Texts are read as the items of a list. -/
theorem items_text (name : String) (n : Nat) (texts : List Loose) :
    items name text n (texts.map .ofLoose) = .ok texts :=
  items_text_eq_ok_iff.2 rfl

end Fields

end Record

/-! ## Records -/

namespace SourceFile

variable {fields : Record.Fields}

theorem pathField_eq_ok_iff {path : String} : pathField fields = .ok path ↔
    ∃ written, Record.lookup fields "path" = some (.value (.text written)) ∧
      Path.normalize written = .ok path := by
  simp only [pathField, Record.bind_eq_ok_iff, Record.required_eq_ok_iff, Record.name_eq_ok_iff,
    exists_eq_right]
  refine exists_congr fun written => and_congr_right fun _ => ?_
  cases Path.normalize written <;> simp

/-- A source file is made of its fields. -/
theorem ofFields_eq_ok_iff {f : SourceFile} : ofFields fields = .ok f ↔
    pathField fields = .ok f.path ∧
      Record.required fields "content" Record.bytes = .ok f.content ∧
      hashField fields = .ok f.contentHash ∧
      Record.optional fields "target" Record.name = .ok f.target ∧
      Record.defaulted fields "is_entry_candidate" true Record.flag = .ok f.entryCandidate := by
  simp only [ofFields, Record.map_eq_ok_iff, Record.both_eq_ok]
  constructor
  · rintro ⟨⟨path, content, hash, target, candidate⟩, h, rfl⟩
    exact h
  · intro h
    exact ⟨(f.path, f.content, f.contentHash, f.target, f.entryCandidate), h, rfl⟩

end SourceFile

namespace CompileOptions

variable {fields : Record.Fields}

/-- Options are made of their fields. -/
theorem ofFields_eq_ok_iff {o : CompileOptions} : ofFields fields = .ok o ↔
    (Record.listOf fields "include_paths" Record.name).bind canonicalPaths = .ok o.includePaths ∧
      Record.defaulted fields "output_mode" .expanded OutputMode.ofRaw = .ok o.outputMode ∧
      Record.defaulted fields "source_maps" false Record.flag = .ok o.sourceMaps := by
  simp only [ofFields, Record.map_eq_ok_iff, Record.both_eq_ok]
  constructor
  · rintro ⟨⟨includePaths, outputMode, sourceMaps⟩, h, rfl⟩
    exact h
  · intro h
    exact ⟨(o.includePaths, o.outputMode, o.sourceMaps), h, rfl⟩

end CompileOptions

namespace DiagnosticKind

theorem ofWord?_eq_some_iff {word : String} {k : DiagnosticKind} :
    ofWord? word = some k ↔ word = k.word := by
  constructor
  · intro h
    unfold ofWord? at h
    split at h
    case h_5 => exact absurd h (by simp)
    all_goals
      obtain rfl := Option.some.inj h
      rfl
  · rintro rfl
    exact ofWord?_word k

theorem ofRaw_eq_ok_iff {v : Value} {k : DiagnosticKind} :
    ofRaw (.value v) = .ok k ↔ v = .text k.word := by
  constructor
  · intro h
    unfold ofRaw at h
    split at h
    · rename_i word heq
      obtain rfl := Record.Raw.value.inj heq
      split at h
      · rename_i k' hk
        obtain rfl := Except.ok.inj h
        rw [ofWord?_eq_some_iff.1 hk]
      · exact absurd h (by simp)
    · exact absurd h (by simp)
  · rintro rfl
    simp [ofRaw]

end DiagnosticKind

namespace Diagnostic

variable {fields : Record.Fields}

/-- A diagnostic is made of its fields. -/
theorem ofFields_eq_ok_iff {d : Diagnostic} : ofFields fields = .ok d ↔
    Record.required fields "kind" DiagnosticKind.ofRaw = .ok d.kind ∧
      Record.required fields "message" Record.text = .ok d.message ∧
      Record.optional fields "source_file" Record.text = .ok d.sourceFile ∧
      Record.optional fields "line" Record.integer = .ok d.line ∧
      Record.optional fields "column" Record.integer = .ok d.column := by
  simp only [ofFields, Record.map_eq_ok_iff, Record.both_eq_ok]
  constructor
  · rintro ⟨⟨kind, message, sourceFile, line, column⟩, h, rfl⟩
    exact h
  · intro h
    exact ⟨(d.kind, d.message, d.sourceFile, d.line, d.column), h, rfl⟩

end Diagnostic

namespace Entry

variable {fields : Record.Fields} {diagnostic : Option Diagnostic}

theorem ofParts_eq_ok_iff {css sourceMap : Option Loose} {dependencies : List Loose} {e : Entry} :
    ofParts css sourceMap dependencies diagnostic = .ok e ↔
      css = e.css? ∧ sourceMap = e.sourceMap ∧ dependencies = e.dependencies ∧
        diagnostic = e.diagnostic? := by
  obtain ⟨outcome, sourceMap', dependencies'⟩ := e
  cases outcome with
  | css text => cases css <;> cases diagnostic <;> simp [ofParts, css?, diagnostic?]
  | failed d =>
    cases css with
    | some text => cases diagnostic <;> simp [ofParts, css?]
    | none =>
      cases diagnostic with
      | none => simp [ofParts, diagnostic?]
      | some d' =>
        simp only [ofParts, css?, diagnostic?, Except.ok.injEq, Entry.mk.injEq, Outcome.failed.injEq,
          Option.some.injEq, true_and]
        rw [and_rotate, eq_comm (a := d')]

/-- An entry is made of its fields, and of exactly one of a stylesheet and a failure. -/
theorem ofFields_eq_ok_iff {e : Entry} : ofFields fields diagnostic = .ok e ↔
    Record.optional fields "css" Record.text = .ok e.css? ∧
      Record.optional fields "source_map" Record.text = .ok e.sourceMap ∧
      Record.listOf fields "dependencies" Record.text = .ok e.dependencies ∧
      diagnostic = e.diagnostic? := by
  simp only [ofFields, Record.bind_eq_ok_iff, Record.both_eq_ok, ofParts_eq_ok_iff]
  constructor
  · rintro ⟨⟨css, sourceMap, dependencies⟩, ⟨hcss, hmap, hdependencies⟩, rfl, rfl, rfl, rfl⟩
    exact ⟨hcss, hmap, hdependencies, rfl⟩
  · rintro ⟨hcss, hmap, hdependencies, rfl⟩
    exact ⟨(e.css?, e.sourceMap, e.dependencies), ⟨hcss, hmap, hdependencies⟩, rfl, rfl, rfl, rfl⟩

end Entry

end SheetBuild
