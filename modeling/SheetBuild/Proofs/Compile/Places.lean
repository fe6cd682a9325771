import Mathlib.Data.List.Basic
import Mathlib.Data.List.TakeWhile
import SheetBuild.Proofs.Compile.Refusal
import SheetBuild.Proofs.Json.Atoms
set_option autoImplicit false

/-!
# Places in reports

An engine writes the place of an error on a line of its own, below what is wrong and above an excerpt
of the source (`Complaint.message`).  The place is found there and nowhere else (`place?_message`), but
only up to the first blank of the name: a name with a blank is cut, and one that begins with a blank
hides the place (`Complaint.seen`).
-/

namespace SheetBuild.Compile

/-! ## The text of a place -/

namespace ReportedPlace

/-- The text of a place. -/
def text (p : ReportedPlace) : List Char :=
  "on line ".toList ++ (p.line ++ ':' :: (p.column ++ (" of ".toList ++ p.file.toList)))

/-- The numbers of a place are digits, and the name of its file has no blank. -/
structure WellFormed (p : ReportedPlace) : Prop where
  line_ne : p.line ≠ []
  line : ∀ c ∈ p.line, Text.isDigit c = true
  column_ne : p.column ≠ []
  column : ∀ c ∈ p.column, Text.isDigit c = true
  file_ne : p.file.toList ≠ []
  file : ∀ c ∈ p.file.toList, Text.isBlank c = false

end ReportedPlace

theorem after?_append (start cs : List Char) : after? start (start ++ cs) = some cs := by
  simp [after?]

theorem after?_eq_some {start cs rest : List Char} (h : after? start cs = some rest) :
    cs = start ++ rest := by
  unfold after? at h
  split at h
  · rename_i hstart
    obtain ⟨rest', rfl⟩ := List.isPrefixOf_iff_prefix.1 hstart
    simpa using h
  · exact absurd h (by simp)

/-- A run of characters ends where one stands that is not of its kind. -/
theorem span_append {p : Char → Bool} {run rest : List Char} (hrun : ∀ c ∈ run, p c = true)
    (hrest : ∀ c ∈ rest.head?, p c = false) :
    (run ++ rest).takeWhile p = run ∧ (run ++ rest).dropWhile p = rest := by
  rw [List.takeWhile_append_of_pos hrun, List.dropWhile_append_of_pos hrun]
  cases rest with
  | nil => simp
  | cons c rest => simp [hrest c rfl]

theorem digits?_append {ds rest : List Char} (hne : ds ≠ []) (hds : ∀ c ∈ ds, Text.isDigit c = true)
    (hrest : ∀ c ∈ rest.head?, Text.isDigit c = false) : digits? (ds ++ rest) = some (ds, rest) := by
  obtain ⟨htake, hdrop⟩ := span_append hds hrest
  rw [digits?, htake, hdrop]
  simp [hne]

theorem digits?_eq_some {cs ds rest : List Char} (h : digits? cs = some (ds, rest)) :
    cs = ds ++ rest ∧ ds ≠ [] ∧ ∀ c ∈ ds, Text.isDigit c = true := by
  unfold digits? at h
  simp only at h
  split at h
  · exact absurd h (by simp)
  · rename_i hne
    obtain ⟨rfl, rfl⟩ := Prod.mk.inj (Option.some.inj h)
    refine ⟨List.takeWhile_append_dropWhile.symm, by simpa using hne, ?_⟩
    intro c hc
    exact List.mem_takeWhile_imp hc

/-- A text that begins with numbers of a place and a name: the name goes as far as the first blank. -/
theorem placeHere?_append {line column : List Char} (hline : line ≠ [])
    (hline' : ∀ c ∈ line, Text.isDigit c = true) (hcolumn : column ≠ [])
    (hcolumn' : ∀ c ∈ column, Text.isDigit c = true) (cs : List Char) :
    placeHere? ("on line ".toList ++ (line ++ ':' :: (column ++ (" of ".toList ++ cs))))
      = if (cs.takeWhile (!Text.isBlank ·)).isEmpty then none
        else some ⟨line, column, String.ofList (cs.takeWhile (!Text.isBlank ·))⟩ := by
  have hcolon : ∀ c ∈ (':' :: (column ++ (" of ".toList ++ cs))).head?, Text.isDigit c = false := by
    rintro c ⟨⟩
    decide
  have hspace : ∀ c ∈ (" of ".toList ++ cs).head?, Text.isDigit c = false := by
    rintro c ⟨⟩
    decide
  have hafter := after?_append [':'] (column ++ (" of ".toList ++ cs))
  rw [List.singleton_append] at hafter
  simp only [placeHere?, after?_append, Option.bind_eq_bind, Option.bind_some,
    digits?_append hline hline' hcolon, hafter, digits?_append hcolumn hcolumn' hspace]

/-- The places that a text begins with. -/
theorem placeHere?_eq_some_iff {cs : List Char} {p : ReportedPlace} :
    placeHere? cs = some p ↔ p.WellFormed ∧
      ∃ rest, cs = p.text ++ rest ∧ ∀ c ∈ rest.head?, Text.isBlank c = true := by
  constructor
  · intro h
    simp only [placeHere?, Option.bind_eq_bind, Option.bind_eq_some_iff] at h
    obtain ⟨cs₁, h₁, ⟨line, cs₂⟩, h₂, cs₃, h₃, ⟨column, cs₄⟩, h₄, cs₅, h₅, h⟩ := h
    obtain rfl := after?_eq_some h₁
    obtain ⟨rfl, hline, hline'⟩ := digits?_eq_some h₂
    obtain rfl := after?_eq_some h₃
    obtain ⟨rfl, hcolumn, hcolumn'⟩ := digits?_eq_some h₄
    obtain rfl := after?_eq_some h₅
    split at h
    · exact absurd h (by simp)
    · rename_i hfile
      obtain rfl := Option.some.inj h
      refine ⟨⟨hline, hline', hcolumn, hcolumn', by simpa using hfile, ?_⟩,
        cs₅.dropWhile (!Text.isBlank ·), ?_, ?_⟩
      · intro c hc
        rw [String.toList_ofList] at hc
        simpa using List.mem_takeWhile_imp hc
      · unfold ReportedPlace.text
        generalize "on line ".toList = opening
        generalize " of ".toList = link
        simp only [String.toList_ofList, List.append_assoc, List.cons_append, List.nil_append,
          List.takeWhile_append_dropWhile]
      · intro c hc
        have hstop := List.head?_dropWhile_not (!Text.isBlank ·) cs₅
        rw [hc] at hstop
        simpa using hstop
  · rintro ⟨hwell, rest, rfl, hrest⟩
    have hrun : ∀ c ∈ p.file.toList, (!Text.isBlank c) = true := by simpa using hwell.file
    have hfile : (p.file.toList ++ rest).takeWhile (!Text.isBlank ·) = p.file.toList :=
      (span_append hrun (by simpa using hrest)).1
    have hhere := placeHere?_append hwell.line_ne hwell.line hwell.column_ne hwell.column
      (p.file.toList ++ rest)
    rw [hfile, if_neg (by simpa using hwell.file_ne), String.ofList_toList] at hhere
    unfold ReportedPlace.text
    revert hhere
    generalize "on line ".toList = opening
    generalize " of ".toList = link
    simp only [List.append_assoc, List.cons_append]
    exact id

/-! ## Finding a place -/

/-- What a text begins with does not change when a blank and more is added behind it, unless a place
reaches beyond its end. -/
theorem placeHere?_append_of_blank {cs rest : List Char}
    (hrest : ∀ c ∈ rest.head?, Text.isBlank c = true)
    (hstop : ∀ p : ReportedPlace, p.WellFormed → p.text <+: cs ++ rest → p.text <+: cs) :
    placeHere? (cs ++ rest) = placeHere? cs := by
  apply Option.ext
  intro p
  rw [placeHere?_eq_some_iff, placeHere?_eq_some_iff]
  refine and_congr_right fun hwell => ?_
  constructor
  · rintro ⟨rest', heq, hrest'⟩
    obtain ⟨behind, rfl⟩ := hstop p hwell ⟨rest', heq.symm⟩
    rw [List.append_assoc] at heq
    obtain rfl := List.append_cancel_left heq
    refine ⟨behind, rfl, ?_⟩
    cases behind with
    | nil => simp
    | cons c behind => exact hrest'
  · rintro ⟨behind, rfl, hbehind⟩
    refine ⟨behind ++ rest, List.append_assoc .., ?_⟩
    cases behind with
    | nil => exact hrest
    | cons c behind => exact hbehind

namespace ReportedPlace.WellFormed

variable {p : ReportedPlace}

/-- A place stands on one line. -/
theorem newline_not_mem (h : p.WellFormed) : '\n' ∉ p.text := by
  have hline : '\n' ∉ p.line := fun hmem => absurd (h.line _ hmem) (by decide)
  have hcolumn : '\n' ∉ p.column := fun hmem => absurd (h.column _ hmem) (by decide)
  have hfile : '\n' ∉ p.file.toList := fun hmem => absurd (h.file _ hmem) (by decide)
  have hopening : '\n' ∉ "on line ".toList := by decide
  have hlink : '\n' ∉ " of ".toList := by decide
  unfold text
  revert hopening hlink
  generalize "on line ".toList = opening
  generalize " of ".toList = link
  intro hopening hlink
  simp only [List.mem_append, List.mem_cons, not_or]
  exact ⟨hopening, hline, by decide, hcolumn, hlink, hfile⟩

/-- A place does not end in a blank. -/
theorem getLast?_text (h : p.WellFormed) : ∀ c ∈ p.text.getLast?, Text.isBlank c = false := by
  intro c hc
  have hlast : p.text.getLast? = p.file.toList.getLast? := by
    unfold text
    generalize "on line ".toList = opening
    generalize " of ".toList = link
    obtain ⟨last, hlast⟩ := Option.isSome_iff_exists.1 (List.getLast?_isSome.2 h.file_ne)
    simp [List.getLast?_append, List.getLast?_cons, hlast]
  rw [hlast] at hc
  exact h.file c (List.mem_of_getLast? hc)

/-- A place that begins in a line ends there. -/
theorem prefix_of_line (h : p.WellFormed) {cs rest : List Char} (hp : p.text <+: cs ++ '\n' :: rest) :
    p.text <+: cs := by
  rcases List.prefix_or_prefix_of_prefix hp (List.prefix_append _ _) with hp' | ⟨more, hmore⟩
  · exact hp'
  · rw [← hmore, List.prefix_append_right_inj] at hp
    cases more with
    | nil => simp [← hmore]
    | cons c more =>
      obtain ⟨rfl, -⟩ := List.cons_prefix_cons.1 hp
      refine absurd ?_ h.newline_not_mem
      rw [← hmore]
      simp

/-- A place does not reach into the blanks at the end of a text. -/
theorem prefix_of_blanks (h : p.WellFormed) {cs blanks : List Char}
    (hblanks : ∀ c ∈ blanks, Text.isBlank c = true) (hp : p.text <+: cs ++ blanks) :
    p.text <+: cs := by
  rcases List.prefix_or_prefix_of_prefix hp (List.prefix_append _ _) with hp' | ⟨more, hmore⟩
  · exact hp'
  · rw [← hmore, List.prefix_append_right_inj] at hp
    rcases List.eq_nil_or_concat more with rfl | ⟨more, c, rfl⟩
    · simp [← hmore]
    · have hblank := hblanks c (hp.subset (by simp))
      have hlast := h.getLast?_text c (by rw [← hmore]; simp)
      rw [hblank] at hlast
      exact absurd hlast (by simp)

end ReportedPlace.WellFormed

/-- A place begins with the letter `o`. -/
theorem placeHere?_cons_of_ne {c : Char} (hc : c ≠ 'o') (rest : List Char) :
    placeHere? (c :: rest) = none := by
  rw [Option.eq_none_iff_forall_ne_some]
  intro p hp
  obtain ⟨-, rest', heq, -⟩ := placeHere?_eq_some_iff.1 hp
  have hopening : "on line ".toList.head? = some 'o' := by decide
  unfold ReportedPlace.text at heq
  revert heq hopening
  generalize "on line ".toList = opening
  intro heq hopening
  cases opening with
  | nil => exact absurd hopening (by simp)
  | cons d opening =>
    obtain rfl := Option.some.inj hopening
    exact hc (List.cons.inj heq).1

theorem place?_cons_of_ne {c : Char} (hc : c ≠ 'o') (rest : List Char) :
    place? (c :: rest) = place? rest := by
  rw [place?, placeHere?_cons_of_ne hc]

theorem place?_append_of_ne {front : List Char} (hfront : ∀ c ∈ front, c ≠ 'o') (rest : List Char) :
    place? (front ++ rest) = place? rest := by
  induction front with
  | nil => rfl
  | cons c front ih =>
    obtain ⟨hc, hfront⟩ := List.forall_mem_cons.1 hfront
    rw [List.cons_append, place?_cons_of_ne hc, ih hfront]

/-- A place that could begin with the opening begins there or behind it. -/
theorem place?_opening (rest : List Char) :
    place? ("on line ".toList ++ rest) = (placeHere? ("on line ".toList ++ rest)).or (place? rest) := by
  have hopening : "on line ".toList = 'o' :: ['n', ' ', 'l', 'i', 'n', 'e', ' '] := rfl
  rw [hopening, List.cons_append, place?, place?_append_of_ne (by simp)]
  cases placeHere? ('o' :: (['n', ' ', 'l', 'i', 'n', 'e', ' '] ++ rest)) with
  | none => rfl
  | some p => rfl

/-- No place begins within the words around it. -/
theorem place?_link (rest : List Char) : place? (" of ".toList ++ rest) = place? rest := by
  have hlink : " of ".toList = [' ', 'o', 'f', ' '] := rfl
  have hopening : "on line ".toList = ['o', 'n', ' ', 'l', 'i', 'n', 'e', ' '] := rfl
  have hnone : placeHere? ('o' :: 'f' :: ' ' :: rest) = none := by
    rw [placeHere?, after?, hopening]
    rfl
  rw [hlink, List.cons_append, place?_cons_of_ne (by decide)]
  show place? ('o' :: 'f' :: ' ' :: rest) = place? rest
  have hrest : ∀ c ∈ ['f', ' '], c ≠ 'o' := by simp
  rw [place?, hnone]
  exact place?_append_of_ne hrest rest

theorem place?_error (rest : List Char) : place? ("Error: ".toList ++ rest) = place? rest := by
  have herror : "Error: ".toList = ['E', 'r', 'r', 'o', 'r', ':', ' '] := rfl
  have hopening : "on line ".toList = ['o', 'n', ' ', 'l', 'i', 'n', 'e', ' '] := rfl
  have hnone : placeHere? ('o' :: 'r' :: ':' :: ' ' :: rest) = none := by
    rw [placeHere?, after?, hopening]
    rfl
  rw [herror]
  show place? (['E', 'r', 'r'] ++ 'o' :: 'r' :: ':' :: ' ' :: rest) = place? rest
  have hrest : ∀ c ∈ ['r', ':', ' '], c ≠ 'o' := by simp
  rw [place?_append_of_ne (by simp), place?, hnone]
  exact place?_append_of_ne hrest rest

/-- The first place in lines is that of the first line that has one. -/
theorem place?_append_line (cs rest : List Char) :
    place? (cs ++ '\n' :: rest) = (place? cs).or (place? rest) := by
  induction cs with
  | nil => exact place?_cons_of_ne (by decide) rest
  | cons c cs ih =>
    have hhere : placeHere? (c :: cs ++ '\n' :: rest) = placeHere? (c :: cs) := by
      refine placeHere?_append_of_blank ?_ fun p hp => hp.prefix_of_line
      rintro c ⟨⟩
      decide
    rw [List.cons_append] at hhere ⊢
    rw [place?, place?, hhere, ih]
    cases placeHere? (c :: cs) with
    | none => rfl
    | some p => rfl

theorem place?_append_blanks {blanks : List Char} (h : ∀ c ∈ blanks, Text.isBlank c = true)
    (cs : List Char) : place? (cs ++ blanks) = place? cs := by
  induction cs with
  | nil =>
    have hfront : ∀ c ∈ blanks, c ≠ 'o' := by
      rintro c hc rfl
      exact absurd (h _ hc) (by decide)
    have hnone := place?_append_of_ne hfront []
    rwa [List.append_nil] at hnone
  | cons c cs ih =>
    have hhere : placeHere? (c :: cs ++ blanks) = placeHere? (c :: cs) := by
      refine placeHere?_append_of_blank ?_ fun p hp => hp.prefix_of_blanks h
      intro c hc
      exact h c (List.mem_of_head? hc)
    rw [List.cons_append] at hhere ⊢
    rw [place?, place?, hhere, ih]

/-- Blanks at the ends of a message have no part in its place. -/
theorem place?_trim (cs : List Char) : place? (Text.trim cs) = place? cs := by
  have hback : ∀ cs : List Char, place? (Text.dropEndWhile Text.isBlank cs) = place? cs := by
    intro cs
    have hsplit : cs = Text.dropEndWhile Text.isBlank cs
        ++ (cs.reverse.takeWhile Text.isBlank).reverse := by
      rw [Text.dropEndWhile, ← List.reverse_append, List.takeWhile_append_dropWhile,
        List.reverse_reverse]
    conv_rhs => rw [hsplit]
    refine (place?_append_blanks ?_ _).symm
    intro c hc
    exact List.mem_takeWhile_imp (List.mem_reverse.1 hc)
  have hfront : ∀ c ∈ cs.takeWhile Text.isBlank, c ≠ 'o' := by
    rintro c hc rfl
    exact absurd (List.mem_takeWhile_imp hc) (by decide)
  rw [Text.trim, Text.trimWhile, hback, ← place?_append_of_ne hfront,
    List.takeWhile_append_dropWhile]

/-- A place that is found is one. -/
theorem wellFormed_of_place? {cs : List Char} {p : ReportedPlace} (h : place? cs = some p) :
    p.WellFormed := by
  induction cs with
  | nil => exact absurd h (by simp [place?])
  | cons c cs ih =>
    rw [place?] at h
    split at h
    · rename_i hhere
      obtain rfl := Option.some.inj h
      exact (placeHere?_eq_some_iff.1 hhere).1
    · exact ih h

/-! ## Complaints -/

/-- An error as an engine words it: what is wrong, the place, and an excerpt of the source. -/
structure Complaint where
  text : List Char
  indent : Nat
  line : Nat
  column : Nat
  /-- the name of the file -/
  name : String
  excerpt : List Char
  deriving DecidableEq, Repr

namespace Complaint

/-- The line of the message that names the place. -/
def position (r : Complaint) : List Char :=
  List.replicate r.indent ' ' ++ ("on line ".toList ++ (Nat.toDigits 10 r.line ++
    ':' :: (Nat.toDigits 10 r.column ++ (" of ".toList ++ r.name.toList))))

/-- The message of an error. -/
def message (r : Complaint) : String :=
  String.ofList ("Error: ".toList ++ (r.text ++ '\n' :: (r.position ++ '\n' :: r.excerpt)))

/-- Neither the words of an error nor the excerpt have a place, and its numbers can be read. -/
structure Clear (r : Complaint) : Prop where
  text : place? r.text = none
  excerpt : place? r.excerpt = none
  line : Number.Integer.IsShort r.line
  column : Number.Integer.IsShort r.column

/-- The name up to its first blank. -/
def word (r : Complaint) : List Char := r.name.toList.takeWhile (!Text.isBlank ·)

/-- The place that is found in the message. -/
def seen (r : Complaint) : Option ReportedPlace :=
  if r.word = [] then place? r.name.toList
  else some ⟨Nat.toDigits 10 r.line, Nat.toDigits 10 r.column, String.ofList r.word⟩

/-- The digits of a number have the values that they have in every reading. -/
theorem digit?_of_mem_toDigits {n : Nat} {c : Char} (h : c ∈ Nat.toDigits 10 n) :
    Text.digit? c = some (c.toNat - 48) := by
  have hdigit := Json.isDigit_of_mem_toDigits h
  simp only [Number.Integer.isDigit, Bool.and_eq_true, decide_eq_true_eq] at hdigit
  have hlow : 0x30 ≤ c.toNat := hdigit.1
  have hhigh : c.toNat ≤ 0x30 + 9 := hdigit.2
  rw [Text.digit?, Text.zeros, List.find?_cons_of_pos (by simp [hlow, hhigh])]
  rfl

theorem isDigit_toDigits (n : Nat) : ∀ c ∈ Nat.toDigits 10 n, Text.isDigit c = true := by
  intro c hc
  rw [Text.isDigit, digit?_of_mem_toDigits hc]
  rfl

/-- A number that is not too long is read as it was written. -/
theorem number_toDigits {n : Nat} (h : Number.Integer.IsShort n) :
    number (Nat.toDigits 10 n) = .ok n := by
  have hvalue : Text.digitsValue (Nat.toDigits 10 n) = n := by
    refine Eq.trans ?_ (Json.digitsValue_toDigits n)
    refine List.foldl_ext _ _ _ fun m c hc => ?_
    rw [digit?_of_mem_toDigits hc]
    rfl
  have hlength : ¬ Number.Integer.maxDigits < (Nat.toDigits 10 n).length := Nat.not_lt.2 h
  rw [number, if_neg hlength, hvalue]

/-- The line of the place gives what is seen. -/
theorem place?_position (r : Complaint) : place? r.position = r.seen := by
  have hspaces : ∀ c ∈ List.replicate r.indent ' ', c ≠ 'o' := by
    intro c hc
    rw [List.eq_of_mem_replicate hc]
    decide
  have hdigits : ∀ n, ∀ c ∈ Nat.toDigits 10 n, c ≠ 'o' := by
    rintro n c hc rfl
    exact absurd (isDigit_toDigits n _ hc) (by decide)
  have hhere := placeHere?_append Nat.toDigits_ne_nil (isDigit_toDigits r.line)
    Nat.toDigits_ne_nil (isDigit_toDigits r.column) r.name.toList
  rw [position, place?_append_of_ne hspaces, place?_opening, hhere,
    place?_append_of_ne (hdigits r.line), place?_cons_of_ne (by decide),
    place?_append_of_ne (hdigits r.column), place?_link, seen, word]
  cases r.name.toList.takeWhile (!Text.isBlank ·) with
  | nil => simp
  | cons c cs => simp

/-- The place that is found in a message is the one that is seen. -/
theorem place?_message {r : Complaint} (h : r.Clear) :
    place? (Text.trim r.message.toList) = r.seen := by
  have hfront : place? ("Error: ".toList ++ r.text) = none := by
    rw [place?_error, h.text]
  unfold message
  rw [place?_trim, String.toList_ofList]
  revert hfront
  generalize "Error: ".toList = front
  intro hfront
  rw [← List.append_assoc, place?_append_line, hfront, Option.none_or, place?_append_line, h.excerpt,
    Option.or_none, place?_position]

end Complaint

/-! ## Refusals of complaints -/

/-- A refusal is at the entry, or at a name without blanks. -/
theorem sourceFile_of_ofReport {message entry : String} {r : Rejection}
    (h : Fault.ofReport message entry = .rejected r) :
    r.sourceFile = some entry ∨
      ∃ file, r.sourceFile = some file ∧ ∀ c ∈ file.toList, Text.isBlank c = false := by
  unfold Fault.ofReport at h
  obtain ⟨r', hr', -⟩ | ⟨n, hlong⟩ := Rejection.ofReport_cases message entry
  · rw [hr'] at h
    obtain rfl := Fault.rejected.inj h
    unfold Rejection.ofReport at hr'
    simp only at hr'
    split at hr'
    · obtain rfl := Except.ok.inj hr'
      exact .inl rfl
    · rename_i p hp
      obtain ⟨line, hline, -⟩ | ⟨n, hline⟩ := number_cases p.line
      · obtain ⟨column, hcolumn, -⟩ | ⟨n, hcolumn⟩ := number_cases p.column
        · rw [hline, hcolumn] at hr'
          obtain rfl := Except.ok.inj hr'
          by_cases hentry : p.file = entryName
          · exact .inl (congrArg some (if_pos hentry))
          · exact .inr ⟨p.file, congrArg some (if_neg hentry), (wellFormed_of_place? hp).file⟩
        · rw [hline, hcolumn] at hr'
          exact absurd hr' (by simp [bind, Except.bind])
      · rw [hline] at hr'
        exact absurd hr' (by simp [bind, Except.bind])
  · rw [hlong] at h
    exact absurd h (by simp)

/-- A complaint whose name does not begin with a blank is refused at its line and column, and at its
name up to the first blank. -/
theorem ofReport_message {r : Complaint} (h : r.Clear) (hword : r.word ≠ []) (entry : String) :
    Fault.ofReport r.message entry = .rejected ⟨String.ofList (Text.trim r.message.toList),
      some (if String.ofList r.word = entryName then entry else String.ofList r.word),
      some r.line, some r.column⟩ := by
  unfold Fault.ofReport Rejection.ofReport
  simp only [Complaint.place?_message h, Complaint.seen, if_neg hword]
  rw [Complaint.number_toDigits h.line, Complaint.number_toDigits h.column]
  rfl

end SheetBuild.Compile
