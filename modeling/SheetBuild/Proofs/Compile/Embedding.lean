import SheetBuild.Compile.EmbeddedMap
import SheetBuild.Proofs.Cache.Document
import SheetBuild.Proofs.Text.Base64
set_option autoImplicit false

/-!
# Stylesheets with an embedded source map

The comment that a stylesheet ends in is found, whatever comments stand before it (`find?_comment`),
and what is found is such a comment (`eq_of_find?`).  The payload that is made of a map is read as that
map again (`decode_payloadOf`), so splitting takes the map off as it was put in (`split_map`).
-/

namespace SheetBuild.Text

variable {p : Char → Bool} {cs tail : List Char} {c : Char}

/-- Nothing is left of a tail that is dropped as a whole. -/
theorem dropEndWhile_append (h : ∀ c ∈ tail, p c = true) (cs : List Char) :
    dropEndWhile p (cs ++ tail) = dropEndWhile p cs := by
  rw [dropEndWhile, List.reverse_append, List.dropWhile_append_of_pos, dropEndWhile]
  exact fun c hc => h c (List.mem_reverse.1 hc)

/-- A last character that is kept keeps everything before it. -/
theorem dropEndWhile_concat (h : p c = false) (cs : List Char) :
    dropEndWhile p (cs ++ [c]) = cs ++ [c] := by
  simp [dropEndWhile, h]

/-- A text is what is left of it and the tail that is dropped. -/
theorem dropEndWhile_append_tail (p : Char → Bool) (cs : List Char) :
    dropEndWhile p cs ++ (cs.reverse.takeWhile p).reverse = cs := by
  rw [dropEndWhile, ← List.reverse_append, List.takeWhile_append_dropWhile, List.reverse_reverse]

/-- The tail that is dropped. -/
theorem of_mem_tail (h : c ∈ (cs.reverse.takeWhile p).reverse) : p c = true :=
  List.all_eq_true.1 List.all_takeWhile c (List.mem_reverse.1 h)

end SheetBuild.Text

namespace SheetBuild.Compile.EmbeddedMap

open SheetBuild.Text (dropEndWhile isBlank)

variable {css front payload cs ending rest : List Char}

/-! ## Endings -/

theorem dropEnding?_eq_some_iff : dropEnding? ending cs = some rest ↔ cs = rest ++ ending := by
  unfold dropEnding?
  constructor
  · intro h
    split at h
    · rename_i hsuffix
      obtain ⟨rest', rfl⟩ := List.isSuffixOf_iff_suffix.1 hsuffix
      simpa using Option.some.inj h
    · simp at h
  · rintro rfl
    simp

/-- The opening does not end with a character set. -/
theorem dropEnding?_charset : dropEnding? (opening ++ charset) (cs ++ opening) = none := by
  rw [Option.eq_none_iff_forall_not_mem]
  intro rest hrest
  have heq := dropEnding?_eq_some_iff.1 hrest
  have hcharset : charset <:+ cs ++ opening := ⟨rest ++ opening, by rw [heq, List.append_assoc]⟩
  have hopening : opening <:+ cs ++ opening := List.suffix_append cs opening
  have habsurd : charset <:+ opening := List.suffix_of_suffix_length_le hcharset hopening (by decide)
  exact absurd habsurd (by decide)

/-! ## Comments -/

/-- The characters of a payload. -/
structure IsPayload (payload : List Char) : Prop where
  nonempty : payload ≠ []
  chars : ∀ c ∈ payload, isPayload c = true

/-- The part of a comment before the statement of its encoding. -/
def head (withCharset : Bool) : List Char := opening ++ (if withCharset then charset else [])

theorem comment_eq (withCharset : Bool) (payload : List Char) :
    comment withCharset payload = head withCharset ++ encoding ++ payload ++ closing := rfl

/-- What stands before the payload goes up to a comma, which no payload holds. -/
theorem payload_behind (h : ∀ c ∈ payload, isPayload c = true) (front : List Char) :
    ((front ++ encoding ++ payload).reverse.takeWhile isPayload).reverse = payload ∧
      dropEndWhile isPayload (front ++ encoding ++ payload) = front ++ encoding := by
  have hcomma : front ++ encoding = front ++ "base64".toList ++ [','] := by
    rw [List.append_assoc]
    rfl
  rw [hcomma]
  refine ⟨?_, ?_⟩
  · have hstop : (front ++ "base64".toList ++ [',']).reverse.takeWhile isPayload = [] := by
      rw [List.reverse_append]
      exact List.takeWhile_cons_of_neg (by decide)
    rw [List.reverse_append, List.takeWhile_append_of_pos fun c hc => h c (List.mem_reverse.1 hc),
      hstop, List.append_nil, List.reverse_reverse]
  · rw [Text.dropEndWhile_append h, Text.dropEndWhile_concat (by decide)]

/-- The comment that a stylesheet ends in is found, whatever stands before it. -/
theorem find?_comment (h : IsPayload payload) (front : List Char) (withCharset : Bool)
    {blanks : List Char} (hblanks : ∀ c ∈ blanks, isBlank c = true) :
    find? (front ++ comment withCharset payload ++ blanks) = some (front, payload) := by
  have htrimmed : dropEndWhile isBlank (front ++ comment withCharset payload ++ blanks)
      = front ++ head withCharset ++ encoding ++ payload ++ closing := by
    have hslash : front ++ comment withCharset payload
        = front ++ head withCharset ++ encoding ++ payload ++ [' ', '*'] ++ ['/'] := by
      simp [comment_eq, closing]
    rw [Text.dropEndWhile_append hblanks, hslash, Text.dropEndWhile_concat (by decide)]
    simp [closing]
  obtain ⟨hpayload, hfront⟩ := payload_behind h.chars (front ++ head withCharset)
  have hne : payload.isEmpty = false := by simpa using h.nonempty
  unfold find?
  rw [htrimmed, dropEnding?_eq_some_iff.2 rfl]
  simp only [Option.bind_eq_bind, Option.bind_some, hpayload, hfront, hne, Bool.false_eq_true,
    if_false, dropEnding?_eq_some_iff.2 rfl]
  cases withCharset with
  | true =>
    have hhead : dropEnding? (opening ++ charset) (front ++ head true) = some front :=
      dropEnding?_eq_some_iff.2 rfl
    rw [hhead]
  | false =>
    have hhead : front ++ head false = front ++ opening := by simp [head]
    rw [hhead, dropEnding?_charset, dropEnding?_eq_some_iff.2 rfl]
    rfl

/-- What is found is the comment that the stylesheet ends in. -/
theorem eq_of_find? (h : find? css = some (front, payload)) :
    IsPayload payload ∧ ∃ withCharset blanks, (∀ c ∈ blanks, isBlank c = true) ∧
      css = front ++ comment withCharset payload ++ blanks := by
  unfold find? at h
  simp only [Option.bind_eq_bind, Option.bind_eq_some_iff] at h
  obtain ⟨body, hbody, h⟩ := h
  split at h
  · simp at h
  · rename_i hne
    obtain ⟨kept, hkept, h⟩ := Option.bind_eq_some_iff.1 h
    have hblanks := Text.dropEndWhile_append_tail isBlank css
    have hbehind := Text.dropEndWhile_append_tail isPayload body
    rw [dropEnding?_eq_some_iff.1 hbody] at hblanks
    rw [dropEnding?_eq_some_iff.1 hkept] at hbehind
    have hpayload : IsPayload (body.reverse.takeWhile isPayload).reverse :=
      ⟨by simpa using hne, fun c => Text.of_mem_tail⟩
    -- with or without a character set, what is left is put together again
    have hput : ∀ withCharset, kept = front ++ head withCharset →
        payload = (body.reverse.takeWhile isPayload).reverse →
        css = front ++ comment withCharset payload ++ (css.reverse.takeWhile isBlank).reverse := by
      rintro withCharset rfl rfl
      rw [comment_eq]
      simp only [← List.append_assoc]
      rw [hbehind, hblanks]
    split at h
    · rename_i rest hrest
      obtain ⟨rfl, rfl⟩ := Prod.mk.inj (Option.some.inj h)
      have hkept' := dropEnding?_eq_some_iff.1 hrest
      exact ⟨hpayload, true, _, fun c => Text.of_mem_tail, hput true hkept' rfl⟩
    · obtain ⟨rest, hrest, heq⟩ := Option.map_eq_some_iff.1 h
      obtain ⟨rfl, rfl⟩ := Prod.mk.inj heq
      have hkept' : kept = rest ++ head false := by
        simpa [head] using dropEnding?_eq_some_iff.1 hrest
      exact ⟨hpayload, false, _, fun c => Text.of_mem_tail, hput false hkept' rfl⟩

/-! ## Splitting -/

/-- The payload of a map. -/
def payloadOf (m : List Char) : List Char := Text.Base64.encode (Text.Utf8.encode m)

/-- The map is read from its payload again. -/
theorem decode_payloadOf (m : List Char) : decode (payloadOf m) = .ok m := by
  simp only [decode, payloadOf, Text.Base64.decode_encode, Cache.decode?_encode]

/-- What base64 is written in can stand in a payload. -/
theorem isPayload_digitChar {v : Nat} (h : v < 64) :
    isPayload (Text.Base64.digitChar v) = true := by
  have hall : ∀ v : Fin 64, isPayload (Text.Base64.digitChar v) = true := by decide
  exact hall ⟨v, h⟩

/-- The payload of a map that is not empty is one. -/
theorem isPayload_payloadOf {m : List Char} (hm : m ≠ []) : IsPayload (payloadOf m) := by
  refine ⟨Text.Base64.encode_ne_nil ?_, fun c hc => ?_⟩
  · obtain ⟨c, r, rfl⟩ := List.exists_cons_of_ne_nil hm
    obtain ⟨b, bs, hchar⟩ : ∃ b bs, Text.Utf8.encodeChar c = b :: bs := by
      simp only [Text.Utf8.encodeChar]
      split
      · exact ⟨_, _, rfl⟩
      · split
        · exact ⟨_, _, rfl⟩
        · split <;> exact ⟨_, _, rfl⟩
    simp [hchar]
  · rcases Text.Base64.mem_encode hc with ⟨v, hv, rfl⟩ | rfl
    · exact isPayload_digitChar hv
    · rfl

/-- A stylesheet that ends in a comment for a payload, with blanks behind it at most. -/
def EndsInComment (css : List Char) : Prop :=
  ∃ front withCharset payload blanks, IsPayload payload ∧ (∀ c ∈ blanks, isBlank c = true) ∧
    css = front ++ comment withCharset payload ++ blanks

/-- The comment that a stylesheet ends in is taken off, and its payload is read. -/
theorem split_comment (h : IsPayload payload) (front : List Char) (withCharset : Bool)
    {blanks : List Char} (hblanks : ∀ c ∈ blanks, isBlank c = true) :
    split (front ++ comment withCharset payload ++ blanks) =
      (decode payload).map fun m => (dropEndWhile isBlank front ++ ['\n'], some m) := by
  rw [split, find?_comment h front withCharset hblanks]

/-- The comment of a map is taken off, and gives the map. -/
theorem split_map {m : List Char} (hm : m ≠ []) (front : List Char) (withCharset : Bool)
    {blanks : List Char} (hblanks : ∀ c ∈ blanks, isBlank c = true) :
    split (front ++ comment withCharset (payloadOf m) ++ blanks) =
      .ok (dropEndWhile isBlank front ++ ['\n'], some m) := by
  rw [split_comment (isPayload_payloadOf hm) front withCharset hblanks, decode_payloadOf]
  rfl

/-- A stylesheet that ends in no comment is left alone. -/
theorem split_of_not_endsInComment (h : ¬ EndsInComment css) : split css = .ok (css, none) := by
  cases hfind : find? css with
  | none => rw [split, hfind]
  | some found =>
    obtain ⟨front, payload⟩ := found
    obtain ⟨hpayload, withCharset, blanks, hblanks, hcss⟩ := eq_of_find? hfind
    exact absurd ⟨front, withCharset, payload, blanks, hpayload, hblanks, hcss⟩ h

/-- A stylesheet that ends in a comment for no map: the payload is a lone character. -/
def loneCharacter : List Char := comment false ['A']

/-- It is not the comment of a map, and it is not left alone: its payload cannot be read. -/
theorem split_loneCharacter :
    (¬ ∃ front withCharset m blanks, m ≠ [] ∧ (∀ c ∈ blanks, isBlank c = true) ∧
      loneCharacter = front ++ comment withCharset (payloadOf m) ++ blanks) ∧
    split loneCharacter = .error (.base64 (.lone 1)) := by
  have hlone : IsPayload ['A'] := ⟨by simp, by simp; decide⟩
  have hfind : find? loneCharacter = some ([], ['A']) := by
    have hcomment := find?_comment hlone [] false (List.forall_mem_nil _)
    simpa [loneCharacter] using hcomment
  have hdecode : decode ['A'] = .error (.base64 (.lone 1)) := by decide +kernel
  constructor
  · rintro ⟨front, withCharset, m, blanks, hm, hblanks, heq⟩
    have hmap := find?_comment (isPayload_payloadOf hm) front withCharset hblanks
    rw [← heq, hfind] at hmap
    have hpayload : ['A'] = payloadOf m := (Prod.mk.inj (Option.some.inj hmap)).2
    rw [hpayload, decode_payloadOf] at hdecode
    exact absurd hdecode (by simp)
  · rw [split, hfind]
    simp only [hdecode]
    rfl

end SheetBuild.Compile.EmbeddedMap
