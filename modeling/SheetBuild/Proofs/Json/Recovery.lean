import SheetBuild.Proofs.Json.Atoms
set_option autoImplicit false

/-!
# Reading back compact values

The reader gets a value back from its compact text (`Recovers`).  Texts are recovered in which no two
halves of a surrogate pair belong together, and integers that have no more digits than are read, and so
are arrays and objects of values that are; an object keeps its fields where their names differ.
-/

namespace SheetBuild.Json

open SheetBuild.Number (Integer.isDigit Integer.maxDigits)
open SheetBuild.Text (Loose Point)

/-! ## Values -/

/-- The reader gets a value back from its compact text, with so much room for nesting.  The text holds
no line end that a text file could lose. -/
structure Recovers (room : Nat) (v : Value) : Prop where
  starts : ∃ c r, compact v = c :: r ∧ isSpace c = false ∧ c ≠ ']'
  oneLine : '\r' ∉ compact v
  reads : ∀ fuel rest, 2 * (compact v).length ≤ fuel → Ends rest →
    readValue fuel room (compact v ++ rest) = .ok (v, rest)

/-- A value that begins with no bracket is read as an atom. -/
theorem readValue_atom {fuel room : Nat} {c : Char} {r : List Char} (hfuel : 0 < fuel)
    (harray : c ≠ '[') (hobject : c ≠ '\x7b') :
    readValue fuel room (c :: r) = readAtom (c :: r) := by
  rw [readValue.eq_def]
  split
  · exact absurd hfuel (by simp)
  · rename_i heq
    exact absurd (List.cons.inj heq).1 harray
  · rename_i heq
    exact absurd (List.cons.inj heq).1 hobject
  · rename_i heq
    exact absurd (List.cons.inj heq).1 harray
  · rename_i heq
    exact absurd (List.cons.inj heq).1 hobject
  · rfl

/-- A text is written between quotes, by its code points. -/
theorem compact_ofLoose (t : Loose) : compact (.ofLoose t) = quotedPoints t.points := by
  cases t with
  | whole s => exact (quotedPoints_map_char s.toList).symm
  | broken t => rfl

theorem Value.isShort_ofLoose (t : Loose) : (Value.ofLoose t).isShort = true := by
  cases t <;> rfl

/-- A text is written as it is when its halves are joined. -/
theorem compact_joined (t : Loose) : compact (.ofLoose t.joined) = compact (.ofLoose t) := by
  rw [compact_ofLoose, compact_ofLoose, Loose.joined, Loose.points_ofPoints, quotedPoints,
    quotedPoints, flatMap_escapePoint_joined]

theorem compactItems_cons_cons (v w : Value) (vs : List Value) :
    compactItems (v :: w :: vs) = compact v ++ ',' :: compactItems (w :: vs) := by
  rw [compactItems]
  simp

theorem compactFields_cons_cons (name : String) (v : Value) (g : String × Value)
    (fs : List (String × Value)) :
    compactFields ((name, v) :: g :: fs)
      = quoted name.toList ++ ':' :: (compact v ++ ',' :: compactFields (g :: fs)) := by
  rw [compactFields]
  · simp
  · simp

/-- Items are written one by one. -/
theorem compact_array_congr {vs ws : List Value} (h : vs.map compact = ws.map compact) :
    compact (.array vs) = compact (.array ws) := by
  have hitems : compactItems vs = compactItems ws := by
    induction vs generalizing ws with
    | nil =>
      obtain rfl := List.map_eq_nil_iff.1 h.symm
      rfl
    | cons v vs ih =>
      obtain ⟨w, ws', rfl, hw, hws⟩ := List.map_eq_cons_iff.1 h.symm
      cases vs with
      | nil =>
        obtain rfl := List.map_eq_nil_iff.1 hws
        exact hw.symm
      | cons v' vs =>
        obtain ⟨w', ws, rfl, -, -⟩ := List.map_eq_cons_iff.1 hws
        rw [compactItems_cons_cons, compactItems_cons_cons, hw, ih hws.symm]
  rw [compact, compact, hitems]

/-- Fields are written one by one. -/
theorem compact_object_congr {fs gs : List (String × Value)}
    (h : fs.map (fun f => (f.1, compact f.2)) = gs.map fun f => (f.1, compact f.2)) :
    compact (.object fs) = compact (.object gs) := by
  have hfields : compactFields fs = compactFields gs := by
    induction fs generalizing gs with
    | nil =>
      obtain rfl := List.map_eq_nil_iff.1 h.symm
      rfl
    | cons f fs ih =>
      obtain ⟨g, gs', rfl, hg, hgs⟩ := List.map_eq_cons_iff.1 h.symm
      obtain ⟨name, v⟩ := f
      obtain ⟨name', v'⟩ := g
      obtain ⟨rfl, hv⟩ := Prod.mk.inj hg
      cases fs with
      | nil =>
        obtain rfl := List.map_eq_nil_iff.1 hgs
        simp only [compactFields, hv]
      | cons f' fs =>
        obtain ⟨g', gs, rfl, -, -⟩ := List.map_eq_cons_iff.1 hgs
        rw [compactFields_cons_cons, compactFields_cons_cons, hv, ih hgs.symm]
  rw [compact, compact, hfields]

theorem recovers_ofLoose (room : Nat) {t : Loose} (h : t.isApart = true) :
    Recovers room (.ofLoose t) where
  starts := ⟨'"', _, compact_ofLoose t, rfl, by decide⟩
  oneLine := by
    rw [compact_ofLoose]
    exact return_not_mem_quotedPoints _
  reads := by
    intro fuel rest hfuel _
    rw [compact_ofLoose, quotedPoints] at hfuel ⊢
    have hatom : readAtom ('"' :: (t.points.flatMap escapePoint ++ '"' :: rest))
        = .ok (.ofLoose t, rest) := by
      simp only [readAtom, readString?_points h, List.reverse_nil, List.nil_append,
        Loose.ofPoints_points]
    have htext : '"' :: t.points.flatMap escapePoint ++ ['"'] ++ rest
        = '"' :: (t.points.flatMap escapePoint ++ '"' :: rest) := by
      simp
    have hpos : 0 < fuel := by
      have : 0 < ('"' :: t.points.flatMap escapePoint ++ ['"']).length := by simp
      omega
    rw [htext, readValue_atom hpos (by decide) (by decide), hatom]

theorem recovers_text (room : Nat) (s : String) : Recovers room (.text s) :=
  recovers_ofLoose room (Loose.isApart_whole s)

theorem recovers_int (room : Nat) {i : Int} (h : (Value.int i).isShort = true) :
    Recovers room (.int i) where
  starts := by
    obtain ⟨c, r, hc, hbegins⟩ := exists_cons_intText i
    obtain ⟨hspace, hclose, -⟩ := ne_of_begins_number hbegins
    exact ⟨c, r, hc, hspace, hclose⟩
  oneLine := by
    have hdigits : '\r' ∉ Nat.toDigits 10 i.natAbs := by
      intro h
      exact absurd (isDigit_of_mem_toDigits h) (by decide)
    rw [compact, intText]
    split
    · simp [hdigits]
    · exact hdigits
  reads := by
    intro fuel rest hfuel hends
    have hread := readAtom_intText i hends
    obtain ⟨c, r, hc, hbegins⟩ := exists_cons_intText i
    obtain ⟨-, -, harray, hobject⟩ := ne_of_begins_number hbegins
    have hpos : 0 < fuel := by
      have : 0 < (compact (.int i)).length := by simp [compact, hc]
      omega
    have hvalue : readValue fuel room (compact (.int i) ++ rest) = readAtom (intText i ++ rest) := by
      rw [compact, hc]
      exact readValue_atom hpos harray hobject
    have hshort : (Nat.toDigits 10 i.natAbs).length ≤ Integer.maxDigits := of_decide_eq_true h
    rw [hvalue, hread, if_neg (by omega)]

/-! ## Arrays and objects -/

theorem skipSpaces_of_not_space {c : Char} (h : isSpace c = false) (r : List Char) :
    skipSpaces (c :: r) = c :: r := by
  simp [skipSpaces, h]

theorem ends_cons {c : Char} (h : c = ',' ∨ c = ']' ∨ c = '\x7d') (r : List Char) :
    Ends (c :: r) := by
  intro c' r' heq
  exact (List.cons.inj heq).1 ▸ h

theorem readItems_succ (fuel room : Nat) (acc : List Value) (cs : List Char) :
    readItems (fuel + 1) room acc cs = (readValue fuel room cs).bind fun p =>
      match skipSpaces p.2 with
      | ',' :: r' => readItems fuel room (p.1 :: acc) (skipSpaces r')
      | ']' :: r' => .ok (.array (p.1 :: acc).reverse, r')
      | _ => .error .malformed := by
  rw [readItems]
  cases readValue fuel room cs <;> rfl

/-- Items begin with what the first of them begins with. -/
theorem exists_cons_compactItems {room : Nat} {v : Value} (h : Recovers room v) (vs : List Value)
    (rest : List Char) :
    ∃ c r, compactItems (v :: vs) ++ rest = c :: r ∧ isSpace c = false ∧ c ≠ ']' := by
  obtain ⟨c, r, hc, hspace, hclose⟩ := h.starts
  cases vs with
  | nil => exact ⟨c, r ++ rest, by rw [compactItems, hc]; rfl, hspace, hclose⟩
  | cons w ws => exact ⟨c, _, by rw [compactItems_cons_cons, hc]; rfl, hspace, hclose⟩

/-- The items of an array are read one after the other, up to the bracket that closes it. -/
theorem readItems_compactItems {room : Nat} {v : Value} {vs : List Value}
    (h : ∀ w ∈ v :: vs, Recovers room w) (fuel : Nat) (acc : List Value) (rest : List Char)
    (hfuel : 2 * (compactItems (v :: vs)).length + 1 ≤ fuel) :
    readItems fuel room acc (compactItems (v :: vs) ++ ']' :: rest)
      = .ok (.array (acc.reverse ++ v :: vs), rest) := by
  induction vs generalizing v fuel acc with
  | nil =>
    obtain ⟨n, rfl⟩ : ∃ n, fuel = n + 1 := ⟨fuel - 1, by omega⟩
    simp only [compactItems] at hfuel
    have hv := (h v List.mem_cons_self).reads n (']' :: rest) (by omega) (ends_cons (by simp) rest)
    rw [readItems_succ, compactItems, hv]
    simp only [Except.bind, skipSpaces_of_not_space (c := ']') rfl, List.reverse_cons]
  | cons w ws ih =>
    obtain ⟨n, rfl⟩ : ∃ n, fuel = n + 1 := ⟨fuel - 1, by omega⟩
    simp only [compactItems, List.length_append, List.length_cons] at hfuel
    have hws : ∀ u ∈ w :: ws, Recovers room u := fun u hu => h u (List.mem_cons_of_mem _ hu)
    have hlater := ih hws n (v :: acc) (by omega)
    have hv := (h v List.mem_cons_self).reads n (',' :: (compactItems (w :: ws) ++ ']' :: rest))
      (by omega) (ends_cons (by simp) _)
    obtain ⟨c, r, hc, hspace, -⟩ :=
      exists_cons_compactItems (hws w List.mem_cons_self) ws (']' :: rest)
    rw [readItems_succ, compactItems_cons_cons, List.append_assoc, List.cons_append, hv]
    simp only [Except.bind, skipSpaces_of_not_space (c := ',') rfl]
    rw [hc, skipSpaces_of_not_space hspace, ← hc]
    simpa using hlater

theorem recovers_array {room : Nat} {vs : List Value} (h : ∀ v ∈ vs, Recovers room v) :
    Recovers (room + 1) (.array vs) where
  starts := ⟨'[', _, rfl, rfl, by decide⟩
  oneLine := by
    have hitems : '\r' ∉ compactItems vs := by
      induction vs with
      | nil => exact List.not_mem_nil
      | cons v vs ih =>
        have hv := (h v List.mem_cons_self).oneLine
        have hvs := ih fun w hw => h w (List.mem_cons_of_mem _ hw)
        cases vs with
        | nil => exact hv
        | cons w ws =>
          rw [compactItems_cons_cons]
          simp [hv, hvs]
    rw [compact]
    simp [hitems]
  reads := by
    intro fuel rest hfuel _
    obtain ⟨n, rfl⟩ : ∃ n, fuel = n + 1 := by
      refine ⟨fuel - 1, ?_⟩
      simp only [compact, List.length_append, List.length_cons] at hfuel
      omega
    cases vs with
    | nil => rfl
    | cons v vs =>
      simp only [compact, List.cons_append, List.length_append, List.length_cons] at hfuel
      have hitems := readItems_compactItems h n [] rest (by omega)
      obtain ⟨c, r, hc, hspace, hclose⟩ :=
        exists_cons_compactItems (h v List.mem_cons_self) vs (']' :: rest)
      have hread : readValue (n + 1) (room + 1) (compact (.array (v :: vs)) ++ rest)
          = readItems n room [] (compactItems (v :: vs) ++ ']' :: rest) := by
        rw [compact, List.append_assoc, List.cons_append, List.singleton_append, readValue]
        rw [hc, skipSpaces_of_not_space hspace]
        split
        · rename_i heq
          exact absurd (List.cons.inj heq).1 hclose
        · rfl
      rw [hread]
      exact hitems

/-! ## Objects -/

/-- The code points of a name. -/
def pointsOf (name : String) : List Point := (Loose.whole name).points

theorem pointsOf_injective {name other : String} (h : pointsOf name = pointsOf other) :
    name = other :=
  Loose.whole.inj (Loose.points_injective h)

/-- Fields whose names are given by their code points. -/
def coded (fs : List (String × Value)) : List (List Point × Value) :=
  fs.map fun f => (pointsOf f.1, f.2)

@[simp] theorem coded_cons (name : String) (v : Value) (fs : List (String × Value)) :
    coded ((name, v) :: fs) = (pointsOf name, v) :: coded fs := rfl

theorem ofFields_coded (fs : List (String × Value)) : Value.ofFields (coded fs) = .object fs := by
  have hnamed : (coded fs).map (fun f => (Value.ofLoose (.ofPoints f.1), f.2))
      = fs.map fun f => (Value.text f.1, f.2) := by
    simp [coded, pointsOf]
  have hwhole : Value.textFields (fs.map fun f => (Value.text f.1, f.2)) = fs := by
    rw [Value.textFields, List.filterMap_map]
    exact List.filterMap_some
  rw [Value.ofFields, hnamed, hwhole]
  simp

theorem readFields_quoted (fuel room : Nat) (acc : List (List Point × Value)) (name : String)
    (cs : List Char) :
    readFields (fuel + 1) room acc (quoted name.toList ++ ':' :: cs) =
      (readValue fuel room (skipSpaces cs)).bind fun p =>
        match skipSpaces p.2 with
        | ',' :: r' => readFields fuel room ((pointsOf name, p.1) :: acc) (skipSpaces r')
        | '\x7d' :: r' =>
          .ok (.ofFields (Value.collapse ((pointsOf name, p.1) :: acc).reverse), r')
        | _ => .error .malformed := by
  have hquoted : quoted name.toList ++ ':' :: cs
      = '"' :: (name.toList.flatMap escapeChar ++ '"' :: ':' :: cs) := by
    simp [quoted]
  rw [hquoted, readFields]
  simp only [readString?_flatMap, List.reverse_nil, List.nil_append,
    skipSpaces_of_not_space (c := ':') rfl, pointsOf, Loose.points]
  cases readValue fuel room (skipSpaces cs) <;> rfl

/-- Fields begin with the quote of their first name. -/
theorem exists_cons_compactFields (f : String × Value) (fs : List (String × Value))
    (rest : List Char) : ∃ r, compactFields (f :: fs) ++ rest = '"' :: r := by
  obtain ⟨name, v⟩ := f
  cases fs with
  | nil => exact ⟨_, by rw [compactFields, quoted]; rfl⟩
  | cons g gs => exact ⟨_, by rw [compactFields_cons_cons, quoted]; rfl⟩

theorem put_of_not_mem {fields : List (List Point × Value)} {name : List Point}
    (h : name ∉ fields.map (·.1)) (v : Value) : Value.put fields name v = fields ++ [(name, v)] := by
  induction fields with
  | nil => rfl
  | cons f fs ih =>
    obtain ⟨n, w⟩ := f
    simp only [List.map_cons, List.mem_cons, not_or] at h
    rw [Value.put, if_neg fun heq => h.1 heq.symm, ih h.2, List.cons_append]

/-- Fields with distinct names are kept as they are. -/
theorem collapse_of_nodup {fields : List (List Point × Value)} (h : (fields.map (·.1)).Nodup) :
    Value.collapse fields = fields := by
  have hfold : ∀ (fs acc : List (List Point × Value)), ((acc ++ fs).map (·.1)).Nodup →
      fs.foldl (fun acc f => Value.put acc f.1 f.2) acc = acc ++ fs := by
    intro fs
    induction fs with
    | nil => simp
    | cons f fs ih =>
      intro acc hnodup
      have hnew : f.1 ∉ acc.map (·.1) := by
        rw [List.map_append, List.map_cons] at hnodup
        intro hmem
        exact (List.nodup_append.1 hnodup).2.2 _ hmem _ List.mem_cons_self rfl
      rw [List.foldl_cons, put_of_not_mem hnew, ih _ (by simpa using hnodup), List.append_assoc]
      rfl
  exact hfold fields [] h

theorem ofFields_collapse {fs : List (String × Value)} (h : (fs.map (·.1)).Nodup) :
    Value.ofFields (Value.collapse (coded fs)) = .object fs := by
  have hnames : (coded fs).map (·.1) = (fs.map (·.1)).map pointsOf := by
    simp [coded]
  have hnodup : ((coded fs).map (·.1)).Nodup := by
    rw [hnames]
    exact List.pairwise_map.2 (h.imp fun hne heq => hne (pointsOf_injective heq))
  rw [collapse_of_nodup hnodup, ofFields_coded]

/-- The fields of an object are read one after the other, up to the brace that closes it. -/
theorem readFields_compactFields {room : Nat} {f : String × Value} {fs : List (String × Value)}
    (h : ∀ g ∈ f :: fs, Recovers room g.2) (fuel : Nat) (acc : List (String × Value))
    (rest : List Char) (hnodup : ((acc.reverse ++ f :: fs).map (·.1)).Nodup)
    (hfuel : 2 * (compactFields (f :: fs)).length + 1 ≤ fuel) :
    readFields fuel room (coded acc) (compactFields (f :: fs) ++ '\x7d' :: rest)
      = .ok (.object (acc.reverse ++ f :: fs), rest) := by
  induction fs generalizing f fuel acc with
  | nil =>
    obtain ⟨n, rfl⟩ : ∃ n, fuel = n + 1 := ⟨fuel - 1, by omega⟩
    obtain ⟨name, v⟩ := f
    simp only [compactFields, List.length_append, List.length_cons] at hfuel
    have hv : Recovers room v := h (name, v) List.mem_cons_self
    obtain ⟨c, r, hc, hspace, -⟩ := hv.starts
    have hread := hv.reads n ('\x7d' :: rest) (by omega) (ends_cons (by simp) rest)
    rw [compactFields, List.append_assoc, List.cons_append, readFields_quoted, hc,
      List.cons_append, skipSpaces_of_not_space hspace, ← List.cons_append, ← hc, hread]
    have hcoded : ((pointsOf name, v) :: coded acc).reverse
        = coded (acc.reverse ++ [(name, v)]) := by
      simp [coded]
    simp only [Except.bind, skipSpaces_of_not_space (c := '\x7d') rfl, hcoded,
      ofFields_collapse hnodup]
  | cons g gs ih =>
    obtain ⟨n, rfl⟩ : ∃ n, fuel = n + 1 := ⟨fuel - 1, by omega⟩
    obtain ⟨name, v⟩ := f
    simp only [compactFields, List.length_append, List.length_cons] at hfuel
    have hv : Recovers room v := h (name, v) List.mem_cons_self
    have hgs : ∀ u ∈ g :: gs, Recovers room u.2 := fun u hu => h u (List.mem_cons_of_mem _ hu)
    have hlater := ih hgs n ((name, v) :: acc) (by simpa using hnodup) (by omega)
    obtain ⟨c, r, hc, hspace, -⟩ := hv.starts
    obtain ⟨q, hq⟩ := exists_cons_compactFields g gs ('\x7d' :: rest)
    have hread := hv.reads n (',' :: (compactFields (g :: gs) ++ '\x7d' :: rest)) (by omega)
      (ends_cons (by simp) _)
    rw [compactFields_cons_cons, List.append_assoc, List.cons_append, List.append_assoc,
      List.cons_append, readFields_quoted, hc, List.cons_append, skipSpaces_of_not_space hspace,
      ← List.cons_append, ← hc, hread]
    simp only [Except.bind, skipSpaces_of_not_space (c := ',') rfl]
    rw [hq, skipSpaces_of_not_space rfl, ← hq]
    simpa using hlater

theorem recovers_object {room : Nat} {fs : List (String × Value)} (hnodup : (fs.map (·.1)).Nodup)
    (h : ∀ f ∈ fs, Recovers room f.2) : Recovers (room + 1) (.object fs) where
  starts := ⟨'\x7b', _, rfl, rfl, by decide⟩
  oneLine := by
    have hfields : '\r' ∉ compactFields fs := by
      clear hnodup
      induction fs with
      | nil => exact List.not_mem_nil
      | cons f fs ih =>
        obtain ⟨name, v⟩ := f
        have hname := return_not_mem_quoted name.toList
        have hv : '\r' ∉ compact v := (h (name, v) List.mem_cons_self).oneLine
        have hfs := ih fun g hg => h g (List.mem_cons_of_mem _ hg)
        cases fs with
        | nil => simp [compactFields, hname, hv]
        | cons g gs =>
          rw [compactFields_cons_cons]
          simp [hname, hv, hfs]
    rw [compact]
    simp [hfields]
  reads := by
    intro fuel rest hfuel _
    obtain ⟨n, rfl⟩ : ∃ n, fuel = n + 1 := by
      refine ⟨fuel - 1, ?_⟩
      simp only [compact, List.length_append, List.length_cons] at hfuel
      omega
    cases fs with
    | nil => rfl
    | cons f fs =>
      simp only [compact, List.cons_append, List.length_append, List.length_cons] at hfuel
      have hfields := readFields_compactFields h n [] rest hnodup (by omega)
      obtain ⟨q, hq⟩ := exists_cons_compactFields f fs ('\x7d' :: rest)
      have hread : readValue (n + 1) (room + 1) (compact (.object (f :: fs)) ++ rest)
          = readFields n room [] (compactFields (f :: fs) ++ '\x7d' :: rest) := by
        rw [compact, List.append_assoc, List.cons_append, List.singleton_append, readValue]
        rw [hq, skipSpaces_of_not_space rfl]
        rfl
      rw [hread]
      exact hfields

/-- A value that is recovered is read from its compact text. -/
theorem Recovers.read {v : Value} (h : Recovers maxDepth v) : Json.read (compact v) = .ok v := by
  obtain ⟨c, r, hc, hspace, -⟩ := h.starts
  have hreads := h.reads (2 * (compact v).length + 2) [] (by omega) (by simp [Ends])
  rw [List.append_nil] at hreads
  unfold Json.read
  have hskip : skipSpaces (compact v) = compact v := by
    rw [hc, skipSpaces_of_not_space hspace]
  rw [hskip, hreads]
  rfl

/-! ## Brackets that are never closed -/

/-- More opening brackets than there is room for end the reading at the first that is too deep. -/
theorem readValue_brackets (room m k : Nat) :
    readValue (2 * room + 1 + k) room (List.replicate (room + 1 + m) '[')
      = .error (.tooDeep .array) := by
  induction room with
  | zero =>
    rw [show 2 * 0 + 1 + k = k + 1 by omega, show 0 + 1 + m = m + 1 by omega, List.replicate_succ,
      readValue]
  | succ room ih =>
    have hfuel : 2 * (room + 1) + 1 + k = (2 * room + 1 + k) + 1 + 1 := by omega
    have hlength : room + 1 + 1 + m = (room + 1 + m) + 1 := by omega
    have hcons : List.replicate (room + 1 + m) '[' = '[' :: List.replicate (room + m) '[' := by
      rw [← List.replicate_succ]
      congr 1
      omega
    have hskip :
        skipSpaces (List.replicate (room + 1 + m) '[') = List.replicate (room + 1 + m) '[' := by
      rw [hcons, skipSpaces_of_not_space rfl]
    rw [hfuel, hlength, List.replicate_succ, readValue, hskip]
    split
    · rename_i heq
      rw [hcons] at heq
      exact absurd (List.cons.inj heq).1 (by decide)
    · rw [readItems_succ, ih]
      rfl

/-- A text of brackets beyond the depth that is read is too deep. -/
theorem read_brackets {n : Nat} (h : maxDepth < n) :
    Json.read (List.replicate n '[') = .error (.tooDeep .array) := by
  obtain ⟨m, rfl⟩ := Nat.exists_eq_add_of_lt h
  have hcons : List.replicate (maxDepth + m + 1) '[' = '[' :: List.replicate (maxDepth + m) '[' :=
    List.replicate_succ
  have hskip : skipSpaces (List.replicate (maxDepth + m + 1) '[')
      = List.replicate (maxDepth + m + 1) '[' := by
    rw [hcons, skipSpaces_of_not_space rfl]
  have hread := readValue_brackets maxDepth m (2 * m + 3)
  rw [show maxDepth + 1 + m = maxDepth + m + 1 by omega,
    show 2 * maxDepth + 1 + (2 * m + 3) = 2 * (maxDepth + m + 1) + 2 by omega] at hread
  unfold Json.read
  rw [hskip, List.length_replicate, hread]

end SheetBuild.Json
