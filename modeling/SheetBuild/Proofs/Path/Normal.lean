import Mathlib.Data.List.TakeWhile
import SheetBuild.Proofs.Path.Canonical
set_option autoImplicit false

/-!
# Paths in their final form

Which texts the canonical form of a path can be: those whose segments are names and that have no
backslash (`exists_normalize_eq_ok_iff`).  The directory and the file name of such a path, and what is
put together from them, are of this form again, and so is the normal form of any path that is not rooted
and does not lead out of the directory it counts from.
-/

namespace SheetBuild.Text

/-- A text that neither begins nor ends with a blank is trimmed already. -/
theorem trim_eq_self {cs : List Char} (hhead : ∀ c, cs.head? = some c → isBlank c = false)
    (hlast : ∀ c, cs.getLast? = some c → isBlank c = false) : trim cs = cs := by
  have hfront : cs.dropWhile isBlank = cs := by
    cases cs with
    | nil => rfl
    | cons c r => exact List.dropWhile_cons_of_neg (by simp [hhead c rfl])
  rw [trim, trimWhile, hfront, dropEndWhile]
  rcases List.eq_nil_or_concat cs with rfl | ⟨r, c, rfl⟩
  · rfl
  · have hc := hlast c (by simp)
    rw [List.concat_eq_append, List.reverse_append, List.reverse_singleton, List.singleton_append,
      List.dropWhile_cons_of_neg (by simp [hc]), List.reverse_cons, List.reverse_reverse]

/-- A trimmed text does not begin with a blank. -/
theorem isBlank_head {cs : List Char} (h : trim cs = cs) {c : Char} (hc : cs.head? = some c) :
    isBlank c = false := by
  obtain ⟨r, rfl⟩ := List.head?_eq_some_iff.1 hc
  rw [← Bool.not_eq_true]
  intro hblank
  have hsublist : (trim (c :: r)).Sublist r := by
    rw [trim, trimWhile, List.dropWhile_cons_of_pos hblank]
    exact (dropEndWhile_sublist isBlank _).trans (List.dropWhile_sublist isBlank)
  rw [h] at hsublist
  exact absurd hsublist.length_le (by simp)

end SheetBuild.Text

namespace SheetBuild.Path

/-! ## Canonical form -/

theorem pushSegment_sublist (rooted : Bool) (kept : List Segment) (s : Segment) :
    (pushSegment rooted kept s).Sublist (s :: kept) := by
  unfold pushSegment
  split
  · exact List.sublist_cons_self s kept
  · split
    · rename_i hup
      subst hup
      cases kept with
      | nil => cases rooted <;> simp
      | cons t rest =>
        simp only
        split
        · exact List.Sublist.refl _
        · exact (List.sublist_cons_self t rest).trans (List.sublist_cons_self up _)
    · exact List.Sublist.refl _

/-- What remains of segments stood there in this order. -/
theorem collapse_sublist (rooted : Bool) (ss : List Segment) : (collapse rooted ss).Sublist ss := by
  have hfold : ∀ kept,
      (ss.foldl (pushSegment rooted) kept).reverse.Sublist (kept.reverse ++ ss) := by
    induction ss with
    | nil => simp
    | cons s ss ih =>
      intro kept
      have hpush := (pushSegment_sublist rooted kept s).reverse
      rw [List.reverse_cons] at hpush
      refine (ih _).trans ?_
      rw [List.append_cons]
      exact hpush.append_right ss
  exact hfold []

theorem pushSegment_of_isName {s : Segment} (h : IsName s) (rooted : Bool) (kept : List Segment) :
    pushSegment rooted kept s = s :: kept := by
  unfold pushSegment
  rw [if_neg (by simp [h.nonempty, h.ne_here]), if_neg h.ne_up]

/-- Names are all kept. -/
theorem foldl_pushSegment {ss : List Segment} (h : ∀ s ∈ ss, IsName s) (rooted : Bool)
    (kept : List Segment) : ss.foldl (pushSegment rooted) kept = ss.reverse ++ kept := by
  induction ss generalizing kept with
  | nil => rfl
  | cons s ss ih =>
    obtain ⟨hs, hrest⟩ := List.forall_mem_cons.1 h
    rw [List.foldl_cons, pushSegment_of_isName hs, ih hrest, List.reverse_cons, List.append_assoc,
      List.singleton_append]

theorem collapse_eq_self {ss : List Segment} (h : ∀ s ∈ ss, IsName s) (rooted : Bool) :
    collapse rooted ss = ss := by
  rw [collapse, foldl_pushSegment h, List.append_nil, List.reverse_reverse]

/-- Names that remain are accepted. -/
theorem canonical?_of_names {q : List Char} {ss : List Segment} (hne : ss ≠ [])
    (h : ∀ s ∈ ss, IsName s) (hss : collapse (isRooted q) (segments q) = ss) :
    canonical? q = some ss := by
  refine canonical?_eq_some_iff.2 ⟨hss, hne, fun hup => ?_⟩
  exact (h up (List.mem_of_head? hup)).ne_up rfl

/-- A path that is canonical once it is cleaned is accepted as it is then. -/
theorem normalize_of_isCanonical {written : String} (h : IsCanonical (cleaned written.toList)) :
    normalize written = .ok (String.ofList (cleaned written.toList)) := by
  refine normalize_eq_ok_iff.2 ⟨fun hnil => ?_, segments (cleaned written.toList), ?_, ?_⟩
  · rw [hnil] at h
    exact (h [] List.mem_cons_self).nonempty rfl
  · exact canonical?_of_names (segments_ne_nil _) h (collapse_eq_self h _)
  · rw [joinSegments_segments]

theorem cleaned_of_not_mem {cs : List Char} (h : '\\' ∉ cs) : cleaned cs = Text.trim cs := by
  have hmap : cs.map (fun c => if c = '\\' then '/' else c) = cs.map id := by
    refine List.map_congr_left fun c hc => if_neg ?_
    rintro rfl
    exact h hc
  rw [cleaned, hmap, List.map_id]

theorem backslash_not_mem_cleaned (cs : List Char) : '\\' ∉ cleaned cs := by
  intro hmem
  obtain ⟨c, -, hc⟩ := List.mem_map.1 ((Text.trim_sublist _).subset hmem)
  split at hc
  · exact absurd hc (by decide)
  · exact absurd hc (by assumption)

theorem backslash_not_mem_of_normalize {written path : String} (h : normalize written = .ok path) :
    '\\' ∉ path.toList := by
  obtain ⟨-, ss, hss, rfl⟩ := normalize_eq_ok_iff.1 h
  obtain ⟨hne, hnames⟩ := canonical?_eq_some hss
  intro hmem
  rw [String.toList_ofList, ← exists_mem_segments_iff (by decide),
    segments_joinSegments hne fun s hs => (hnames s hs).2] at hmem
  obtain ⟨s, hs, hslash⟩ := hmem
  obtain ⟨rfl, -, -⟩ := canonical?_eq_some_iff.1 hss
  apply backslash_not_mem_cleaned written.toList
  exact (exists_mem_segments_iff (by decide)).1 ⟨s, (collapse_sublist _ _).subset hs, hslash⟩

/-- The paths that files can have: canonical ones without a backslash. -/
theorem exists_normalize_eq_ok_iff {path : String} :
    (∃ written, normalize written = .ok path) ↔ IsCanonical path.toList ∧ '\\' ∉ path.toList := by
  constructor
  · rintro ⟨written, h⟩
    exact ⟨isCanonical_of_normalize h, backslash_not_mem_of_normalize h⟩
  · rintro ⟨hcanonical, hslash⟩
    -- slashes around the path keep its blanks, and have no effect
    have hcleaned : cleaned ('/' :: path.toList ++ ['/']) = '/' :: path.toList ++ ['/'] := by
      rw [cleaned_of_not_mem (by simp [hslash])]
      apply Text.trim_eq_self
      · intro c hc
        obtain rfl : '/' = c := by simpa using hc
        rfl
      · intro c hc
        rw [List.getLast?_concat, Option.some.injEq] at hc
        exact hc ▸ rfl
    have hcollapse : collapse true (segments ('/' :: path.toList ++ ['/'])) = segments path.toList := by
      have hsegments : segments ('/' :: path.toList ++ ['/']) = [] :: (segments path.toList ++ [[]]) := by
        rw [List.cons_append, segments, if_pos rfl, segments_slash]
        rfl
      rw [hsegments, collapse, List.foldl_cons, List.foldl_append]
      simp [pushSegment, foldl_pushSegment hcanonical]
    refine ⟨String.ofList ('/' :: path.toList ++ ['/']), ?_⟩
    rw [normalize_eq_ok_iff, String.toList_ofList, hcleaned]
    refine ⟨by simp, segments path.toList, ?_, ?_⟩
    · exact canonical?_of_names (segments_ne_nil _) hcanonical (by simpa [isRooted] using hcollapse)
    · rw [joinSegments_segments, String.ofList_toList]

theorem length_segments (cs : List Char) : (segments cs).length = cs.count '/' + 1 := by
  induction cs with
  | nil => rfl
  | cons c r ih =>
    rw [segments]
    split
    · rename_i hc
      rw [List.length_cons, ih, hc, List.count_cons_self]
    · rename_i hc
      obtain ⟨s, ss, hs⟩ := List.exists_cons_of_ne_nil (segments_ne_nil r)
      rw [hs] at ih ⊢
      rw [List.count_cons_of_ne hc, ← ih, List.length_cons, List.length_cons]

/-- A path is accepted as it is where it is canonical and has nothing to clean. -/
theorem normalize_eq_self_iff {path : String} :
    normalize path = .ok path ↔ IsCanonical path.toList ∧ cleaned path.toList = path.toList := by
  constructor
  · intro h
    refine ⟨isCanonical_of_normalize h, ?_⟩
    have hslash := backslash_not_mem_of_normalize h
    obtain ⟨-, ss, hss, hpath⟩ := normalize_eq_ok_iff.1 h
    obtain ⟨hne, hnames⟩ := canonical?_eq_some hss
    obtain ⟨hcollapse, -, -⟩ := canonical?_eq_some_iff.1 hss
    have hjoin : path.toList = joinSegments ss := by rw [hpath, String.toList_ofList]
    have hsegments : segments path.toList = ss := by
      rw [hjoin, segments_joinSegments hne fun s hs => (hnames s hs).2]
    -- cleaning leaves no slash more, so that all segments of the cleaned path remain
    have hcount : (cleaned path.toList).count '/' ≤ path.toList.count '/' := by
      rw [cleaned_of_not_mem hslash]
      exact (Text.trim_sublist _).count_le _
    have hall : ss = segments (cleaned path.toList) := by
      rw [← hcollapse]
      refine (collapse_sublist _ _).eq_of_length_le ?_
      rw [hcollapse, ← hsegments, length_segments, length_segments]
      omega
    rw [← joinSegments_segments (cleaned path.toList), ← hall, hjoin]
  · rintro ⟨hcanonical, hcleaned⟩
    rw [normalize_of_isCanonical (by rwa [hcleaned]), hcleaned, String.ofList_toList]

/-! ## Directory and file name -/

theorem isCanonical_append_slash {front name : List Char} :
    IsCanonical (front ++ '/' :: name) ↔ IsCanonical front ∧ IsCanonical name := by
  simp only [IsCanonical, segments_slash, List.forall_mem_append]

theorem isCanonical_of_isName {s : Segment} (h : IsName s) (hslash : '/' ∉ s) : IsCanonical s := by
  rw [IsCanonical, segments_of_not_mem hslash]
  exact List.forall_mem_singleton.2 h

/-- A text with a character is cut at the last one. -/
theorem exists_last {c : Char} {cs : List Char} (h : c ∈ cs) :
    ∃ front name, cs = front ++ c :: name ∧ c ∉ name := by
  obtain ⟨back, rest, hcs, hback⟩ := List.eq_append_cons_of_mem (List.mem_reverse.2 h)
  refine ⟨rest.reverse, back.reverse, ?_, by simpa using hback⟩
  have hreverse := congrArg List.reverse hcs
  simpa using hreverse

theorem takeWhile_reverse {c : Char} {name : List Char} (h : c ∉ name) (back : List Char) :
    (name.reverse ++ back).takeWhile (· ≠ c) = name.reverse ++ back.takeWhile (· ≠ c) := by
  refine List.takeWhile_append_of_pos fun d hd => decide_eq_true ?_
  rintro rfl
  exact h (List.mem_reverse.1 hd)

theorem takeWhile_reverse_append (front : List Char) {c : Char} {name : List Char} (h : c ∉ name) :
    ((front ++ c :: name).reverse.takeWhile (· ≠ c)).reverse = name := by
  rw [List.reverse_append, List.reverse_cons, List.append_assoc, takeWhile_reverse h]
  simp

theorem takeWhile_reverse_of_not_mem {c : Char} {cs : List Char} (h : c ∉ cs) :
    (cs.reverse.takeWhile (· ≠ c)).reverse = cs := by
  have hall := takeWhile_reverse h []
  rw [List.append_nil] at hall
  rw [hall, List.takeWhile_nil, List.append_nil, List.reverse_reverse]

theorem baseName_of_not_mem {cs : List Char} (h : '/' ∉ cs) : baseName cs = cs :=
  takeWhile_reverse_of_not_mem h

theorem baseName_slash (front : List Char) {name : List Char} (h : '/' ∉ name) :
    baseName (front ++ '/' :: name) = name :=
  takeWhile_reverse_append front h

theorem slash_not_mem_baseName (cs : List Char) : '/' ∉ baseName cs := by
  by_cases h : '/' ∈ cs
  · obtain ⟨front, name, rfl, hname⟩ := exists_last h
    rwa [baseName_slash front hname]
  · rwa [baseName_of_not_mem h]

theorem directory_of_not_mem {cs : List Char} (h : '/' ∉ cs) : directory cs = [] := by
  simp [directory, baseName_of_not_mem h]

theorem directory_slash (front : List Char) {name : List Char} (h : '/' ∉ name) :
    directory (front ++ '/' :: name) =
      if (front ++ ['/']).all (· = '/') then front ++ ['/']
      else Text.dropEndWhile (· = '/') (front ++ ['/']) := by
  have htake : (front ++ '/' :: name).take ((front ++ '/' :: name).length - name.length)
      = front ++ ['/'] := by
    rw [List.append_cons, List.length_append, Nat.add_sub_cancel, List.take_left]
  rw [directory, baseName_slash front h, htake]

/-- The directory of a path is what stands before its last slash, where that ends in something else. -/
theorem directory_slash_of_getLast? {front name : List Char} (hname : '/' ∉ name)
    (hfront : ∃ c, front.getLast? = some c ∧ c ≠ '/') : directory (front ++ '/' :: name) = front := by
  obtain ⟨c, hlast, hc⟩ := hfront
  obtain ⟨init, rfl⟩ := List.getLast?_eq_some_iff.1 hlast
  rw [directory_slash _ hname]
  simp [hc, Text.dropEndWhile]

theorem isSuffix_baseName (cs : List Char) : baseName cs <:+ cs := by
  rw [baseName, ← List.reverse_prefix, List.reverse_reverse]
  exact List.takeWhile_prefix _

theorem isPrefix_dropEndWhile (p : Char → Bool) (cs : List Char) : Text.dropEndWhile p cs <+: cs := by
  rw [Text.dropEndWhile, ← List.reverse_suffix, List.reverse_reverse]
  exact List.dropWhile_suffix _

theorem isPrefix_directory (cs : List Char) : directory cs <+: cs := by
  rw [directory]
  split
  · exact List.take_prefix _ _
  · exact (isPrefix_dropEndWhile _ _).trans ( List.take_prefix _ _)

/-- The last character of a canonical path is no slash. -/
theorem getLast?_of_isCanonical {cs : List Char} (h : IsCanonical cs) :
    ∃ c, cs.getLast? = some c ∧ c ≠ '/' := by
  rcases List.eq_nil_or_concat cs with rfl | ⟨init, c, rfl⟩
  · exact absurd rfl (h [] List.mem_cons_self).nonempty
  · refine ⟨c, by simp, ?_⟩
    rintro rfl
    rw [List.concat_eq_append, isCanonical_append_slash] at h
    exact (h.2 [] List.mem_cons_self).nonempty rfl

/-- The directory and the file name of a canonical path are canonical; the directory may be the one that
all paths count from. -/
theorem isCanonical_parts {cs : List Char} (h : IsCanonical cs) :
    (directory cs = [] ∨ IsCanonical (directory cs)) ∧ IsName (baseName cs) := by
  by_cases hslash : '/' ∈ cs
  · obtain ⟨front, name, rfl, hname⟩ := exists_last hslash
    obtain ⟨hfront, hlast⟩ := isCanonical_append_slash.1 h
    rw [directory_slash_of_getLast? hname (getLast?_of_isCanonical hfront), baseName_slash front hname]
    exact ⟨.inr hfront, hlast name (by simp [segments_of_not_mem hname])⟩
  · rw [directory_of_not_mem hslash, baseName_of_not_mem hslash]
    exact ⟨.inl rfl, h cs (by simp [segments_of_not_mem hslash])⟩

/-! ## Joining -/

theorem isCanonical_join {base rel : List Char} (hbase : base = [] ∨ IsCanonical base)
    (hrel : IsCanonical rel) : IsCanonical (join base rel) := by
  rw [join, if_neg (by simp [not_isRooted_of_isCanonical hrel])]
  rcases hbase with rfl | hbase
  · simpa using hrel
  · obtain ⟨c, hlast, hc⟩ := getLast?_of_isCanonical hbase
    have hopen : ¬ (base = [] ∨ base.getLast? = some '/') := by
      rw [hlast]
      rintro (rfl | heq)
      · exact absurd hlast (by simp)
      · exact hc (Option.some.inj heq)
    rw [if_neg hopen]
    exact isCanonical_append_slash.2 ⟨hbase, hrel⟩

theorem mem_of_mem_join {base rel : List Char} {c : Char} (hc : c ≠ '/') (h : c ∈ join base rel) :
    c ∈ base ∨ c ∈ rel := by
  unfold join at h
  split at h
  · exact .inr h
  · split at h <;> simpa [hc] using h

/-- What is added to a path that is joined may be added before. -/
theorem join_append {base rel : List Char} (hrel : rel ≠ []) (more : List Char) :
    join base rel ++ more = join base (rel ++ more) := by
  have hrooted : isRooted (rel ++ more) = isRooted rel := by
    cases rel with
    | nil => exact absurd rfl hrel
    | cons c r => rfl
  unfold join
  rw [hrooted]
  split
  · rfl
  · split <;> simp

theorem isRooted_append {cs : List Char} (h : isRooted cs = true) (more : List Char) :
    isRooted (cs ++ more) = true := by
  cases cs with
  | nil => exact absurd h (by simp [isRooted])
  | cons c r => exact h

theorem isRooted_join {base : List Char} (h : isRooted base = true) (rel : List Char) :
    isRooted (join base rel) = true := by
  unfold join
  split
  · assumption
  · split
    · exact isRooted_append h _
    · exact isRooted_append h _

theorem isRooted_of_prefix {cs front : List Char} (h : isRooted cs = true) (hne : front ≠ [])
    (hfront : front <+: cs) : isRooted front = true := by
  obtain ⟨back, rfl⟩ := hfront
  cases front with
  | nil => exact absurd rfl hne
  | cons c r => exact h

theorem isRooted_directory {cs : List Char} (h : isRooted cs = true) :
    isRooted (directory cs) = true := by
  have hmem : '/' ∈ cs := List.mem_of_head? (of_decide_eq_true h)
  obtain ⟨front, name, rfl, hname⟩ := exists_last hmem
  have hopen : isRooted (front ++ ['/']) = true :=
    isRooted_of_prefix h (by simp) ⟨name, by simp⟩
  rw [directory_slash front hname]
  split
  · exact hopen
  · rename_i hsome
    refine isRooted_of_prefix hopen ?_ ?_
    · intro hnil
      rw [Text.dropEndWhile, List.reverse_eq_nil_iff, List.dropWhile_eq_nil_iff] at hnil
      exact hsome (List.all_eq_true.2 fun c hc => hnil c (List.mem_reverse.2 hc))
    · exact isPrefix_dropEndWhile _ _

/-- A path below a directory of the project counts from the root when it does by itself. -/
theorem isRooted_join_of_not {base : List Char} (hbase : isRooted base = false) (rel : List Char) :
    isRooted (join base rel) = isRooted rel := by
  unfold join
  split
  · rfl
  · rename_i hrel
    cases base with
    | nil => simp
    | cons c r =>
      have hkeep (more : List Char) : isRooted (c :: r ++ more) = false := hbase
      rw [Bool.eq_false_iff.2 hrel]
      split
      · exact hkeep _
      · exact hkeep _

/-! ## Normal form -/

theorem isRooted_normal {cs : List Char} (h : isRooted cs = true) : isRooted (normal cs) = true := by
  have hroot : isRooted (rootSlashes cs) = true := by
    cases cs with
    | nil => exact absurd h (by simp [isRooted])
    | cons c r =>
      obtain rfl : c = '/' := by simpa [isRooted] using h
      unfold rootSlashes
      split <;> simp_all [isRooted]
  rw [normal]
  split
  · rename_i hnil
    rw [List.append_eq_nil_iff] at hnil
    rw [hnil.1] at hroot
    exact absurd hroot (by simp [isRooted])
  · exact isRooted_append hroot _

/-- A normal path has the characters of the path, apart from slashes and dots. -/
theorem mem_of_mem_normal {cs : List Char} {c : Char} (hslash : c ≠ '/') (hdot : c ≠ '.')
    (h : c ∈ normal cs) : c ∈ cs := by
  have hroot : c ∉ rootSlashes cs := by
    unfold rootSlashes
    split <;> simp [hslash]
  rw [normal] at h
  split at h
  · exact absurd (List.mem_singleton.1 h) hdot
  · have hrest := (List.mem_append.1 h).resolve_left hroot
    cases hss : collapse (isRooted cs) (segments cs) with
    | nil =>
      rw [hss] at hrest
      exact absurd hrest List.not_mem_nil
    | cons s ss =>
      have hsegments : segments (joinSegments (s :: ss)) = s :: ss :=
        segments_joinSegments (by simp) fun t ht =>
          slash_not_mem_of_mem_segments ((collapse_sublist _ _).subset (hss ▸ ht))
      rw [hss, ← exists_mem_segments_iff hslash, hsegments, ← hss] at hrest
      obtain ⟨t, ht, hct⟩ := hrest
      exact (exists_mem_segments_iff hslash).1 ⟨t, (collapse_sublist _ _).subset ht, hct⟩

/-- A normal path that neither counts from the root nor leads up, and is not the directory itself, is
canonical. -/
theorem isCanonical_normal {cs : List Char} (hrooted : isRooted cs = false) (hhere : normal cs ≠ here)
    (hup : (segments (normal cs)).head? ≠ some up) : IsCanonical (normal cs) := by
  have hroot : rootSlashes cs = [] := by
    cases cs with
    | nil => rfl
    | cons c r => simp_all [rootSlashes, isRooted]
  have hnormal : normal cs = joinSegments (collapse (isRooted cs) (segments cs)) := by
    unfold normal at hhere ⊢
    simp only [hroot, List.nil_append] at hhere ⊢
    split at hhere
    · exact absurd rfl hhere
    · rename_i hne
      exact if_neg hne
  have hslash : ∀ s ∈ collapse (isRooted cs) (segments cs), '/' ∉ s := fun s hs =>
    slash_not_mem_of_mem_segments ((collapse_sublist _ _).subset hs)
  have hne : collapse (isRooted cs) (segments cs) ≠ [] := by
    intro hnil
    rw [hnil] at hnormal
    exact normal_ne_nil cs hnormal
  have hsegments := segments_joinSegments hne hslash
  rw [hnormal, hsegments] at hup
  obtain ⟨-, hnames⟩ := canonical?_eq_some (canonical?_eq_some_iff.2 ⟨rfl, hne, hup⟩)
  rw [IsCanonical, hnormal, hsegments]
  exact fun s hs => (hnames s hs).1

end SheetBuild.Path
