import SheetBuild.Proofs.Path.Normal
set_option autoImplicit false

/-!
# Accepted paths stay inside the root

What the segments of a path come to is said here by rules, one for each kind of segment: an empty
one and a `.` are dropped, a name is kept, and a `..` cancels the name before it, or stays without
effect at the root of a rooted path (`Remains`).  For a `..` that leads out of where a path starts
there is no rule (`Climbs`).

A path is accepted where there is something that remains, and is given as that (`normalize_contained`).
It comes to the same to bring the path into normal form, to drop the slashes it begins with, and to look
at what it begins with then (`normalize_eq_normal`).
-/

namespace SheetBuild.Path

/-! ## What remains -/

/-- The segments that remain of others, in a path that counts from the root or not. -/
inductive Remains (rooted : Bool) : List Segment → List Segment → Prop
  | nothing : Remains rooted [] []
  | drop {ss kept : List Segment} {s : Segment} (h : Remains rooted ss kept)
      (hs : s = [] ∨ s = here) : Remains rooted (ss ++ [s]) kept
  | keep {ss kept : List Segment} {s : Segment} (h : Remains rooted ss kept) (hs : IsName s) :
      Remains rooted (ss ++ [s]) (kept ++ [s])
  | cancel {ss kept : List Segment} {s : Segment} (h : Remains rooted ss (kept ++ [s])) :
      Remains rooted (ss ++ [up]) kept
  /-- the root is above itself -/
  | atRoot {ss : List Segment} (h : Remains rooted ss []) (hrooted : rooted = true) :
      Remains rooted (ss ++ [up]) []

/-- Some `..` has no segment left to cancel. -/
def Climbs (ss : List Segment) : Prop :=
  ∃ front back, ss = front ++ up :: back ∧ Remains false front []

/-- What remains are names. -/
theorem Remains.isName {rooted : Bool} {ss kept : List Segment} (h : Remains rooted ss kept) :
    ∀ s ∈ kept, IsName s := by
  induction h with
  | nothing => exact fun s hs => absurd hs List.not_mem_nil
  | drop _ _ ih => exact ih
  | keep _ hs ih => exact List.forall_mem_append.2 ⟨ih, List.forall_mem_singleton.2 hs⟩
  | cancel _ ih => exact (List.forall_mem_append.1 ih).1
  | atRoot _ _ _ => exact fun s hs => absurd hs List.not_mem_nil

theorem collapse_concat (rooted : Bool) (ss : List Segment) (s : Segment) :
    collapse rooted (ss ++ [s]) = (pushSegment rooted (collapse rooted ss).reverse s).reverse := by
  simp [collapse]

theorem pushSegment_of_drop {s : Segment} (h : s = [] ∨ s = here) (rooted : Bool)
    (kept : List Segment) : pushSegment rooted kept s = kept := if_pos h

/-- A `..` where nothing is kept stays, except at the root. -/
theorem pushSegment_up_nil (rooted : Bool) :
    pushSegment rooted [] up = if rooted then [] else [up] := rfl

theorem pushSegment_up_cons {s : Segment} (h : s ≠ up) (rooted : Bool) (kept : List Segment) :
    pushSegment rooted (s :: kept) up = kept := if_neg h

/-- The segments that remain are those that are computed. -/
theorem collapse_of_remains {rooted : Bool} {ss kept : List Segment} (h : Remains rooted ss kept) :
    collapse rooted ss = kept := by
  induction h with
  | nothing => rfl
  | drop _ hs ih => rw [collapse_concat, ih, pushSegment_of_drop hs, List.reverse_reverse]
  | keep _ hs ih =>
    rw [collapse_concat, ih, pushSegment_of_isName hs, List.reverse_cons, List.reverse_reverse]
  | cancel h ih =>
    have hname := h.isName _ (List.mem_append_right _ (List.mem_singleton_self _))
    rw [collapse_concat, ih, List.reverse_append, List.reverse_singleton, List.singleton_append,
      pushSegment_up_cons hname.ne_up, List.reverse_reverse]
  | atRoot _ hrooted ih =>
    rw [collapse_concat, ih, List.reverse_nil, pushSegment_up_nil, if_pos hrooted, List.reverse_nil]

/-- Every list of segments comes to something, unless it climbs in a path that is not rooted. -/
theorem remains_or_climbs (rooted : Bool) (ss : List Segment) :
    (∃ kept, Remains rooted ss kept) ∨ rooted = false ∧ Climbs ss := by
  induction ss using List.reverseRecOn with
  | nil => exact .inl ⟨[], .nothing⟩
  | append_singleton ss s ih =>
    rcases ih with ⟨kept, h⟩ | ⟨hrooted, front, back, rfl, h⟩
    · by_cases hdrop : s = [] ∨ s = here
      · exact .inl ⟨kept, h.drop hdrop⟩
      by_cases hup : s = up
      · subst hup
        rcases List.eq_nil_or_concat kept with rfl | ⟨kept, t, rfl⟩
        · cases rooted with
          | true => exact .inl ⟨[], h.atRoot rfl⟩
          | false => exact .inr ⟨rfl, ss, [], rfl, h⟩
        · exact .inl ⟨kept, .cancel (List.concat_eq_append ▸ h)⟩
      · obtain ⟨hempty, hhere⟩ := not_or.1 hdrop
        exact .inl ⟨kept ++ [s], h.keep ⟨hempty, hhere, hup⟩⟩
    · exact .inr ⟨hrooted, front, back ++ [s], by simp, h⟩

/-- What has led up once is never cancelled. -/
theorem exists_foldl_concat_up (ss kept : List Segment) :
    ∃ kept', ss.foldl (pushSegment false) (kept ++ [up]) = kept' ++ [up] := by
  induction ss generalizing kept with
  | nil => exact ⟨kept, rfl⟩
  | cons s ss ih =>
    have hpush : ∃ kept', pushSegment false (kept ++ [up]) s = kept' ++ [up] := by
      unfold pushSegment
      split
      · exact ⟨kept, rfl⟩
      split
      · cases kept with
        | nil => exact ⟨[up], rfl⟩
        | cons t kept =>
          simp only [List.cons_append]
          split
          · exact ⟨up :: t :: kept, rfl⟩
          · exact ⟨kept, rfl⟩
      · exact ⟨s :: kept, rfl⟩
    obtain ⟨kept', hkept'⟩ := hpush
    rw [List.foldl_cons, hkept']
    exact ih kept'

/-- Segments that climb lead up first of all. -/
theorem head?_collapse_of_climbs {ss : List Segment} (h : Climbs ss) :
    (collapse false ss).head? = some up := by
  obtain ⟨front, back, rfl, hfront⟩ := h
  have hnothing : front.foldl (pushSegment false) [] = [] :=
    List.reverse_eq_nil_iff.1 (collapse_of_remains hfront)
  obtain ⟨kept, hkept⟩ := exists_foldl_concat_up back []
  rw [collapse, List.foldl_append, hnothing, List.foldl_cons, pushSegment_up_nil]
  exact List.head?_eq_some_iff.2 ⟨kept.reverse, by simpa using congrArg List.reverse hkept⟩

/-- The canonical form of a path has the segments that remain of it, where there are any. -/
theorem canonical?_eq_some_iff_remains {q : List Char} {kept : List Segment} :
    canonical? q = some kept ↔ Remains (isRooted q) (segments q) kept ∧ kept ≠ [] := by
  rw [canonical?_eq_some_iff]
  constructor
  · rintro ⟨rfl, hne, hup⟩
    refine ⟨?_, hne⟩
    rcases remains_or_climbs (isRooted q) (segments q) with ⟨kept, h⟩ | ⟨hrooted, h⟩
    · rwa [collapse_of_remains h]
    · rw [hrooted, head?_collapse_of_climbs h] at hup
      exact absurd rfl hup
  · rintro ⟨h, hne⟩
    refine ⟨collapse_of_remains h, hne, fun hup => ?_⟩
    exact (h.isName up (List.mem_of_head? hup)).ne_up rfl

/-- A path has no canonical form where nothing remains of it, or it climbs. -/
theorem canonical?_eq_none_iff {q : List Char} :
    canonical? q = none ↔
      Remains (isRooted q) (segments q) [] ∨ isRooted q = false ∧ Climbs (segments q) := by
  rw [Option.eq_none_iff_forall_ne_some]
  simp only [ne_eq, canonical?_eq_some_iff_remains, not_and, not_not]
  constructor
  · intro hnothing
    rcases remains_or_climbs (isRooted q) (segments q) with ⟨kept, h⟩ | hclimbs
    · exact .inl (hnothing kept h ▸ h)
    · exact .inr hclimbs
  · rintro (h | ⟨hrooted, hclimbs⟩) kept hkept
    · rw [← collapse_of_remains hkept, collapse_of_remains h]
    · rw [hrooted] at hkept
      have hup := head?_collapse_of_climbs hclimbs
      rw [collapse_of_remains hkept] at hup
      exact absurd rfl (hkept.isName up (List.mem_of_head? hup)).ne_up

/-! ## By way of the normal form -/

theorem rootSlashes_eq_nil_iff {q : List Char} : rootSlashes q = [] ↔ isRooted q = false := by
  cases q with
  | nil => simp [rootSlashes, isRooted]
  | cons c r =>
    by_cases hc : c = '/'
    · subst hc
      unfold rootSlashes
      split <;> simp_all [isRooted]
    · simp [rootSlashes, isRooted, hc]

/-- The segments that are computed are names and ones that lead up. -/
theorem isName_or_eq_up_of_mem_collapse {rooted : Bool} {cs : List Char} {s : Segment}
    (h : s ∈ collapse rooted (segments cs)) : IsName s ∨ s = up := by
  have hslash : ∀ s ∈ segments cs, '/' ∉ s := fun s hs => slash_not_mem_of_mem_segments hs
  have hnothing : Rising [] := ⟨[], [], rfl, by simp, by simp⟩
  obtain ⟨names, ups, hfold, hnames, hups⟩ := rising_foldl hslash rooted hnothing
  rw [collapse, List.mem_reverse, hfold] at h
  rcases List.mem_append.1 h with hs | hs
  · exact .inl (hnames s hs).1
  · exact .inr (hups s hs)

/-- A normal path without the slashes it begins with. -/
def unrooted (q : List Char) : List Char := (normal q).dropWhile (· = '/')

/-- Behind the slashes stands what remains, or where there is nothing, a `.` if there are no slashes. -/
theorem unrooted_eq (q : List Char) :
    unrooted q = if collapse (isRooted q) (segments q) = [] then (if isRooted q then [] else here)
      else joinSegments (collapse (isRooted q) (segments q)) := by
  have hroot (cs : List Char) :
      (rootSlashes q ++ cs).dropWhile (· = '/') = cs.dropWhile (· = '/') := by
    unfold rootSlashes
    split <;> simp
  unfold unrooted normal
  cases hss : collapse (isRooted q) (segments q) with
  | nil =>
    have hslashes := rootSlashes_eq_nil_iff (q := q)
    cases hrooted : isRooted q with
    | true =>
      have hsome : rootSlashes q ≠ [] := fun hnil => by simp [hslashes.1 hnil] at hrooted
      simpa [joinSegments, hsome] using hroot []
    | false => simp [joinSegments, hslashes.2 hrooted, here]
  | cons s ss =>
    have hs : s ∈ collapse (isRooted q) (segments q) := hss ▸ List.mem_cons_self
    have hslash := slash_not_mem_of_mem_segments ((collapse_sublist _ _).subset hs)
    obtain ⟨c, r, rfl⟩ : ∃ c r, s = c :: r := by
      rcases isName_or_eq_up_of_mem_collapse hs with hname | rfl
      · exact List.exists_cons_of_ne_nil hname.nonempty
      · exact ⟨_, _, rfl⟩
    obtain ⟨hc, -⟩ := not_or.1 (mt List.mem_cons.2 hslash)
    obtain ⟨more, hmore⟩ : ∃ more, joinSegments ((c :: r) :: ss) = c :: more := by
      cases ss <;> exact ⟨_, rfl⟩
    rw [hmore, if_neg (by simp), if_neg (by simp), hroot,
      List.dropWhile_cons_of_neg (by simpa using Ne.symm hc)]

/-- Normalizing by way of the normal form: without its leading slashes it has to be some path, and
neither `.` nor one that begins with `..`. -/
theorem normalize_eq_normal (written : String) :
    normalize written =
      let q := cleaned written.toList
      if q = [] then .error .empty
      else if unrooted q = [] ∨ unrooted q = here ∨ unrooted q = up ∨ up ++ ['/'] <+: unrooted q then
        .error (.outside written)
      else .ok (String.ofList (unrooted q)) := by
  unfold normalize canonical?
  generalize cleaned written.toList = q
  simp only
  by_cases hnil : q = []
  · rw [if_pos hnil, if_pos hnil]
  rw [if_neg hnil, if_neg hnil, unrooted_eq]
  have hslash : ∀ s ∈ collapse (isRooted q) (segments q), '/' ∉ s := fun s hs =>
    slash_not_mem_of_mem_segments ((collapse_sublist _ _).subset hs)
  have hkinds : ∀ s ∈ collapse (isRooted q) (segments q), IsName s ∨ s = up := fun s hs =>
    isName_or_eq_up_of_mem_collapse hs
  generalize collapse (isRooted q) (segments q) = ss at hslash hkinds ⊢
  by_cases hss : ss = []
  · subst hss
    cases isRooted q <;> rfl
  have hjoin : segments (joinSegments ss) = ss := segments_joinSegments hss hslash
  -- a text of one segment that is neither a name nor leads up is not what the segments join to
  have hother : ∀ s, '/' ∉ s → ¬ (IsName s ∨ s = up) → joinSegments ss ≠ s := by
    rintro s hs hkind rfl
    rw [segments_of_not_mem hs] at hjoin
    exact hkind (hkinds _ (hjoin ▸ List.mem_singleton_self _))
  have hempty : joinSegments ss ≠ [] := hother [] (by decide) (by decide)
  have hhere : joinSegments ss ≠ here := hother here (by decide) (by decide)
  have hup : (segments (joinSegments ss)).head? = some up ↔
      joinSegments ss = up ∨ up ++ ['/'] <+: joinSegments ss :=
    head?_segments_eq_some_iff (by decide)
  rw [hjoin] at hup
  rw [if_neg hss]
  simp only [hss, hempty, hhere, false_or, ← hup]
  by_cases hleads : ss.head? = some up
  · rw [if_pos hleads, if_pos hleads]
  · rw [if_neg hleads, if_neg hleads]

/-! ## Acceptance -/

/-- A path is given as the segments that remain of it, once it is trimmed and has forward slashes.  It
is refused exactly where nothing is left of it, nothing remains of its segments, or it leads out of
where it starts.  So a path that is given is one of names, none of which is empty or holds a backslash,
and does not count from the root. -/
theorem normalize_contained (written : String) :
    let q := cleaned written.toList
    (∀ path, normalize written = .ok path ↔ q ≠ [] ∧ ∃ kept, kept ≠ [] ∧
        Remains (isRooted q) (segments q) kept ∧ path = String.ofList (joinSegments kept)) ∧
      (∀ e, normalize written = .error e ↔ q = [] ∧ e = .empty ∨
        q ≠ [] ∧ (Remains (isRooted q) (segments q) [] ∨ isRooted q = false ∧ Climbs (segments q)) ∧
          e = .outside written) ∧
      ∀ path, normalize written = .ok path →
        path ≠ "" ∧ isRooted path.toList = false ∧ '\\' ∉ path.toList ∧ IsCanonical path.toList := by
  intro q
  refine ⟨fun path => ?_, fun e => ?_, fun path h => ?_⟩
  · simp only [normalize_eq_ok_iff, canonical?_eq_some_iff_remains, and_assoc, and_left_comm]
    rfl
  · rw [← canonical?_eq_none_iff]
    unfold normalize
    by_cases hnil : q = []
    · simp [q, hnil, eq_comm]
    · cases hss : canonical? q <;> simp [q, hnil, hss, eq_comm]
  · have hcanonical := isCanonical_of_normalize h
    refine ⟨?_, not_isRooted_of_isCanonical hcanonical, backslash_not_mem_of_normalize h, hcanonical⟩
    rintro rfl
    exact (hcanonical [] List.mem_cons_self).nonempty rfl

/-- Blanks, slashes of both kinds and segments without effect around the names of a rooted path. -/
theorem normalize_contained_mixed :
    normalize " /..\\dir/.//sub\\..\\a b.scss/\t" = .ok "dir/a b.scss" ∧
      "dir/a b.scss" ≠ "" ∧ isRooted "dir/a b.scss".toList = false ∧
      '\\' ∉ "dir/a b.scss".toList ∧ IsCanonical "dir/a b.scss".toList := by
  have h : normalize " /..\\dir/.//sub\\..\\a b.scss/\t" = .ok "dir/a b.scss" := by decide
  exact ⟨h, (normalize_contained _).2.2 _ h⟩

end SheetBuild.Path
