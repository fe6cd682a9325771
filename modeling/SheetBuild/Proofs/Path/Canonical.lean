import Mathlib.Data.List.Induction
import SheetBuild.Disk.Place
import SheetBuild.Path.Logical
set_option autoImplicit false

/-!
# Canonical paths

A canonical path has no empty, `.` and `..` segments, so it names a place below every directory without
leading out of it.  Every path that is accepted comes out in this form (`isCanonical_of_normalize`),
and the segments of such a path are the names of the place below a directory (`join_of_isCanonical`).
-/

namespace SheetBuild.Path

/-! ## Cutting at slashes -/

/-- A text without a slash is one segment. -/
theorem segments_of_not_mem {cs : List Char} (h : '/' ∉ cs) : segments cs = [cs] := by
  induction cs with
  | nil => rfl
  | cons c r ih =>
    simp only [List.mem_cons, not_or] at h
    rw [segments, if_neg fun hc => h.1 hc.symm, ih h.2]

/-- Cutting the texts around a slash. -/
theorem segments_slash (front back : List Char) :
    segments (front ++ '/' :: back) = segments front ++ segments back := by
  induction front with
  | nil => rfl
  | cons c r ih =>
    rw [List.cons_append, segments, segments, ih]
    split
    · rfl
    · obtain ⟨s, ss, hs⟩ := List.exists_cons_of_ne_nil (segments_ne_nil r)
      simp only [hs, List.cons_append]

/-- Joining segments and cutting again gives them back. -/
theorem segments_joinSegments {ss : List Segment} (hne : ss ≠ []) (h : ∀ s ∈ ss, '/' ∉ s) :
    segments (joinSegments ss) = ss := by
  induction ss with
  | nil => exact absurd rfl hne
  | cons s ss ih =>
    have hs := segments_of_not_mem (h s List.mem_cons_self)
    cases ss with
    | nil => exact hs
    | cons s' ss =>
      rw [joinSegments, segments_slash, hs, ih (by simp) fun t ht => h t (List.mem_cons_of_mem _ ht)]
      · rfl
      · simp

/-- Joined segments end in the last one. -/
theorem isSuffix_joinSegments (ss : List Segment) (last : Segment) :
    last <:+ joinSegments (ss ++ [last]) := by
  induction ss with
  | nil => exact List.suffix_rfl
  | cons s ss ih =>
    cases ss with
    | nil => exact ⟨s ++ ['/'], by simp [joinSegments]⟩
    | cons s' ss => exact ih.trans ⟨s ++ ['/'], by simp [joinSegments]⟩

/-- A text without a slash is added to the last segment. -/
theorem exists_segments_append (cs : List Char) : ∃ init last, '/' ∉ last ∧
    ∀ more, '/' ∉ more → segments (cs ++ more) = init ++ [last ++ more] := by
  induction cs with
  | nil => exact ⟨[], [], by simp, fun more h => segments_of_not_mem h⟩
  | cons c r ih =>
    obtain ⟨init, last, hlast, hmore⟩ := ih
    by_cases hc : c = '/'
    · refine ⟨[] :: init, last, hlast, fun more h => ?_⟩
      rw [List.cons_append, segments, if_pos hc, hmore more h, List.cons_append]
    · cases init with
      | nil =>
        refine ⟨[], c :: last, ?_, fun more h => ?_⟩
        · simp only [List.mem_cons, not_or]
          exact ⟨fun h => hc h.symm, hlast⟩
        · rw [List.cons_append, segments, if_neg hc, hmore more h]
          rfl
      | cons s init =>
        refine ⟨(c :: s) :: init, last, hlast, fun more h => ?_⟩
        rw [List.cons_append, segments, if_neg hc, hmore more h]
        rfl

/-- A path begins with a segment when it is that segment, or has a slash behind it. -/
theorem head?_segments_eq_some_iff {cs : List Char} {s : Segment} (hs : '/' ∉ s) :
    (segments cs).head? = some s ↔ cs = s ∨ s ++ ['/'] <+: cs := by
  constructor
  · intro h
    have hjoin := joinSegments_segments cs
    cases hss : segments cs with
    | nil => exact absurd hss (segments_ne_nil cs)
    | cons t rest =>
      rw [hss, List.head?_cons, Option.some.injEq] at h
      rw [hss, h] at hjoin
      cases rest with
      | nil => exact .inl hjoin.symm
      | cons t' rest => exact .inr ⟨joinSegments (t' :: rest), by simpa [joinSegments] using hjoin⟩
  · rintro (rfl | ⟨r, rfl⟩)
    · rw [segments_of_not_mem hs, List.head?_cons]
    · rw [List.append_assoc, List.singleton_append, segments_slash, segments_of_not_mem hs,
        List.singleton_append, List.head?_cons]

/-- A character other than the slash stays when a path is cut at slashes. -/
theorem exists_mem_segments_iff {cs : List Char} {c : Char} (hc : c ≠ '/') :
    (∃ s ∈ segments cs, c ∈ s) ↔ c ∈ cs := by
  induction cs with
  | nil => simp [segments]
  | cons d r ih =>
    rw [segments, List.mem_cons, ← ih]
    split
    · rename_i hd
      simp [hd, hc]
    · obtain ⟨s, ss, hs⟩ := List.exists_cons_of_ne_nil (segments_ne_nil r)
      simp only [hs, List.mem_cons, exists_eq_or_imp]
      tauto

/-- A normal path has text. -/
theorem normal_ne_nil (cs : List Char) : normal cs ≠ [] := by
  simp only [normal]
  split
  · exact List.cons_ne_nil _ _
  · assumption

/-! ## Canonical form -/

/-- A segment that names something in the directory it stands in. -/
structure IsName (s : Segment) : Prop where
  nonempty : s ≠ []
  ne_here : s ≠ here
  ne_up : s ≠ up

instance (s : Segment) : Decidable (IsName s) :=
  decidable_of_iff (s ≠ [] ∧ s ≠ here ∧ s ≠ up)
    ⟨fun ⟨hnonempty, hhere, hup⟩ => ⟨hnonempty, hhere, hup⟩,
      fun h => ⟨h.nonempty, h.ne_here, h.ne_up⟩⟩

/-- A path all of whose segments are names. -/
def IsCanonical (cs : List Char) : Prop := ∀ s ∈ segments cs, IsName s

/-- Segments of which those that lead up stand first, where the last one is at the head of the list. -/
def Rising (kept : List Segment) : Prop :=
  ∃ names ups, kept = names ++ ups ∧ (∀ s ∈ names, IsName s ∧ '/' ∉ s) ∧ ∀ s ∈ ups, s = up

theorem Rising.push {kept : List Segment} (h : Rising kept) (rooted : Bool) {s : Segment}
    (hs : '/' ∉ s) : Rising (pushSegment rooted kept s) := by
  obtain ⟨names, ups, rfl, hnames, hups⟩ := h
  unfold pushSegment
  split
  · exact ⟨names, ups, rfl, hnames, hups⟩
  · rename_i hkeep
    split
    · cases names with
      | nil =>
        cases ups with
        | nil =>
          cases rooted with
          | true => exact ⟨[], [], rfl, by simp, by simp⟩
          | false => exact ⟨[], [up], rfl, by simp, by simp⟩
        | cons u ups =>
          have hu := hups u List.mem_cons_self
          simp only [List.nil_append, if_pos hu]
          refine ⟨[], up :: u :: ups, rfl, by simp, ?_⟩
          exact List.forall_mem_cons.2 ⟨rfl, hups⟩
      | cons n names =>
        have hn := (hnames n List.mem_cons_self).1.ne_up
        simp only [List.cons_append, if_neg hn]
        exact ⟨names, ups, rfl, fun t ht => hnames t (List.mem_cons_of_mem _ ht), hups⟩
    · rename_i hup
      simp only [not_or] at hkeep
      refine ⟨s :: names, ups, rfl, ?_, hups⟩
      exact List.forall_mem_cons.2 ⟨⟨⟨hkeep.1, hkeep.2, hup⟩, hs⟩, hnames⟩

/-- What remains of segments are names, behind those that lead up. -/
theorem rising_foldl {ss : List Segment} (h : ∀ s ∈ ss, '/' ∉ s) (rooted : Bool)
    {kept : List Segment} (hkept : Rising kept) : Rising (ss.foldl (pushSegment rooted) kept) := by
  induction ss generalizing kept with
  | nil => exact hkept
  | cons s ss ih =>
    obtain ⟨hs, hrest⟩ := List.forall_mem_cons.1 h
    exact ih hrest (hkept.push rooted hs)

theorem canonical?_eq_some_iff {q : List Char} {ss : List Segment} : canonical? q = some ss ↔
    collapse (isRooted q) (segments q) = ss ∧ ss ≠ [] ∧ ss.head? ≠ some up := by
  unfold canonical?
  constructor
  · intro h
    simp only at h
    split at h
    · exact absurd h (by simp)
    · rename_i haccepted
      obtain rfl := Option.some.inj h
      exact ⟨rfl, not_or.1 haccepted⟩
  · rintro ⟨rfl, hne, hup⟩
    exact if_neg (not_or.2 ⟨hne, hup⟩)

/-- A canonical form has segments, and they are names. -/
theorem canonical?_eq_some {q : List Char} {ss : List Segment} (h : canonical? q = some ss) :
    ss ≠ [] ∧ ∀ s ∈ ss, IsName s ∧ '/' ∉ s := by
  have hslash : ∀ s ∈ segments q, '/' ∉ s := fun s hs => slash_not_mem_of_mem_segments hs
  have hnothing : Rising [] := ⟨[], [], rfl, by simp, by simp⟩
  obtain ⟨names, ups, hfold, hnames, hups⟩ := rising_foldl hslash (isRooted q) hnothing
  obtain ⟨rfl, hne, hhead⟩ := canonical?_eq_some_iff.1 h
  rw [collapse, hfold, List.reverse_append] at hne hhead ⊢
  refine ⟨hne, ?_⟩
  -- one that leads up would stand first
  cases hback : ups.reverse with
  | nil =>
    intro s hs
    rw [List.nil_append, List.mem_reverse] at hs
    exact hnames s hs
  | cons u us =>
    have hu := hups u (List.mem_reverse.1 (hback ▸ List.mem_cons_self))
    rw [hback, hu] at hhead
    exact absurd rfl hhead

theorem normalize_eq_ok_iff {written path : String} : normalize written = .ok path ↔
    cleaned written.toList ≠ [] ∧
      ∃ ss, canonical? (cleaned written.toList) = some ss ∧ path = String.ofList (joinSegments ss) := by
  unfold normalize
  by_cases hnil : cleaned written.toList = []
  · simp [hnil]
  · cases hss : canonical? (cleaned written.toList) <;> simp [hnil, hss, eq_comm]

/-- A path that is accepted is canonical. -/
theorem isCanonical_of_normalize {written path : String} (h : normalize written = .ok path) :
    IsCanonical path.toList := by
  obtain ⟨-, ss, hss, rfl⟩ := normalize_eq_ok_iff.1 h
  obtain ⟨hne, hnames⟩ := canonical?_eq_some hss
  intro s hs
  rw [String.toList_ofList, segments_joinSegments hne fun s hs => (hnames s hs).2] at hs
  exact (hnames s hs).1

/-! ## Canonical paths as places -/

theorem not_isRooted_of_isCanonical {cs : List Char} (h : IsCanonical cs) : isRooted cs = false := by
  cases cs with
  | nil => rfl
  | cons c r =>
    rw [isRooted, Bool.eq_false_iff]
    intro hrooted
    have hc : c = '/' := by simpa using hrooted
    have hmem : [] ∈ segments (c :: r) := by
      rw [segments, if_pos hc]
      exact List.mem_cons_self
    exact (h [] hmem).nonempty rfl

end SheetBuild.Path

namespace SheetBuild.Disk.Place

open SheetBuild.Path (IsCanonical IsName segments)

/-- The segments of a canonical path are the names on the way. -/
theorem names_of_isCanonical {cs : List Char} (h : IsCanonical cs) :
    names cs = (segments cs).map String.ofList := by
  unfold names
  rw [List.filter_eq_self.2]
  intro s hs
  have hname := h s hs
  simp [hname.nonempty, hname.ne_here]

/-- A canonical path names the place below a directory. -/
theorem join_of_isCanonical (base : Place) {path : String} (h : IsCanonical path.toList) :
    join base path = base ++ (segments path.toList).map String.ofList := by
  rw [join, if_neg (by simp [Path.not_isRooted_of_isCanonical h]), names_of_isCanonical h]

/-- No segment of a canonical path leads up. -/
theorem up_not_mem_of_isName {ss : List Path.Segment} (h : ∀ s ∈ ss, IsName s) :
    up ∉ ss.map String.ofList := by
  intro hmem
  obtain ⟨s, hs, hup⟩ := List.mem_map.1 hmem
  exact (h s hs).ne_up (String.ofList_injective (hup.trans rfl))

/-- Names that do not lead up stay when every `..` is carried out. -/
theorem resolve_append {p q : Place} (h : up ∉ q) : resolve (p ++ q) = p.resolve ++ q := by
  induction q using List.reverseRecOn with
  | nil => simp
  | append_singleton q name ih =>
    simp only [List.mem_append, List.mem_singleton, not_or] at h
    rw [← List.append_assoc, resolve_snoc fun heq => h.2 heq.symm, ih h.1, List.append_assoc]

end SheetBuild.Disk.Place
