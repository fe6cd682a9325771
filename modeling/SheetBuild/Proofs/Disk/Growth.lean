import SheetBuild.Disk.Tree
set_option autoImplicit false

/-!
# Trees that grow by directories

Making directories only adds directories, so everything that a path led to it still leads to
(`growsTo_makeDirectories`).  Making a directory and those above it comes to the same as making those
above it first (`makeDirectories_snoc`).
-/

namespace SheetBuild.Disk.Tree

variable {t t' t'' : Tree} {p q : Place}

/-! ## Following names -/

theorem follow_append (t : Tree) (here : Place) (ps qs : List String) :
    t.follow here (ps ++ qs) = (t.follow here ps).bind fun q => t.follow q qs := by
  induction ps generalizing here with
  | nil => rfl
  | cons name ps ih =>
    rw [List.cons_append, follow, follow]
    cases t.node? here with
    | none => rfl
    | some n =>
      cases n with
      | file content => rfl
      | directory =>
        simp only
        split
        · exact ih _
        · exact ih _

/-- A name that does not lead up leads below a directory. -/
theorem follow_singleton (h : t.node? p = some .directory) {name : String}
    (hup : name ≠ Place.up) : t.follow p [name] = .ok (p ++ [name]) := by
  rw [follow, h]
  simp only [if_neg hup, follow]

/-- Where names lead depends on the directories only. -/
theorem follow_mono (h : ∀ r, t.node? r = some .directory → t'.node? r = some .directory)
    {here : Place} {ps : List String} (hf : t.follow here ps = .ok q) :
    t'.follow here ps = .ok q := by
  induction ps generalizing here with
  | nil => exact hf
  | cons name ps ih =>
    unfold follow at hf ⊢
    cases hn : t.node? here with
    | none =>
      rw [hn] at hf
      exact absurd hf (by simp)
    | some n =>
      cases n with
      | file content =>
        rw [hn] at hf
        exact absurd hf (by simp)
      | directory =>
        rw [hn] at hf
        rw [h here hn]
        simp only at hf ⊢
        split
        · rename_i hup
          rw [if_pos hup] at hf
          exact ih hf
        · rename_i hup
          rw [if_neg hup] at hf
          exact ih hf

/-- A last name that does not lead up is the last name of the place that is meant, in a directory. -/
theorem follow_snoc {here : Place} {ps : List String} {name : String} (hup : name ≠ Place.up) :
    t.follow here (ps ++ [name]) = .ok q ↔
      ∃ r, t.follow here ps = .ok r ∧ t.node? r = some .directory ∧ q = r ++ [name] := by
  rw [follow_append]
  constructor
  · intro h
    cases hf : t.follow here ps with
    | error e =>
      rw [hf] at h
      exact absurd h (by simp [Except.bind])
    | ok r =>
      rw [hf] at h
      have hr : t.follow r [name] = .ok q := h
      cases hn : t.node? r with
      | none =>
        rw [follow, hn] at hr
        exact absurd hr (by simp)
      | some n =>
        cases n with
        | file content =>
          rw [follow, hn] at hr
          exact absurd hr (by simp)
        | directory =>
          rw [follow_singleton hn hup] at hr
          exact ⟨r, rfl, hn, (Except.ok.inj hr).symm⟩
  · rintro ⟨r, hr, hn, rfl⟩
    rw [hr]
    exact follow_singleton hn hup

theorem locate_eq_ok_iff :
    t.locate p = .ok q ↔ p.all Place.isNameable = true ∧ t.follow [] p = .ok q := by
  unfold locate
  split
  · rename_i h
    simp [h]
  · rename_i h
    simp [h]

theorem locate_mono (h : ∀ r, t.node? r = some .directory → t'.node? r = some .directory)
    (hl : t.locate p = .ok q) : t'.locate p = .ok q := by
  obtain ⟨hnameable, hf⟩ := locate_eq_ok_iff.1 hl
  exact locate_eq_ok_iff.2 ⟨hnameable, follow_mono h hf⟩

/-- A path with another name behind it, in a directory. -/
theorem locate_snoc {name : String} (hup : name ≠ Place.up)
    (hnameable : Place.isNameable name = true) :
    t.locate (p ++ [name]) = .ok q ↔
      ∃ r, t.locate p = .ok r ∧ t.node? r = some .directory ∧ q = r ++ [name] := by
  simp only [locate_eq_ok_iff, follow_snoc hup, List.all_append, List.all_cons, List.all_nil,
    hnameable, Bool.and_true]
  constructor
  · rintro ⟨hall, r, hr, hn, rfl⟩
    exact ⟨r, ⟨hall, hr⟩, hn, rfl⟩
  · rintro ⟨r, ⟨hall, hr⟩, hn, rfl⟩
    exact ⟨hall, r, hr, hn, rfl⟩

/-! ## Names that no file can have -/

theorem follow_ne_unnameable {here : Place} {ps : List String} :
    t.follow here ps ≠ .error .unnameable := by
  induction ps generalizing here with
  | nil => simp [follow]
  | cons name ps ih =>
    unfold follow
    split
    · simp
    · simp
    · split <;> exact ih

theorem locate_eq_unnameable_iff :
    t.locate p = .error .unnameable ↔ p.all Place.isNameable = false := by
  unfold locate
  split
  · rename_i h
    simp [h, follow_ne_unnameable]
  · rename_i h
    simp [h]

theorem ensureDirectory_eq_unnameable_iff :
    t.ensureDirectory p = .error .unnameable ↔ p.all Place.isNameable = false := by
  rw [← locate_eq_unnameable_iff (t := t)]
  unfold ensureDirectory makeDirectory isDirectory find?
  cases hl : t.locate p with
  | error e => simp
  | ok q =>
    cases hn : t.node? q with
    | none => simp [hn]
    | some n => cases n <;> simp [hn]

/-- Directories under a path that no file can have are refused, and nothing is made. -/
theorem makeDirectories_of_unnameable (h : p.all Place.isNameable = false) :
    t.makeDirectories p = (t, some .unnameable) := by
  have hrefused := (ensureDirectory_eq_unnameable_iff (t := t)).2 h
  unfold makeDirectories
  cases p.length <;> simp [makeFrom, hrefused]

theorem makeFrom_ne_unnameable (h : p.all Place.isNameable = true) (n : Nat) :
    (t.makeFrom p n).2 ≠ some .unnameable := by
  have hensured : ∀ (t : Tree) (p : Place), p.all Place.isNameable = true →
      t.ensureDirectory p ≠ .error .unnameable := by
    intro t p hp hrefused
    rw [ensureDirectory_eq_unnameable_iff, hp] at hrefused
    exact absurd hrefused (by simp)
  induction n generalizing t p with
  | zero =>
    unfold makeFrom
    have := hensured t p h
    cases he : t.ensureDirectory p <;> simp_all
  | succ n ih =>
    have hinit : p.dropLast.all Place.isNameable = true := by
      rw [List.all_eq_true] at h ⊢
      exact fun name hname => h name ((List.dropLast_sublist p).subset hname)
    unfold makeFrom
    split
    · simp
    · have hmade := ih (t := t) hinit
      split
      · rename_i heq
        rwa [heq] at hmade
      · rename_i t' heq
        have := hensured t' p h
        cases he : t'.ensureDirectory p <;> simp_all
    · rename_i e _ heq
      have := hensured t p h
      simp_all

theorem makeDirectories_eq_unnameable_iff :
    (t.makeDirectories p).2 = some .unnameable ↔ p.all Place.isNameable = false := by
  cases h : p.all Place.isNameable with
  | false => simp [makeDirectories_of_unnameable h]
  | true =>
    simp only [Bool.true_eq_false, iff_false]
    exact makeFrom_ne_unnameable h p.length

/-! ## Where paths lead -/

/-- Following names, where it succeeds, carries out every `..`. -/
theorem follow_eq_ok {here : Place} {ps : List String} (h : t.follow here ps = .ok q) :
    q = (ps.foldl Place.push here.reverse).reverse := by
  induction ps generalizing here with
  | nil =>
    obtain rfl := Except.ok.inj h
    exact (List.reverse_reverse here).symm
  | cons name ps ih =>
    unfold follow at h
    split at h
    · exact absurd h (by simp)
    · exact absurd h (by simp)
    · rw [List.foldl_cons, Place.push]
      split at h
      · rename_i hup
        rw [if_pos hup, List.drop_one, List.tail_reverse]
        exact ih h
      · rename_i hup
        rw [if_neg hup]
        simpa using ih h

/-- A path leads nowhere else than where it leads with every `..` carried out. -/
theorem locate_eq_ok (h : t.locate p = .ok q) : q = p.resolve :=
  follow_eq_ok (locate_eq_ok_iff.1 h).2

/-! ## Growing -/

/-- A tree holds what another one holds, and beyond that directories only. -/
def GrowsTo (t t' : Tree) : Prop :=
  ∀ p, t'.node? p = t.node? p ∨ (t.node? p = none ∧ t'.node? p = some .directory)

theorem GrowsTo.refl (t : Tree) : t.GrowsTo t := fun _ => .inl rfl

theorem GrowsTo.trans (h : t.GrowsTo t') (h' : t'.GrowsTo t'') : t.GrowsTo t'' := by
  intro p
  rcases h p with hp | ⟨hp, hp'⟩
  · rcases h' p with hq | ⟨hq, hq'⟩
    · exact .inl (hq.trans hp)
    · exact .inr ⟨hp ▸ hq, hq'⟩
  · rcases h' p with hq | ⟨hq, -⟩
    · exact .inr ⟨hp, hq.trans hp'⟩
    · rw [hp'] at hq
      exact absurd hq (by simp)

/-- Directories stay directories. -/
theorem GrowsTo.directory (h : t.GrowsTo t') (hp : t.node? p = some .directory) :
    t'.node? p = some .directory := by
  rcases h p with hq | ⟨hq, -⟩
  · exact hq.trans hp
  · rw [hp] at hq
    exact absurd hq (by simp)

/-- Files are as before. -/
theorem GrowsTo.file_iff (h : t.GrowsTo t') {content : Bytes} :
    t'.node? p = some (.file content) ↔ t.node? p = some (.file content) := by
  rcases h p with hq | ⟨hq, hq'⟩
  · rw [hq]
  · rw [hq, hq']
    simp

theorem growsTo_put (h : t.node? p = none) : t.GrowsTo (t.put p .directory) := by
  intro r
  by_cases hr : r = p
  · subst hr
    have hne : r ≠ [] := by
      rintro rfl
      simp at h
    exact .inr ⟨h, node?_put_self t _ hne⟩
  · exact .inl (node?_put_of_ne t _ hr)

theorem growsTo_makeDirectory (h : t.makeDirectory p = .ok t') : t.GrowsTo t' := by
  unfold makeDirectory at h
  split at h
  · exact absurd h (by simp)
  · rename_i r _
    split at h
    · exact absurd h (by simp)
    · rename_i hnone
      rw [← Except.ok.inj h]
      exact growsTo_put (by simpa using hnone)

theorem growsTo_ensureDirectory (h : t.ensureDirectory p = .ok t') : t.GrowsTo t' := by
  unfold ensureDirectory at h
  split at h
  · rename_i hm
    exact Except.ok.inj h ▸ growsTo_makeDirectory hm
  · split at h
    · exact Except.ok.inj h ▸ .refl t
    · exact absurd h (by simp)

theorem growsTo_makeFrom (t : Tree) (p : Place) (n : Nat) : t.GrowsTo (t.makeFrom p n).1 := by
  induction n generalizing p with
  | zero =>
    unfold makeFrom
    split
    · rename_i h
      exact growsTo_ensureDirectory h
    · exact .refl t
  | succ n ih =>
    unfold makeFrom
    split
    · rename_i h
      exact growsTo_ensureDirectory h
    · have hparent := ih p.dropLast
      split
      · rename_i heq
        rwa [heq] at hparent
      · rename_i heq
        rw [heq] at hparent
        split
        · rename_i h
          exact hparent.trans (growsTo_ensureDirectory h)
        · exact hparent
    · exact .refl t

/-- Making directories adds directories and nothing else, also where it fails. -/
theorem growsTo_makeDirectories (t : Tree) (p : Place) : t.GrowsTo (t.makeDirectories p).1 :=
  growsTo_makeFrom t p p.length

theorem growsTo_of_makeDirectories {failure : Option FileError}
    (h : t.makeDirectories p = (t', failure)) : t.GrowsTo t' := by
  have hgrows := growsTo_makeDirectories t p
  rwa [h] at hgrows

/-- No file stands where another tree has a directory. -/
def Admits (t b : Tree) : Prop :=
  ∀ p, b.node? p = some .directory → t.node? p = some .directory ∨ t.node? p = none

/-- A tree admits what it grows to. -/
theorem GrowsTo.admits (h : t.GrowsTo t') : t.Admits t' := by
  intro p hp
  rcases h p with heq | ⟨hnone, -⟩
  · exact .inl (heq ▸ hp)
  · exact .inr hnone

/-! ## Making directories -/

theorem ensureDirectory_of_directory (hl : t.locate p = .ok q)
    (hq : t.node? q = some .directory) : t.ensureDirectory p = .ok t := by
  simp [ensureDirectory, makeDirectory, isDirectory, find?, hl, hq]

theorem ensureDirectory_of_none (hl : t.locate p = .ok q) (hq : t.node? q = none) :
    t.ensureDirectory p = .ok (t.put q .directory) := by
  simp [ensureDirectory, makeDirectory, hl, hq]

theorem ensureDirectory_of_locate {e : FileError} (hl : t.locate p = .error e) :
    t.ensureDirectory p = .error e := by
  simp [ensureDirectory, makeDirectory, isDirectory, find?, hl]

/-- Ensuring a directory changes nothing elsewhere. -/
theorem node?_ensureDirectory (h : t.ensureDirectory p = .ok t') (hl : t.locate p = .ok q)
    {r : Place} (hne : r ≠ q) : t'.node? r = t.node? r := by
  cases hn : t.node? q with
  | none =>
    rw [ensureDirectory_of_none hl hn] at h
    rw [← Except.ok.inj h, node?_put_of_ne t _ hne]
  | some n =>
    cases n with
    | directory =>
      rw [ensureDirectory_of_directory hl hn] at h
      rw [Except.ok.inj h]
    | file content => simp [ensureDirectory, makeDirectory, isDirectory, find?, hl, hn] at h

/-- There is a directory where one has been ensured. -/
theorem exists_of_ensureDirectory (h : t.ensureDirectory p = .ok t') :
    ∃ q, t'.locate p = .ok q ∧ t'.node? q = some .directory := by
  cases hl : t.locate p with
  | error e =>
    rw [ensureDirectory_of_locate hl] at h
    exact absurd h (by simp)
  | ok q =>
    have hgrows := growsTo_ensureDirectory h
    refine ⟨q, locate_mono (fun r => hgrows.directory) hl, ?_⟩
    cases hn : t.node? q with
    | none =>
      rw [ensureDirectory_of_none hl hn] at h
      rw [← Except.ok.inj h]
      refine node?_put_self t _ ?_
      rintro rfl
      simp at hn
    | some n =>
      cases n with
      | directory => exact hgrows.directory hn
      | file content => simp [ensureDirectory, makeDirectory, isDirectory, find?, hl, hn] at h

theorem makeFrom_of_directory (hl : t.locate p = .ok q) (hq : t.node? q = some .directory)
    (n : Nat) : t.makeFrom p n = (t, none) := by
  cases n <;> simp only [makeFrom, ensureDirectory_of_directory hl hq]

/-- There is nothing to make where there is a directory. -/
theorem makeDirectories_of_directory (hl : t.locate p = .ok q)
    (hq : t.node? q = some .directory) : t.makeDirectories p = (t, none) :=
  makeFrom_of_directory hl hq p.length

/-- There is a directory where one has been made. -/
theorem exists_of_makeDirectories (h : t.makeDirectories p = (t', none)) :
    ∃ q, t'.locate p = .ok q ∧ t'.node? q = some .directory := by
  unfold makeDirectories at h
  generalize p.length = n at h
  cases n with
  | zero =>
    unfold makeFrom at h
    cases he : t.ensureDirectory p with
    | error e =>
      rw [he] at h
      exact absurd (Prod.mk.inj h).2 (by simp)
    | ok t₁ =>
      rw [he] at h
      exact (Prod.mk.inj h).1 ▸ exists_of_ensureDirectory he
  | succ n =>
    unfold makeFrom at h
    split at h
    · rename_i he
      exact (Prod.mk.inj h).1 ▸ exists_of_ensureDirectory he
    · split at h
      · exact absurd (Prod.mk.inj h).2 (by simp)
      · split at h
        · rename_i he
          exact (Prod.mk.inj h).1 ▸ exists_of_ensureDirectory he
        · exact absurd (Prod.mk.inj h).2 (by simp)
    · exact absurd (Prod.mk.inj h).2 (by simp)

/-- Below a path that leads to a directory once it has grown, a tree lacks directories at worst. -/
theorem follow_of_growsTo (h : t.GrowsTo t') {here : Place} {ps : List String}
    (hf : t'.follow here ps = .ok q) (hq : t'.node? q = some .directory) :
    t.follow here ps = .ok q ∧ t.node? q = some .directory ∨
      ∀ name, t.follow here (ps ++ [name]) = .error .notFound := by
  induction ps generalizing here with
  | nil =>
    obtain rfl := Except.ok.inj hf
    rcases h.admits _ hq with hd | hnone
    · exact .inl ⟨rfl, hd⟩
    · refine .inr fun name => ?_
      rw [List.nil_append, follow, hnone]
  | cons name ps ih =>
    have hhere : t'.node? here = some .directory := by
      unfold follow at hf
      split at hf
      · exact absurd hf (by simp)
      · exact absurd hf (by simp)
      · assumption
    rcases h.admits _ hhere with hd | hnone
    · unfold follow at hf
      rw [hhere] at hf
      simp only at hf
      simp only [List.cons_append, follow, hd]
      by_cases hup : name = Place.up
      · rw [if_pos hup] at hf
        simpa only [if_pos hup] using ih hf
      · rw [if_neg hup] at hf
        simpa only [if_neg hup] using ih hf
    · refine .inr fun last => ?_
      rw [List.cons_append, follow, hnone]

/-- Making a directory and those on the way to it is making the one above it and then it. -/
theorem makeDirectories_snoc (h : t.makeDirectories p = (t', none)) {name : String}
    (hnameable : Place.isNameable name = true) :
    t.makeDirectories (p ++ [name]) =
      match t'.ensureDirectory (p ++ [name]) with
      | .ok t'' => (t'', none)
      | .error e => (t', some e) := by
  obtain ⟨q, hl, hq⟩ := exists_of_makeDirectories h
  have hgrows := growsTo_of_makeDirectories h
  obtain ⟨hall, hf⟩ := locate_eq_ok_iff.1 hl
  have hmade : t.makeFrom p p.length = (t', none) := h
  rw [makeDirectories, List.length_append, List.length_singleton, makeFrom,
    List.dropLast_concat]
  rcases follow_of_growsTo hgrows hf hq with ⟨hf', hq'⟩ | hmissing
  · -- the one above it is there, so nothing else is made
    have hsame := makeDirectories_of_directory (locate_eq_ok_iff.2 ⟨hall, hf'⟩) hq'
    rw [h] at hsame
    obtain rfl := (Prod.mk.inj hsame).1
    cases he : t'.ensureDirectory (p ++ [name]) with
    | ok t'' => rfl
    | error e =>
      cases e with
      | notFound => simp only [hmade, he]
      | _ => rfl
  · have herror : t.locate (p ++ [name]) = .error .notFound := by
      simp [locate, hall, hnameable, hmissing name]
    cases he : t'.ensureDirectory (p ++ [name]) with
    | ok t'' => simp only [ensureDirectory_of_locate herror, hmade, he]
    | error e => simp only [ensureDirectory_of_locate herror, hmade, he]

/-! ## Writing files -/

/-- A file that is written stands where its path leads, and nothing else changes. -/
theorem exists_of_write {content : Bytes} (h : t.write p content = .ok t') :
    t.locate p = .ok p.resolve ∧ t' = t.put p.resolve (.file content) := by
  unfold write at h
  cases hl : t.locate p with
  | error e =>
    rw [hl] at h
    exact absurd h (by simp)
  | ok q =>
    obtain rfl := locate_eq_ok hl
    rw [hl] at h
    simp only at h
    split at h
    · exact absurd h (by simp)
    · exact ⟨rfl, (Except.ok.inj h).symm⟩

/-- No file is written in the place of a directory. -/
theorem directory_of_write {content : Bytes} (h : t.write p content = .ok t') {r : Place}
    (hr : t.node? r = some .directory) : t'.node? r = some .directory := by
  obtain ⟨hl, rfl⟩ := exists_of_write h
  rwa [node?_put_of_ne]
  rintro rfl
  simp [write, hl, hr] at h

/-! ## Trees without loose ends -/

/-- Everything in a tree is in a directory. -/
def Rooted (t : Tree) : Prop :=
  ∀ p name n, t.node? (p ++ [name]) = some n → t.node? p = some .directory

theorem Rooted.directory_above {n : Node} (h : t.Rooted) {name : String} {ps : List String}
    (hn : t.node? (p ++ name :: ps) = some n) : t.node? p = some .directory := by
  induction ps generalizing p name with
  | nil => exact h p name n hn
  | cons name' ps ih =>
    have hinner : t.node? (p ++ [name] ++ name' :: ps) = some n := by simpa using hn
    exact h p name .directory (ih hinner)

/-- Names that do not lead up lead to what they are the way to. -/
theorem Rooted.follow_eq {here : Place} {n : Node} (h : t.Rooted) {ps : List String} (hup : Place.up ∉ ps)
    (hn : t.node? (here ++ ps) = some n) : t.follow here ps = .ok (here ++ ps) := by
  induction ps generalizing here with
  | nil => rw [follow, List.append_nil]
  | cons name ps ih =>
    rw [List.mem_cons, not_or] at hup
    rw [follow, h.directory_above hn]
    simp only [if_neg (Ne.symm hup.1)]
    rw [ih hup.2 (by simpa using hn), List.append_assoc, List.singleton_append]

/-- What stands at a place is found there. -/
theorem Rooted.find?_eq {n : Node} (h : t.Rooted) (hname : p.all Place.isNameable = true) (hup : Place.up ∉ p)
    (hn : t.node? p = some n) : t.find? p = some n := by
  have hl : t.locate p = .ok p := locate_eq_ok_iff.2 ⟨hname, h.follow_eq hup hn⟩
  rw [find?, hl]
  exact hn

end SheetBuild.Disk.Tree
