import Mathlib.Data.List.Dedup
import Mathlib.Data.List.Forall2
import SheetBuild.Cache.Key
import SheetBuild.Proofs.Text.Utf8
set_option autoImplicit false

/-!
# What the material of a key determines

Every part of a key stands behind its length, so the parts can be cut off the material one after the
other.  Hence the material determines the list of parts, and the parts determine everything they were
made of: the digest of the entry, the paths and digests of its dependencies in their order, and the
options.  A key is the digest of the material, so keys tell the same apart as long as no two of the
materials at hand share a digest (`key_eq_iff`).
-/

namespace SheetBuild

/-- No two of the byte sequences have one digest. -/
def Digest.CollisionFree (messages : List Bytes) : Prop :=
  ∀ m ∈ messages, ∀ n ∈ messages, sha256Hex m = sha256Hex n → m = n

/-- No two have one digest when the digests are as many as the sequences. -/
theorem Digest.collisionFree_iff {messages : List Bytes} :
    CollisionFree messages ↔ (messages.dedup.map sha256Hex).Nodup := by
  rw [List.nodup_map_iff_inj_on (List.nodup_dedup messages)]
  simp only [List.mem_dedup, CollisionFree]

instance (messages : List Bytes) : Decidable (Digest.CollisionFree messages) :=
  decidable_of_iff _ Digest.collisionFree_iff.symm

theorem Digest.CollisionFree.of_subset {messages fewer : List Bytes}
    (h : CollisionFree messages) (hsub : fewer ⊆ messages) : CollisionFree fewer :=
  fun m hm n hn => h m (hsub hm) n (hsub hn)

namespace Cache

/-! ## Prefix-free writing -/

/-- A way of writing is prefix-free when what was written can be cut off the front of any longer byte
sequence. -/
def PrefixFree {α : Type} (write : α → Bytes) : Prop :=
  ∀ (a b : α) (s t : Bytes), write a ++ s = write b ++ t → a = b ∧ s = t

/-- Lists that are written item by item in a prefix-free way, none of them empty, have the same
bytes only if they are equal. -/
theorem PrefixFree.flatMap_injective {α : Type} {write : α → Bytes} (h : PrefixFree write)
    (hne : ∀ a, write a ≠ []) :
    ∀ {xs ys : List α}, xs.flatMap write = ys.flatMap write → xs = ys := by
  intro xs
  induction xs with
  | nil =>
    intro ys hxy
    cases ys with
    | nil => rfl
    | cons y ys =>
      rw [List.flatMap_nil, List.flatMap_cons] at hxy
      exact absurd (List.append_eq_nil_iff.1 hxy.symm).1 (hne y)
  | cons x xs ih =>
    intro ys hxy
    cases ys with
    | nil =>
      rw [List.flatMap_nil, List.flatMap_cons] at hxy
      exact absurd (List.append_eq_nil_iff.1 hxy).1 (hne x)
    | cons y ys =>
      rw [List.flatMap_cons, List.flatMap_cons] at hxy
      obtain ⟨hhead, htail⟩ := h _ _ _ _ hxy
      rw [hhead, ih htail]

/-- Two numbers with the same decimal digits are equal. -/
theorem toDigits_injective {m n : Nat} (h : Nat.toDigits 10 m = Nat.toDigits 10 n) : m = n := by
  rw [← Nat.ofDigitChars_ten_toDigits (n := m), h, Nat.ofDigitChars_ten_toDigits]

theorem countText_injective {m n : Nat} (h : countText m = countText n) : m = n :=
  toDigits_injective (String.ofList_injective h)

/-- No digit of a length is the mark that ends it. -/
theorem colon_not_mem_toDigits (n : Nat) : ':' ∉ Nat.toDigits 10 n := by
  intro h
  have hd := Nat.isDigit_of_mem_toDigits (by decide) (by decide) h
  exact absurd hd (by decide)

/-- Two texts without a mark, each in front of the mark, are equal where all of it is. -/
theorem append_cons_inj_of_not_mem {α : Type} {x : α} :
    ∀ {a b s t : List α}, x ∉ a → x ∉ b → a ++ x :: s = b ++ x :: t → a = b ∧ s = t := by
  intro a
  induction a with
  | nil =>
    intro b s t _ hb h
    cases b with
    | nil => exact ⟨rfl, (List.cons.inj h).2⟩
    | cons c b => exact absurd (List.mem_cons.2 (.inl (List.cons.inj h).1)) hb
  | cons c a ih =>
    intro b s t ha hb h
    cases b with
    | nil => exact absurd (List.mem_cons.2 (.inl (List.cons.inj h).1.symm)) ha
    | cons d b =>
      obtain ⟨hcd, htail⟩ := List.cons.inj h
      obtain ⟨hab, hst⟩ := ih (fun m => ha (List.mem_cons_of_mem _ m))
        (fun m => hb (List.mem_cons_of_mem _ m)) htail
      exact ⟨by rw [hcd, hab], hst⟩

/-- A length in front of bytes is read as that length, and leaves those bytes. -/
theorem length_mark_inj {m n : Nat} {s t : Bytes}
    (h : Text.Utf8.encode (Nat.toDigits 10 m ++ [':']) ++ s
      = Text.Utf8.encode (Nat.toDigits 10 n ++ [':']) ++ t) : m = n ∧ s = t := by
  have hp := congrArg Text.Utf8.pieces h
  rw [Text.Utf8.pieces_encode_append, Text.Utf8.pieces_encode_append, List.map_append,
    List.map_append, List.append_assoc, List.append_assoc] at hp
  have hmark : ∀ k : Nat, some ':' ∉ (Nat.toDigits 10 k).map some := fun k hk => by
    obtain ⟨c, hc, hcc⟩ := List.mem_map.1 hk
    exact colon_not_mem_toDigits k (Option.some.inj hcc ▸ hc)
  have hdigits := (append_cons_inj_of_not_mem (hmark m) (hmark n) hp).1
  have hmn : m = n :=
    toDigits_injective ((List.map_inj_right fun _ _ => Option.some.inj).1 hdigits)
  subst hmn
  exact ⟨rfl, List.append_cancel_left h⟩

/-- A part with its length in front can be cut off whatever follows it. -/
theorem prefixFree_delimited : PrefixFree delimited := by
  intro a b s t h
  simp only [delimited, List.append_assoc] at h
  obtain ⟨hlen, hrest⟩ := length_mark_inj (by simpa using h)
  obtain ⟨hbytes, hst⟩ := List.append_inj hrest hlen
  exact ⟨String.toList_injective (Text.Utf8.encode_injective hbytes), hst⟩

theorem delimited_ne_nil (part : String) : delimited part ≠ [] := by
  simp [delimited, Text.Utf8.encode, Text.Utf8.encodeChar]

/-! ## The parts of a key -/

/-- The path and the digest of a dependency. -/
def pathAndDigest (d : SourceFile) : String × String := (d.path, d.contentHash)

/-- The parts of dependencies in front of other parts can be cut off, where their number is known. -/
theorem dependencyParts_inj : ∀ {ds ds' : List SourceFile} {s t : List String},
    ds.length = ds'.length →
    ds.flatMap (fun d => [d.path, d.contentHash]) ++ s
      = ds'.flatMap (fun d => [d.path, d.contentHash]) ++ t →
    ds.map pathAndDigest = ds'.map pathAndDigest ∧ s = t := by
  intro ds
  induction ds with
  | nil =>
    intro ds' s t hlen h
    have hnil : ds' = [] := List.eq_nil_of_length_eq_zero hlen.symm
    subst hnil
    exact ⟨rfl, by simpa using h⟩
  | cons d ds ih =>
    intro ds' s t hlen h
    cases ds' with
    | nil => simp at hlen
    | cons d' ds' =>
      simp only [List.flatMap_cons, List.cons_append, List.nil_append, List.cons.injEq] at h
      obtain ⟨hpath, hdigest, hrest⟩ := h
      obtain ⟨hds, hst⟩ := ih (by simpa using hlen) hrest
      exact ⟨by simp [pathAndDigest, hpath, hdigest, hds], hst⟩

/-- The last two parts determine the layout and whether there are source maps. -/
theorem optionParts_inj {m m' : OutputMode} {b b' : Bool}
    (h : [m.word, if b then "map" else "nomap"] = [m'.word, if b' then "map" else "nomap"]) :
    m = m' ∧ b = b' := by
  simp only [List.cons.injEq, and_true] at h
  refine ⟨OutputMode.word_injective h.1, ?_⟩
  cases b <;> cases b' <;> simp_all

/-- The parts of a key determine what they were made of. -/
theorem keyParts_inj {e e' : SourceFile} {ds ds' : List SourceFile} {o o' : CompileOptions}
    (h : keyParts e ds o = keyParts e' ds' o') :
    e.contentHash = e'.contentHash ∧ ds.map pathAndDigest = ds'.map pathAndDigest ∧ o = o' := by
  simp only [keyParts, List.cons_append, List.nil_append, List.append_assoc, List.cons.injEq,
    true_and] at h
  obtain ⟨hentry, hcount, hrest⟩ := h
  obtain ⟨hds, hoptions⟩ := dependencyParts_inj (countText_injective hcount) hrest
  obtain ⟨hpaths, hlast⟩ := List.cons.inj hoptions
  obtain ⟨hincludes, hmode⟩ := List.append_inj hlast (countText_injective hpaths)
  obtain ⟨hlayout, hmaps⟩ := optionParts_inj hmode
  refine ⟨hentry, hds, ?_⟩
  cases o
  cases o'
  simp_all

/-- The material of a key determines the digest of the entry, the paths and digests of the
dependencies in their order, and the options, and nothing else goes into it. -/
theorem keyMaterial_eq_iff {e e' : SourceFile} {ds ds' : List SourceFile} {o o' : CompileOptions} :
    keyMaterial e ds o = keyMaterial e' ds' o' ↔
      e.contentHash = e'.contentHash ∧ ds.map pathAndDigest = ds'.map pathAndDigest ∧ o = o' := by
  constructor
  · intro h
    exact keyParts_inj (prefixFree_delimited.flatMap_injective delimited_ne_nil h)
  · rintro ⟨hentry, hds, rfl⟩
    have hlen : ds.length = ds'.length := by simpa using congrArg List.length hds
    have hparts : ∀ xs : List SourceFile, xs.flatMap (fun d => [d.path, d.contentHash])
        = (xs.map pathAndDigest).flatMap fun p => [p.1, p.2] := fun xs => by
      rw [List.flatMap_map]
      rfl
    rw [keyMaterial, keyMaterial, keyParts, keyParts, hentry, hlen, hparts ds, hds, ← hparts ds']

/-! ## Keys -/

/-- Two compilations of an entry with dependencies and options are of the same inputs. -/
structure SameInputs (e : SourceFile) (ds : List SourceFile) (o : CompileOptions) (e' : SourceFile)
    (ds' : List SourceFile) (o' : CompileOptions) : Prop where
  entry : e.contentHash = e'.contentHash
  /-- there are as many dependencies, and in order each has the path and the digest of the other -/
  dependencies : List.Forall₂ (fun d d' => d.path = d'.path ∧ d.contentHash = d'.contentHash) ds ds'
  includePaths : o.includePaths = o'.includePaths
  outputMode : o.outputMode = o'.outputMode
  sourceMaps : o.sourceMaps = o'.sourceMaps

theorem map_pathAndDigest_eq_iff {ds ds' : List SourceFile} :
    ds.map pathAndDigest = ds'.map pathAndDigest ↔
      List.Forall₂ (fun d d' => d.path = d'.path ∧ d.contentHash = d'.contentHash) ds ds' := by
  rw [← List.forall₂_eq_eq_eq, List.forall₂_map_left_iff, List.forall₂_map_right_iff]
  simp only [pathAndDigest, Prod.mk.injEq]

/-- Two compilations of the same inputs are what has one material. -/
theorem keyMaterial_eq_iff_sameInputs {e e' : SourceFile} {ds ds' : List SourceFile}
    {o o' : CompileOptions} :
    keyMaterial e ds o = keyMaterial e' ds' o' ↔ SameInputs e ds o e' ds' o' := by
  rw [keyMaterial_eq_iff, map_pathAndDigest_eq_iff]
  constructor
  · rintro ⟨hentry, hds, rfl⟩
    exact ⟨hentry, hds, rfl, rfl, rfl⟩
  · rintro ⟨hentry, hds, hincludes, hmode, hmaps⟩
    refine ⟨hentry, hds, ?_⟩
    cases o
    cases o'
    simp_all

/-- The bytes that two keys are digests of are equal exactly when the entries carry one digest, the
dependencies have the same paths and digests one by one, and the options are equal.  The keys
themselves are, where the digest tells these two byte sequences apart.  The path, the target and the
candidate flag of the entry have no part in its key. -/
theorem key_eq_iff (e e' : SourceFile) (ds ds' : List SourceFile) (o o' : CompileOptions) :
    (keyMaterial e ds o = keyMaterial e' ds' o' ↔ SameInputs e ds o e' ds' o') ∧
      (Digest.CollisionFree [keyMaterial e ds o, keyMaterial e' ds' o'] →
        (key e ds o = key e' ds' o' ↔ SameInputs e ds o e' ds' o')) ∧
      ∀ path target candidate,
        key { e with path, target, entryCandidate := candidate } ds o = key e ds o := by
  refine ⟨keyMaterial_eq_iff_sameInputs, ?_, fun path target candidate => key_congr rfl ds o⟩
  intro hcf
  rw [← keyMaterial_eq_iff_sameInputs]
  constructor
  · exact hcf _ (by simp) _ (by simp)
  · exact fun h => congrArg Digest.sha256Hex h

/-- A sheet with one dependency, whose path begins like the length of a part. -/
def countedSheet (path digest : String) : SourceFile := ⟨path, [], digest, none, true⟩

/-- Parts that run together into one text are told apart: the key sees where the digest of a
dependency begins and where an include path ends. -/
theorem key_boundaries :
    let e := countedSheet "é.scss" "0"
    let ds := [countedSheet "2:é" "1:"]
    let ds' := [countedSheet "2:é1" ":"]
    Digest.CollisionFree [keyMaterial e ds ⟨["ab", "c"], .expanded, false⟩,
        keyMaterial e ds' ⟨["a", "bc"], .expanded, false⟩] ∧
      key e ds ⟨["ab", "c"], .expanded, false⟩ ≠ key e ds' ⟨["a", "bc"], .expanded, false⟩ := by
  intro e ds ds'
  have hcf : Digest.CollisionFree [keyMaterial e ds ⟨["ab", "c"], .expanded, false⟩,
      keyMaterial e ds' ⟨["a", "bc"], .expanded, false⟩] := by decide +kernel
  refine ⟨hcf, fun hkey => ?_⟩
  have hsame := ((key_eq_iff e e ds ds' _ _).2.1 hcf).1 hkey
  exact absurd hsame.includePaths (by decide)

end Cache

end SheetBuild
