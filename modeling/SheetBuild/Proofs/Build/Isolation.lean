import SheetBuild.Proofs.Build.Digested
set_option autoImplicit false

/-!
# Files that an entry does not reach

The closure and the key of an entry depend on the files that it reaches, and on which candidates of
their references are there.  Nothing else in a batch touches them: other files may be edited, added,
removed or broken, and may import each other in circles (`closure_and_key_eq_of_unshadowed`).
-/

namespace SheetBuild.Build.Batch

open SheetBuild.Cache (pathAndDigest)
open SheetBuild.Import (Graph Node Precedes Reference Refers candidates resolve)

variable {b₁ b₂ : Batch} {p : String} {c : List String}

/-- The second batch holds no candidate that comes before what a reference in one of the files at
these paths resolves to in the first. -/
def ShadowsNone (b₁ b₂ : Batch) (ps : List String) : Prop :=
  ∀ q ∈ ps, ∀ g, b₁.files.get? q = some g → ∀ r, Refers g r →
    ∀ t, resolve b₁.files b₁.options.includePaths q r.target = .found t →
      ∀ x, Precedes (candidates q r.target b₁.options.includePaths) x t.path →
        b₂.files.get? x = none

/-- A reference on a walk is followed alike in a batch that holds the files of the walk and shadows
none of them. -/
theorem follow_eq_of_agreeAt (hc : b₁.graph.Walk p c) (hagree : b₁.AgreeAt b₂ (p :: c))
    (hshadow : b₁.ShadowsNone b₂ (p :: c)) {q : String} (hq : q ∈ p :: c) {g : SourceFile}
    (hg : b₁.files.get? q = some g) {r : Reference} (hr : Refers g r) :
    Node.follow b₁.files b₁.options.includePaths q r
      = Node.follow b₂.files b₁.options.includePaths q r := by
  rcases hc.resolve_of_refers hq hg hr with hx | ⟨t, ht, hmem⟩
  · have hx₂ : resolve b₂.files b₁.options.includePaths q r.target = .external :=
      Import.resolve_eq_external_iff.2 (Import.resolve_eq_external_iff.1 hx)
    rw [Node.follow, Node.follow, hx, hx₂]
  · obtain ⟨-, t₂, -, ht₂, -⟩ := hagree t.path (List.mem_cons_of_mem _ hmem)
    have hfound := Import.resolve_of_unshadowed ht ht₂ (hshadow q hq g hg r hr t ht)
    have hpath : t.path = t₂.path := (FileSet.mem_of_get? ht₂).2.symm
    simp only [Node.follow, ht, hfound, hpath]

/-- A batch that holds the files of a walk and shadows none of them has the walk as well. -/
theorem walk_of_agreeAt (hoptions : b₁.options = b₂.options) (hc : b₁.graph.Walk p c)
    (hagree : b₁.AgreeAt b₂ (p :: c)) (hshadow : b₁.ShadowsNone b₂ (p :: c)) :
    b₂.graph.Walk p c := by
  apply hc.congr
  intro q hq
  obtain ⟨g₁, g₂, hg₁, hg₂, hcontent, -⟩ := hagree q hq
  obtain ⟨-, rfl⟩ := FileSet.mem_of_get? hg₁
  have hnode : Node.ofFile b₁.files b₁.options.includePaths g₁
      = Node.ofFile b₂.files b₁.options.includePaths g₂ :=
    Node.ofFile_congr (FileSet.mem_of_get? hg₂).2.symm hcontent fun r hr =>
      follow_eq_of_agreeAt hc hagree hshadow hq hg₁ hr
  rw [graph_eq, graph_eq, ← hoptions, Graph.imports_ofFiles hg₁, Graph.imports_ofFiles hg₂,
    Graph.problems_ofFiles hg₁, Graph.problems_ofFiles hg₂, hnode]
  exact ⟨rfl, rfl⟩

/-- Files that are the same go into keys with the same paths and digests. -/
theorem map_pathAndDigest_filesAt_of_agreeAt {ps : List String} (hagree : b₁.AgreeAt b₂ ps) :
    (b₂.filesAt ps).map pathAndDigest = (b₁.filesAt ps).map pathAndDigest := by
  unfold filesAt
  rw [List.map_filterMap, List.map_filterMap]
  apply List.filterMap_congr
  intro q hq
  obtain ⟨g₁, g₂, hg₁, hg₂, -, hdigest⟩ := hagree q hq
  rw [hg₁, hg₂, Option.map_some, Option.map_some, pathAndDigest, pathAndDigest, hdigest,
    (FileSet.mem_of_get? hg₁).2, (FileSet.mem_of_get? hg₂).2]

/-- The closure and the key of an entry outlive every change of a batch that leaves the entry and
the files it reaches as they are, and adds no candidate in front of what their references resolve
to. -/
theorem closure_and_key_eq_of_unshadowed {e : SourceFile} {memo₁ memo₂ : Graph.Memo}
    (hoptions : b₁.options = b₂.options) (he : e ∈ b₁.files.files) (hm₁ : b₁.graph.Asked memo₁)
    (hm₂ : b₂.graph.Asked memo₂) (hc : (b₁.graph.closure memo₁ e.path).1 = .ok c)
    (hagree : b₁.AgreeAt b₂ (e.path :: c)) (hshadow : b₁.ShadowsNone b₂ (e.path :: c)) :
    (b₂.graph.closure memo₂ e.path).1 = .ok c ∧
      ∀ e₂, b₂.files.get? e.path = some e₂ → b₂.key e₂ c = b₁.key e c := by
  have hwalk := (Graph.closure_eq_ok_iff hm₁).1 hc
  have hwalk₂ := walk_of_agreeAt hoptions hwalk hagree hshadow
  refine ⟨(Graph.closure_eq_ok_iff hm₂).2 hwalk₂, ?_⟩
  intro e₂ he₂
  obtain ⟨g₁, g₂, hg₁, hg₂, -, hdigest⟩ := hagree e.path List.mem_cons_self
  obtain rfl : e = g₁ := Option.some.inj ((FileSet.get?_of_mem he).symm.trans hg₁)
  obtain rfl : e₂ = g₂ := Option.some.inj (he₂.symm.trans hg₂)
  have hfiles := map_pathAndDigest_filesAt_of_agreeAt fun q hq =>
    hagree q (List.mem_cons_of_mem _ hq)
  have hmaterial := Cache.keyMaterial_eq_iff.2 ⟨hdigest.symm, hfiles, hoptions.symm⟩
  exact congrArg Digest.sha256Hex hmaterial

/-! ## A sheet among broken files -/

/-- A sheet that uses another one. -/
def user : SourceFile := .ofText "a.scss" "@use 'm'"

/-- The sheet that is used. -/
def used : SourceFile := .ofText "m.scss" "b{}"

/-- The two sheets, and one that nothing leads to. -/
def tidy : Batch := ⟨{}, none, .ofList [user, used, .ofText "old.scss" ""]⟩

/-- The two sheets, and what is left of others: one that cannot be scanned, one that refers to
nothing, two in a circle, and one that the reference would resolve to if the used one were not
there. -/
def untidy : Batch where
  options := {}
  target := some "web"
  files := .ofList [.ofText "m.sass" "@use 'a'", used, .ofText "open.scss" "@import 'a",
    .ofText "lost.scss" "@use 'x'", .ofText "p.scss" "@use 'q'", .ofText "q.scss" "@use 'p'", user]

/-- The broken files have left the two sheets as they were. -/
theorem agreeAt_tidy_untidy : tidy.AgreeAt untidy ["a.scss", "m.scss"] := by
  intro q hq
  rcases List.mem_cons.1 hq with rfl | hq
  · exact ⟨user, user, by decide +kernel, by decide +kernel, rfl, rfl⟩
  · obtain rfl := List.mem_singleton.1 hq
    exact ⟨used, used, by decide +kernel, by decide +kernel, rfl, rfl⟩

/-- No broken file is a partial, so none of them comes before the used one. -/
theorem shadowsNone_tidy_untidy : tidy.ShadowsNone untidy ["a.scss", "m.scss"] := by
  intro q hq g hg r hr t ht x hx
  obtain ⟨references, hscan, hmem⟩ := hr
  rcases List.mem_cons.1 hq with rfl | hq
  · obtain rfl : g = user := Option.some.inj (hg.symm.trans (by decide +kernel))
    obtain rfl : references = [⟨.use, "m", 1, 6⟩] :=
      Except.ok.inj (hscan.symm.trans (by decide +kernel))
    obtain rfl := List.mem_singleton.1 hmem
    have hpath : t.path = "m.scss" := by
      have hleads := Node.leadsTo?_eq_some_iff.2 ⟨t, ht, rfl⟩
      exact Option.some.inj (hleads.symm.trans (by decide +kernel))
    have hcandidates : candidates "a.scss" "m" tidy.options.includePaths
        = ["_m.scss", "_m.sass", "m.scss", "m.sass", "m/_index.scss", "m/_index.sass",
          "m/index.scss", "m/index.sass", "m/_m.scss", "m/_m.sass", "m/m.scss", "m/m.sass"] := by
      decide +kernel
    rw [hcandidates, hpath] at hx
    have hfront : x = "_m.scss" ∨ x = "_m.sass" := by simpa using hx
    rcases hfront with rfl | rfl <;> decide +kernel
  · obtain rfl := List.mem_singleton.1 hq
    obtain rfl : g = used := Option.some.inj (hg.symm.trans (by decide +kernel))
    obtain rfl : references = [] := Except.ok.inj (hscan.symm.trans (by decide +kernel))
    exact absurd hmem List.not_mem_nil

/-- The sheet has the same closure and the same key among the broken files. -/
theorem closure_and_key_user :
    (untidy.graph.closure [] "a.scss").1 = .ok ["m.scss"] ∧
      untidy.key user ["m.scss"] = tidy.key user ["m.scss"] := by
  have hc : (tidy.graph.closure [] user.path).1 = .ok ["m.scss"] := by decide +kernel
  have hoptions : tidy.options = untidy.options := rfl
  obtain ⟨hclosure, hkey⟩ := closure_and_key_eq_of_unshadowed hoptions (by decide +kernel) .nothing
    .nothing hc agreeAt_tidy_untidy shadowsNone_tidy_untidy
  exact ⟨hclosure, hkey user (by decide +kernel)⟩

end SheetBuild.Build.Batch
