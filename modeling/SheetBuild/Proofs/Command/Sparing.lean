import SheetBuild.Command.Run
import SheetBuild.Proofs.Build.Emission
import SheetBuild.Proofs.Build.Watching
import SheetBuild.Proofs.Cache.Replies
import SheetBuild.Proofs.Project.Configuration
import SheetBuild.Proofs.Yaml.Plain
set_option autoImplicit false

/-!
# What commands leave alone

A build writes files under names with three endings, and removes nothing (`spares_build`).  Cleaning
removes the cache directory as it is configured, with everything in it, and nothing else
(`spares_clean`).  So whatever is built and cleaned in a row, a stylesheet stays as it is unless it
lies in a directory that was cleaned as the cache (`stylesheets_last`).
-/

namespace SheetBuild

open SheetBuild.Disk (Node Place Tree)

/-! ## Names -/

/-- What the names of the files end in that a build writes. -/
def writtenEndings : List (List Char) := ".json".toList :: Build.Artifact.endings

/-- A place with the name of a file that a build writes. -/
def IsWritten (p : Place) : Prop :=
  ∃ q : Place, ∃ n, ∃ ending ∈ writtenEndings, p = q ++ [String.ofList (n ++ ending)]

/-- A place with the name of a stylesheet. -/
def IsStylesheet (p : Place) : Prop :=
  ∃ q : Place, ∃ n, ∃ e : Path.Extension, p = q ++ [String.ofList (n ++ e.text)]

/-- No build writes under the name of a stylesheet. -/
theorem IsStylesheet.not_isWritten {p : Place} (h : IsStylesheet p) : ¬ IsWritten p := by
  rintro ⟨q', n', ending, hending, rfl⟩
  obtain ⟨q, n, e, heq⟩ := h
  have hname := List.singleton_inj.1 (List.append_inj' heq rfl).2
  have hback := congrArg (fun cs => cs.reverse.take 4) (String.ofList_injective hname)
  have hdiffer : ∀ ending ∈ writtenEndings, ending.reverse.take 4 ≠ e.text.reverse.take 4 := by
    cases e <;> decide
  have hlong : ∀ ending ∈ writtenEndings, 4 ≤ ending.reverse.length := by decide
  have hlong' : 4 ≤ e.text.reverse.length := by cases e <;> decide
  simp only [List.reverse_append] at hback
  rw [List.take_append_of_le_length (hlong ending hending), List.take_append_of_le_length hlong']
    at hback
  exact hdiffer ending hending hback

/-- The place that is meant by a name that is written. -/
theorem IsWritten.resolve {p : Place} (h : IsWritten p) : IsWritten p.resolve := by
  obtain ⟨q, n, ending, hending, rfl⟩ := h
  have hup : String.ofList (n ++ ending) ≠ Place.up := by
    intro hup
    have hlength := congrArg (fun s => s.toList.length) hup
    have hlong : ∀ ending ∈ writtenEndings, 2 < ending.length := by decide
    have hending := hlong ending hending
    have htwo : Place.up.toList.length = 2 := by decide
    simp only [String.toList_ofList, List.length_append, htwo] at hlength
    omega
  exact ⟨q.resolve, n, ending, hending, Place.resolve_snoc hup⟩

/-! ## Trees -/

/-- What a tree keeps of an earlier one, away from the places that are lost: whatever is there stays,
and a file under a name that is not written keeps its content. -/
structure Disk.Tree.Spares (lost : Place → Prop) (t t' : Tree) : Prop where
  there : ∀ p, ¬ lost p → (t.node? p).isSome = true → (t'.node? p).isSome = true
  file : ∀ p, ¬ lost p → ¬ IsWritten p → ∀ content,
    t.node? p = some (.file content) → t'.node? p = some (.file content)

namespace Disk.Tree.Spares

variable {lost lost' : Place → Prop} {t t' t'' : Tree}

theorem refl (lost : Place → Prop) (t : Tree) : t.Spares lost t := ⟨fun _ _ h => h, fun _ _ _ _ h => h⟩

theorem trans (h : t.Spares lost t') (h' : t'.Spares lost t'') : t.Spares lost t'' where
  there := fun p hp hthere => h'.there p hp (h.there p hp hthere)
  file := fun p hp hname content hfile => h'.file p hp hname content (h.file p hp hname content hfile)

theorem mono (h : t.Spares lost t') (hlost : ∀ p, lost p → lost' p) : t.Spares lost' t' where
  there := fun p hp => h.there p fun hl => hp (hlost p hl)
  file := fun p hp => h.file p fun hl => hp (hlost p hl)

theorem of_growsTo (h : t.GrowsTo t') : t.Spares lost t' where
  there := by
    intro p _ hthere
    rcases h p with heq | ⟨hnone, -⟩
    · rwa [heq]
    · rw [hnone] at hthere
      exact absurd hthere (by simp)
  file := fun p _ _ content hfile => h.file_iff.2 hfile

/-- Writing under a name that is written changes no other file. -/
theorem of_write {p : Place} {content : Bytes} (hp : IsWritten p) (h : t.write p content = .ok t') :
    t.Spares lost t' := by
  obtain ⟨-, rfl⟩ := exists_of_write h
  constructor
  · intro q _ hthere
    by_cases hq : q = p.resolve
    · have hne : p.resolve ≠ [] := by
        obtain ⟨q', n, ending, -, heq⟩ := hp.resolve
        simp [heq]
      rw [hq, node?_put_self t _ hne]
      rfl
    · rwa [node?_put_of_ne t _ hq]
  · intro q _ hname content' hfile
    have hq : q ≠ p.resolve := by
      rintro rfl
      exact hname hp.resolve
    rwa [node?_put_of_ne t _ hq]

end Disk.Tree.Spares

namespace Disk.Tree

/-- What a condition does not take away stays as it is. -/
theorem node?_drop_of_spared (t : Tree) {gone : Place → Bool} {q : Place} (h : gone q = false) :
    (t.drop gone).node? q = t.node? q := by
  by_cases hq : q = []
  · rw [hq, node?_nil, node?_nil]
  · simp [node?_drop t gone hq, h]

/-- Removing a directory changes nothing outside of it. -/
theorem node?_removeDirectory (t : Tree) {p q : Place} (h : ¬ p.resolve <+: q) :
    (t.removeDirectory p).1.node? q = t.node? q := by
  have hbelow : q.isBelow p.resolve = false := by
    rw [Bool.eq_false_iff]
    intro hbelow
    obtain ⟨n, ns, rfl⟩ := Place.isBelow_iff.1 hbelow
    exact h (List.prefix_append _ _)
  have hne : decide (q = p.resolve) = false := by
    refine decide_eq_false ?_
    rintro rfl
    exact h List.prefix_rfl
  unfold removeDirectory
  split
  · rfl
  · rename_i r hl
    obtain rfl := locate_eq_ok hl
    split
    · rfl
    · rfl
    · simp only
      split
      · exact node?_drop_of_spared t hbelow
      · rename_i r' hl'
        obtain rfl := locate_eq_ok hl'
        exact (node?_drop_of_spared _ hne).trans (node?_drop_of_spared t hbelow)

end Disk.Tree

/-! ## Stores -/

namespace Cache.Store

open SheetBuild.Build (Batch UnitResult)

variable {lost : Place → Prop} {s s' : Store} {key : String}

theorem spares_persist (s : Store) (d : Place) (key : String) (e : Entry) :
    s.disk.Spares lost (s.persist d key e).2.disk := by
  obtain ⟨t, hgrows, hdisk | ⟨-, hwrite⟩⟩ := disk_persist_cases s d key e
  · rw [hdisk]
    exact .of_growsTo hgrows
  · have hwritten : IsWritten (documentPlace d key) := by
      refine ⟨shelf d key, key.toList, ".json".toList, List.mem_cons_self, ?_⟩
      rw [String.ofList_append, String.ofList_toList]
      rfl
    exact .trans (.of_growsTo hgrows) (.of_write hwritten hwrite)

/-- Storing an entry writes its document at most. -/
theorem spares_store (s : Store) (key : String) (e : Entry) :
    s.disk.Spares lost (s.store key e).2.disk := by
  unfold Store.store
  split
  · exact .refl lost _
  · simp only
    split
    · exact .refl lost _
    · exact spares_persist (s.remember key e) _ key e

theorem disk_of_lookup {answer : Except Json.TooDeep (Option Entry)}
    (h : s.lookup key = (answer, s')) : s'.disk = s.disk := by
  have hdisk := (lookup_spares s key).2.1
  rwa [h] at hdisk

end Cache.Store

/-! ## Batches -/

namespace Build

open SheetBuild.Cache (Store)
open SheetBuild.Compile (Compiler)

variable {lost : Place → Prop}

/-- A batch writes documents at most. -/
theorem Batch.spares_execute (b : Batch) (compiler : Compiler) (s : Store) :
    s.disk.Spares lost (b.execute compiler s).2.disk := by
  have hkept := b.execute_invariant compiler
    (I := fun s' => s.disk.Spares lost s'.disk) (Q := fun _ => True) ?_ ?_ ?_ (.refl lost _)
  · exact hkept.1
  · rintro s₁ key found s' hspares look
    rwa [Store.disk_of_lookup look]
  · rintro t - s₁ d s' hspares hd
    refine ⟨?_, fun _ _ => trivial⟩
    cases hd with
    | unkeyed => exact hspares
    | found _ look => rwa [Store.disk_of_lookup look]
    | missing _ look => rwa [Store.disk_of_lookup look]
  · rintro p - s₁ u made s' hspares h
    refine ⟨?_, trivial⟩
    have hstored : ∀ {store store' : Store} {e : Entry} {failure : Option Cache.StoreError},
        s₁.store.lookup p.key = (.ok none, store) → store.store p.key e = (failure, store') →
          s.disk.Spares lost store'.disk := by
      intro store store' e failure look kept
      have hdocument : store.disk.Spares lost (store.store p.key e).2.disk :=
        Store.spares_store store p.key e
      rw [kept, Store.disk_of_lookup look] at hdocument
      exact hspares.trans hdocument
    cases h with
    | calledOff => exact hspares
    | found look => rwa [Store.disk_of_lookup look]
    | tooDeep look => rwa [Store.disk_of_lookup look]
    | crashed look => rwa [Store.disk_of_lookup look]
    | unstored look _ kept =>
      have hspared := hstored look kept
      exact hspared
    | compiled look _ kept => exact hstored look kept

/-- A batch leaves its store behind in a report, or where it broke off. -/
theorem spares_run (c : Context) (compiler : Compiler) (s : Store) (files : List SourceFile)
    (target : Option String) :
    match run c compiler s files target with
    | .error (.stuck _ s' _) => s.disk.Spares lost s'.disk
    | .error _ => True
    | .ok report => s.disk.Spares lost report.store.disk := by
  unfold run
  cases c.closed with
  | true => trivial
  | false =>
    simp only [Bool.false_eq_true, if_false]
    cases FileSet.ofDistinct files with
    | error p => trivial
    | ok all =>
      simp only
      have hspares : s.disk.Spares lost
          ((⟨c.options, target, all.visible target⟩ : Batch).execute compiler s).2.disk :=
        Batch.spares_execute _ compiler s
      revert hspares
      generalize Batch.execute _ compiler s = executed
      obtain ⟨answer, s'⟩ := executed
      intro hspares
      cases answer with
      | ok p => exact hspares
      | error e =>
        cases e with
        | tooDeep e => trivial
        | stuck e => exact hspares

/-! ## Artifacts -/

namespace Artifact

/-- A stylesheet has the name of its entry with another ending. -/
theorem exists_join_outputPath (base : Place) (cs : List Char) : ∃ q : Place, ∃ n,
    Place.join base (String.ofList (Path.outputPath cs))
      = q ++ [String.ofList (n ++ ".css".toList)] := by
  obtain ⟨directory, name, -, happend⟩ := Path.exists_segments_append (Path.stem cs)
  have hkept : name ++ ".css".toList ≠ [] ∧ name ++ ".css".toList ≠ Path.here := by
    have hlong : 1 < (name ++ ".css".toList).length := by
      have hending : 1 < ".css".toList.length := by decide
      rw [List.length_append]
      omega
    constructor <;> intro heq
    · rw [heq] at hlong
      exact absurd hlong (by decide)
    · rw [heq] at hlong
      exact absurd hlong (by decide)
  have hnames : Place.names (Path.outputPath cs)
      = (directory.filter fun s => s ≠ [] ∧ s ≠ Path.here).map String.ofList
        ++ [String.ofList (name ++ ".css".toList)] := by
    have hsegments : Path.segments (Path.outputPath cs) = directory ++ [name ++ ".css".toList] :=
      happend ".css".toList (by decide)
    rw [Place.names, hsegments, List.filter_append, List.map_append]
    revert hkept
    generalize name ++ ".css".toList = last
    intro hkept
    simp [hkept]
  rw [Place.join, String.toList_ofList, hnames]
  split
  · exact ⟨_, name, rfl⟩
  · exact ⟨_, name, (List.append_assoc ..).symm⟩

/-- The files of an entry's artifact have names that are written. -/
theorem isWritten_of_mem_files {u : UnitResult} {a : Artifact} (h : ofUnit u = .ok a) (out : Place) :
    ∀ f ∈ a.files out, IsWritten f.1 := by
  unfold ofUnit at h
  split at h
  · exact absurd h (by simp)
  · split at h
    · obtain rfl := Except.ok.inj h
      simp [files]
    · obtain rfl := Except.ok.inj h
      obtain ⟨q, n, hjoin⟩ := exists_join_outputPath out u.path.toList
      intro f hf
      simp only [files] at hf
      rcases List.mem_cons.1 hf with rfl | hf
      · exact ⟨q, n, ".css".toList, by decide, hjoin⟩
      · split at hf
        · exact absurd hf List.not_mem_nil
        · obtain rfl := List.mem_singleton.1 hf
          refine ⟨q, n, ".css.map".toList, by decide, ?_⟩
          rw [hjoin, Place.mapLast_concat, Place.mapName_ofList]

theorem spares_writeFiles {fs : List (Place × Text.Loose)} (h : ∀ f ∈ fs, IsWritten f.1) (t : Tree) :
    t.Spares lost (writeFiles t fs).1 := by
  induction fs generalizing t with
  | nil => exact .refl lost t
  | cons f fs ih =>
    obtain ⟨hf, hfs⟩ := List.forall_mem_cons.1 h
    rw [writeFiles]
    split
    · split
      · exact .refl lost t
      · rename_i hwrite
        exact .trans (.of_write hf hwrite) (ih hfs _)
    · split
      · exact .refl lost t
      · rename_i hwrite
        exact .of_write hf hwrite

theorem spares_write {a : Artifact} {out : Place} (h : ∀ f ∈ a.files out, IsWritten f.1) (t : Tree) :
    t.Spares lost (a.write out t).1 := by
  unfold write
  cases hfiles : a.files out with
  | nil => exact .refl lost t
  | cons f fs =>
    simp only
    cases hmade : t.makeDirectories f.1.dropLast with
    | mk t' failure =>
      have hgrown : t.Spares lost t' := .of_growsTo (Tree.growsTo_of_makeDirectories hmade)
      cases failure with
      | some _ => exact hgrown
      | none => exact hgrown.trans (spares_writeFiles (hfiles ▸ h) t')

theorem spares_writeAll {as : List Artifact} {out : Place}
    (h : ∀ a ∈ as, ∀ f ∈ a.files out, IsWritten f.1) (t : Tree) :
    t.Spares lost (writeAll out t as).1 := by
  induction as generalizing t with
  | nil => exact .refl lost t
  | cons a as ih =>
    obtain ⟨ha, has⟩ := List.forall_mem_cons.1 h
    have hwritten : t.Spares lost (a.write out t).1 := spares_write ha t
    rw [writeAll]
    split
    · rename_i heq
      rw [heq] at hwritten
      exact hwritten
    · rename_i heq
      rw [heq] at hwritten
      exact hwritten.trans (ih has _)

end Artifact

end Build

/-! ## Commands -/

namespace Command

open SheetBuild.Build (Artifact)
open SheetBuild.Cache (Store)
open SheetBuild.Compile (Engine)
open SheetBuild.Project (Config)

/-- A build removes nothing, and changes no file but those under names that it writes. -/
theorem spares_build (engine : Engine) (t : Tree) (root : Place) (c : Config) (target : Option String)
    (json : Bool) (lost : Place → Prop) : t.Spares lost (build engine t root c target json).2 := by
  unfold build
  split
  · exact .refl lost t
  · split
    · split
      · exact .refl lost t
      · rename_i files _ _ _ options _
        simp only
        let s : Store := { directory := some (cachePlace root c), disk := t }
        have hspares : match Build.run { options } (engine.compiler (some root.text)) s files target with
            | .error (.stuck _ s' _) => t.Spares lost s'.disk
            | .error _ => True
            | .ok report => t.Spares lost report.store.disk :=
          Build.spares_run _ _ s files target
        split
        · exact .refl lost t
        · split
          · exact .refl lost t
          · rename_i hrun
            rw [hrun] at hspares
            exact hspares
          · exact .refl lost t
          · rename_i report hrun
            rw [hrun] at hspares
            simp only at hspares
            split
            · exact hspares
            · rename_i artifacts hartifacts
              have hwritten : ∀ a ∈ artifacts, ∀ f ∈ a.files (outputPlace root c), IsWritten f.1 := by
                intro a ha
                obtain ⟨u, -, hu⟩ := Artifact.exists_unit_of_mem hartifacts ha
                exact Artifact.isWritten_of_mem_files hu _
              have hall : t.Spares lost
                  (Artifact.writeAll (outputPlace root c) report.store.disk artifacts).1 :=
                hspares.trans (Artifact.spares_writeAll hwritten _)
              cases json with
              | true => exact hspares
              | false =>
                simp only [Bool.false_eq_true, if_false]
                split
                · rename_i heq
                  rwa [heq] at hall
                · rename_i heq
                  rwa [heq] at hall
    · exact .refl lost t

/-- Cleaning changes nothing outside of the cache directory. -/
theorem spares_clean (t : Tree) {root : Place} {c : Config} {p : Place}
    (h : ¬ (cachePlace root c).resolve <+: p) : (clean t root c).2.node? p = t.node? p := by
  have hremoved : (t.removeDirectory (cachePlace root c)).1.node? p = t.node? p :=
    Tree.node?_removeDirectory t h
  unfold clean
  simp only
  split
  · rename_i hthere
    split
    · simp only [Store.clear, hthere, if_true]
      split
      · rename_i heq
        obtain ⟨-, rfl⟩ := Prod.mk.inj heq
        exact hremoved
      · rename_i heq
        obtain ⟨-, rfl⟩ := Prod.mk.inj heq
        exact hremoved
    · rfl
  · rfl

/-- A request to clean, where a place is the cache directory or lies in it. -/
def Site.Clears (s : Site) (r : Request) (p : Place) : Prop :=
  r.verb = .clean ∧
    ∃ root c, s.project r.directory = .ok (root, c) ∧ (cachePlace root c).resolve <+: p

instance (s : Site) (r : Request) (p : Place) : Decidable (s.Clears r p) :=
  decidable_of_iff
    (r.verb = .clean ∧ ∃ found ∈ (s.project r.directory).toOption,
      (cachePlace found.1 found.2).resolve <+: p) <| by
    unfold Site.Clears
    cases s.project r.directory with
    | error e => simp [Except.toOption]
    | ok found =>
      obtain ⟨root, c⟩ := found
      simp [Except.toOption, and_assoc]

/-- The site after a series of commands. -/
def Site.after (s : Site) : List (Engine × Request) → Site
  | [] => s
  | (engine, r) :: rest => (run engine s r).2.after rest

/-- A place that a command of a series clears. -/
def Site.ClearsIn (s : Site) : List (Engine × Request) → Place → Prop
  | [], _ => False
  | (engine, r) :: rest, p => s.Clears r p ∨ (run engine s r).2.ClearsIn rest p

instance Site.decidableClearsIn (s : Site) (p : Place) :
    (steps : List (Engine × Request)) → Decidable (s.ClearsIn steps p)
  | [] => .isFalse id
  | (engine, r) :: rest =>
    have := (run engine s r).2.decidableClearsIn p rest
    inferInstanceAs (Decidable (s.Clears r p ∨ (run engine s r).2.ClearsIn rest p))

/-- A clean changes nothing but what it clears. -/
theorem node?_run_clean {engine : Engine} {s : Site} {r : Request} (hclean : r.verb = .clean)
    {p : Place} (h : ¬ s.Clears r p) : (run engine s r).2.tree.node? p = s.tree.node? p := by
  unfold run
  cases hproject : s.project r.directory with
  | error ending => rfl
  | ok found =>
    obtain ⟨root, c⟩ := found
    simp only [hclean]
    exact spares_clean s.tree fun hbelow => h ⟨hclean, root, c, hproject, hbelow⟩

/-- A command changes no file under a name that is not written, and removes nothing, but for what it
clears. -/
theorem spares_run (engine : Engine) (s : Site) (r : Request) :
    s.tree.Spares (s.Clears r) (run engine s r).2.tree := by
  cases hverb : r.verb with
  | clean =>
    constructor
    · intro p hp hthere
      rwa [node?_run_clean hverb hp]
    · intro p hp _ content hfile
      rwa [node?_run_clean hverb hp]
  | build =>
    unfold run
    cases s.project r.directory with
    | error ending => exact .refl _ _
    | ok found =>
      obtain ⟨root, c⟩ := found
      simp only [hverb]
      exact spares_build engine s.tree root c r.target r.json _

/-- What one command spares, a series of them spares. -/
theorem spares_after (s : Site) (steps : List (Engine × Request)) :
    s.tree.Spares (s.ClearsIn steps) (s.after steps).tree := by
  induction steps generalizing s with
  | nil => exact .refl _ _
  | cons step rest ih =>
    obtain ⟨engine, r⟩ := step
    have hfirst : s.tree.Spares (s.ClearsIn ((engine, r) :: rest)) (run engine s r).2.tree :=
      (spares_run engine s r).mono fun p hp => .inl hp
    have hrest : (run engine s r).2.tree.Spares (s.ClearsIn ((engine, r) :: rest))
        ((run engine s r).2.after rest).tree := (ih _).mono fun p hp => .inr hp
    exact hfirst.trans hrest

/-- Commands in a row change and remove no stylesheet, and remove nothing at all, but for what lies in
a directory that is cleaned as the cache; and a clean changes nothing else. -/
theorem stylesheets_last (s : Site) (steps : List (Engine × Request)) :
    (∀ p content, IsStylesheet p → ¬ s.ClearsIn steps p → s.tree.node? p = some (.file content) →
      (s.after steps).tree.node? p = some (.file content)) ∧
    (∀ p, ¬ s.ClearsIn steps p → (s.tree.node? p).isSome = true →
      ((s.after steps).tree.node? p).isSome = true) ∧
    (∀ engine r, r.verb = .clean → ∀ p, ¬ s.Clears r p →
      (run engine s r).2.tree.node? p = s.tree.node? p) := by
  have hspares : s.tree.Spares (s.ClearsIn steps) (s.after steps).tree := spares_after s steps
  refine ⟨?_, hspares.there, fun engine r hclean p hp => node?_run_clean hclean hp⟩
  intro p content hname hp hfile
  exact hspares.file p hp hname.not_isWritten content hfile

/-- A project with a sheet. -/
def sheetProject : Site where
  tree := ⟨[(["p"], .directory), (["p", "a.scss"], .file [])]⟩
  here := some []

/-- A build, a clean, and a build that shows its artifacts. -/
def buildCleanBuild : List (Engine × Request) :=
  [{ verb := .build, directory := "p" }, { verb := .clean, directory := "p" },
    { verb := .build, directory := "p", json := true }].map fun r => (fun _ => .finish (.ok ""), r)

/-- The sheet of a project lasts through builds and cleans. -/
theorem sheet_lasts :
    (sheetProject.after buildCleanBuild).tree.node? ["p", "a.scss"] = some (.file []) :=
  (stylesheets_last sheetProject buildCleanBuild).1 ["p", "a.scss"] []
    ⟨["p"], "a".toList, .scss, by decide⟩ (by decide +kernel) (by decide)

/-- The configuration that puts the cache into a directory of the project. -/
def cacheInSources : List Char := "cache-directory: src".toList

/-- A project with this configuration and a sheet in that directory. -/
def sheetInCache : Site where
  tree := ⟨[(["p"], .directory), (["p", ".stylebatch.yaml"], .file (Text.Utf8.encode cacheInSources)),
    (["p", "src"], .directory), (["p", "src", "a.scss"], .file [])]⟩
  here := some []

theorem project_sheetInCache :
    sheetInCache.project "p" = .ok (["p"], { cacheDirectory := "src" }) := by
  have hnodes : Yaml.readNodes cacheInSources = .ok (some 0,
      Yaml.fieldNodes (Text.Loose.points "cache-directory")
        [⟨.text, .scalar (Text.Loose.points "src")⟩]) := by
    decide +kernel
  have hmakes : Project.Makes (Text.Utf8.encode cacheInSources) { cacheDirectory := "src" } :=
    Project.makes_encode (by decide) (Yaml.ofText_textField hnodes) (by decide)
  have hin : Config.IsIn sheetInCache.tree ["p"] (Text.Utf8.encode cacheInSources) :=
    ⟨["p", ".stylebatch.yaml"], by decide, by decide⟩
  have hplace : sheetInCache.place "p" = .ok ["p"] := by decide
  have hroot : sheetInCache.tree.isDirectory ["p"] = true := by decide
  simp only [Site.project, hplace, hroot, Config.find_of_isIn hin hmakes, if_true]

/-- A clean of this project. -/
def cleanOnce : List (Engine × Request) :=
  [(fun _ => .finish (.ok ""), { verb := .clean, directory := "p" })]

/-- A sheet in the cache directory is lost in a clean, though no build has put it there. -/
theorem sheet_lost_in_clean :
    ¬ ∀ (s : Site) (steps : List (Engine × Request)) (p : Place) (content : Bytes),
      IsStylesheet p → s.tree.node? p = some (.file content) →
        (s.after steps).tree.node? p = some (.file content) := by
  intro hlasts
  have hsheet : IsStylesheet ["p", "src", "a.scss"] := ⟨["p", "src"], "a".toList, .scss, by decide⟩
  have hthere : sheetInCache.tree.node? ["p", "src", "a.scss"] = some (.file []) := by decide
  have hgone : (clean sheetInCache.tree ["p"] { cacheDirectory := "src" }).2.node?
      ["p", "src", "a.scss"] = none := by
    decide
  have hkept := hlasts sheetInCache cleanOnce _ _ hsheet hthere
  simp only [cleanOnce, Site.after, run, project_sheetInCache, Site.withTree, hgone] at hkept
  exact absurd hkept (by simp)

end Command

end SheetBuild
