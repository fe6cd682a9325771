import SheetBuild.Build.Batch
import SheetBuild.Proofs.Cache.Balance
import SheetBuild.Proofs.Compile.Embedding
import SheetBuild.Proofs.Compile.Requests
set_option autoImplicit false

/-!
# Stylesheets with and without source maps

An engine that is asked for source maps may do no more than put one behind each stylesheet, on a line
of its own (`OnlyAppendsMaps`).  The stylesheet that is stored for a unit then does not depend on
whether maps are asked for, as long as it ends in exactly one line feed.  This rests on what splitting
does to a stylesheet with an embedded map and to any other one (`split_and_stored`).
-/

namespace SheetBuild.Compile

open SheetBuild.Text (dropEndWhile isBlank)
open EmbeddedMap (comment payloadOf)

/-- With a map, an engine comes to the stylesheet that it comes to without, and behind it stand a line
feed and the comment of the map; or else it fails alike. -/
inductive AppendsMap : Except EngineFault String → Except EngineFault String → Prop where
  | fault (e : EngineFault) : AppendsMap (.error e) (.error e)
  | map (css : String) (withCharset : Bool) {m : List Char} (hm : m ≠ []) :
      AppendsMap (.ok css)
        (.ok (String.ofList (css.toList ++ ['\n'] ++ comment withCharset (payloadOf m))))

/-- Asked for maps, the engine appends them and does nothing else differently. -/
def Engine.OnlyAppendsMaps (engine : Engine) : Prop :=
  ∀ (j : Job) (load : Loader), j.embedMap = false →
    AppendsMap ((engine j).run load).result ((engine { j with embedMap := true }).run load).result

/-- The stylesheet ends in one line feed, before which no blank stands. -/
def EndsInOneLineFeed (css : String) : Prop :=
  ∃ front c, css.toList = front ++ [c, '\n'] ∧ isBlank c = false

/-- Without its blanks at the end and with one line feed, such a stylesheet is what it was. -/
theorem EndsInOneLineFeed.tidied {css : String} (h : EndsInOneLineFeed css) :
    dropEndWhile isBlank (css.toList ++ ['\n']) ++ ['\n'] = css.toList := by
  obtain ⟨front, c, hcss, hc⟩ := h
  have hfeed : isBlank '\n' = true := by decide
  have hblank : ∀ d ∈ ['\n', '\n'], isBlank d = true := by simp [hfeed]
  have hsplit : css.toList ++ ['\n'] = front ++ [c] ++ ['\n', '\n'] := by rw [hcss]; simp
  rw [hsplit, Text.dropEndWhile_append hblank, Text.dropEndWhile_concat hc, hcss]
  simp

/-- The output of a job without maps is the stylesheet; with maps it is the same stylesheet, which the
map has been taken off. -/
theorem AppendsMap.output {result result' : Except EngineFault String}
    (h : AppendsMap result result') (f : SourceFile) {o : CompileOptions} (ho : o.sourceMaps = false)
    {out : Output} (hout : ofEngine f o result = .ok out) (hends : EndsInOneLineFeed out.css) :
    ∃ m, ofEngine f { o with sourceMaps := true } result' = .ok ⟨out.css, some m⟩ := by
  cases h with
  | fault e => cases e <;> simp [ofEngine] at hout
  | @map css withCharset m hm =>
    simp only [ofEngine, ho, Bool.false_eq_true, if_false, Except.ok.injEq] at hout
    subst hout
    have hsplit := EmbeddedMap.split_map hm (css.toList ++ ['\n']) withCharset (List.forall_mem_nil _)
    rw [List.append_nil, hends.tidied] at hsplit
    refine ⟨String.ofList m, ?_⟩
    simp only [ofEngine, if_true, String.toList_ofList, hsplit, String.ofList_toList, Option.map_some]

end SheetBuild.Compile

namespace SheetBuild.Build.Batch

open SheetBuild.Cache (Store)
open SheetBuild.Compile (Compiler Engine EndsInOneLineFeed importer job ofEngine run_compiler)

variable {b : Batch} {compiler : Compiler} {s : Progress} {p : Pending} {e : Entry}

/-- The batch with source maps. -/
def withMaps (b : Batch) : Batch := { b with options := { b.options with sourceMaps := true } }

/-- A unit is compiled: the batch has not been called off, and the store has nothing under its key. -/
structure CompilesAfresh (s : Progress) (p : Pending) : Prop where
  running : s.cancelled = false
  missing : s.store.Computes p.key

/-- The entry that is stored for a unit once it has been compiled. -/
def stored? (b : Batch) (compiler : Compiler) (s : Progress) (p : Pending) : Option Entry :=
  (b.compile compiler s p).2.store.memory.find? p.key

/-- The entry that is stored for a unit is the one that its compilation comes to. -/
theorem stored?_eq_some_iff (h : CompilesAfresh s p) :
    b.stored? compiler s p = some e ↔
      b.entryOf p ((compiler p.file b.options).run b.load).result = .ok e := by
  have hforgotten := (Store.lookup_eq_none_iff.1 h.missing.missing).1
  have hmemory := Store.memory_of_lookup_eq_none h.missing.missing
  simp only [stored?, compile, h.running, Bool.false_eq_true, if_false, h.missing.getOrCompute]
  cases b.entryOf p ((compiler p.file b.options).run b.load).result with
  | error reason =>
    have hnone : (s.store.lookup p.key).2.memory.find? p.key = none := by rw [hmemory, hforgotten]
    simp [Progress.called, hnone]
  | ok e' =>
    -- the entry is in memory whether or not its document can be written
    have hkept := Store.find?_store_self (s.store.lookup p.key).2 p.key e'
    simp only [Store.store_claim]
    revert hkept
    generalize (s.store.lookup p.key).2.store p.key e' = stored
    obtain ⟨failure, s'⟩ := stored
    intro (hkept : s'.memory.find? p.key = some e')
    cases failure with
    | none => simp [Progress.called, hkept]
    | some failure => simp [Progress.called, Store.claim, hkept]

/-- An entry with a stylesheet is made of an output with that stylesheet. -/
theorem output_of_entryOf {result : Except Compile.Fault Compile.Output}
    (h : b.entryOf p result = .ok e) {css : String} (hcss : e.css? = some css) :
    ∃ out, result = .ok out ∧ out.css = css := by
  cases result with
  | ok out =>
    obtain rfl := Except.ok.inj h
    exact ⟨out, rfl, Text.Loose.whole.inj (Option.some.inj hcss)⟩
  | error fault =>
    cases fault with
    | rejected r =>
      obtain rfl := Except.ok.inj h
      simp [Entry.css?] at hcss
    | longNumber | badMap | crashed => simp [entryOf] at h

/-- A unit whose stylesheet ends in one line feed is stored with the same stylesheet when maps are
asked for. -/
theorem stored?_withMaps {engine : Engine} (hengine : engine.OnlyAppendsMaps) (root : Option String)
    {s' : Progress} {p' : Pending} (hplain : b.options.sourceMaps = false) (hfile : p'.file = p.file)
    (h : CompilesAfresh s p) (h' : CompilesAfresh s' p') {css : String}
    (hends : EndsInOneLineFeed css)
    (hstored : (b.stored? (engine.compiler root) s p).bind (·.css?) = some css) :
    (b.withMaps.stored? (engine.compiler root) s' p').bind (·.css?) = some css := by
  obtain ⟨e, he, hcss⟩ := Option.bind_eq_some_iff.1 hstored
  have hentry := (stored?_eq_some_iff h).1 he
  rw [run_compiler] at hentry
  obtain ⟨out, hout, rfl⟩ := output_of_entryOf hentry hcss
  have happends := hengine (job root p.file b.options) (importer b.load p.file.path) hplain
  obtain ⟨m, hm⟩ := happends.output p.file hplain hout hends
  have hmapped : ((engine.compiler root p'.file b.withMaps.options).run b.withMaps.load).result
      = .ok ⟨out.css, some m⟩ := by
    rw [run_compiler, hfile]
    exact hm
  have hstored' : b.withMaps.stored? (engine.compiler root) s' p'
      = some ⟨.css out.css, some (.whole m), p'.closure.map .whole⟩ := by
    rw [stored?_eq_some_iff h', hmapped]
    rfl
  rw [hstored']
  rfl

end SheetBuild.Build.Batch

namespace SheetBuild.Build

open SheetBuild.Compile (Engine EndsInOneLineFeed)
open SheetBuild.Compile.EmbeddedMap (EndsInComment comment payloadOf split)
open SheetBuild.Text (dropEndWhile isBlank)

/-- Splitting undoes embedding.  The comment of a map, with or without a character set and with any
blanks behind it, is taken off whatever stylesheet it stands behind, and gives the map; a stylesheet
that ends in no comment is left alone.  Hence what an engine that only appends maps makes of a unit is
stored with the same stylesheet with and without maps, where that ends in one line feed. -/
theorem split_and_stored :
    (∀ (front : List Char) (withCharset : Bool) (m blanks : List Char), m ≠ [] →
      (∀ c ∈ blanks, isBlank c = true) →
      split (front ++ comment withCharset (payloadOf m) ++ blanks)
        = .ok (dropEndWhile isBlank front ++ ['\n'], some m)) ∧
    (∀ css, ¬ EndsInComment css → split css = .ok (css, none)) ∧
    (∀ engine : Engine, engine.OnlyAppendsMaps → ∀ (root : Option String) (b : Batch)
      (s s' : Batch.Progress) (p p' : Batch.Pending), b.options.sourceMaps = false →
      p'.file = p.file → Batch.CompilesAfresh s p → Batch.CompilesAfresh s' p' →
      ∀ css, EndsInOneLineFeed css →
        (b.stored? (engine.compiler root) s p).bind (·.css?) = some css →
        (b.withMaps.stored? (engine.compiler root) s' p').bind (·.css?) = some css) := by
  refine ⟨fun front withCharset m blanks hm hblanks => ?_, fun css h => ?_, ?_⟩
  · exact Compile.EmbeddedMap.split_map hm front withCharset hblanks
  · exact Compile.EmbeddedMap.split_of_not_endsInComment h
  · intro engine hengine root b s s' p p' hplain hfile h h' css hends hstored
    exact Batch.stored?_withMaps hengine root hplain hfile h h' hends hstored

/-! ## A sheet with its map -/

/-- An engine that makes one stylesheet of everything, and appends a map if it is asked to. -/
def mapping : Engine := fun j =>
  .finish (.ok (String.ofList (['a', '\n'] ++ if j.embedMap then ['\n'] ++ comment true (payloadOf ['m'])
    else [])))

/-- A sheet to compile. -/
def mappedSheet : Batch.Pending := ⟨⟨"a.scss", [], "", none, true⟩, "0123456789abcdef", []⟩

theorem onlyAppendsMaps_mapping : mapping.OnlyAppendsMaps := by
  intro j load hplain
  have happends := Compile.AppendsMap.map "a\n" true (m := ['m']) (by simp)
  simpa [mapping, hplain] using happends

/-- The sheet is split off its map, it is left alone without one, and it is stored alike with maps and
without. -/
theorem mappedSheet_stored :
    split (['a', '\n', '\n'] ++ comment true (payloadOf ['m']) ++ []) = .ok (['a', '\n'], some ['m']) ∧
    split ['a', '\n'] = .ok (['a', '\n'], none) ∧
    (Batch.stored? ⟨{}, none, .empty⟩ (mapping.compiler none) ⟨{}, [], false⟩ mappedSheet).bind (·.css?)
      = some "a\n" ∧
    (Batch.stored? (Batch.withMaps ⟨{}, none, .empty⟩) (mapping.compiler none) ⟨{}, [], false⟩
      mappedSheet).bind (·.css?) = some "a\n" := by
  obtain ⟨hsplit, halone, hstored⟩ := split_and_stored
  have hplain : ¬ EndsInComment ['a', '\n'] := by
    rintro ⟨front, withCharset, payload, blanks, hpayload, hblanks, heq⟩
    have hfind := Compile.EmbeddedMap.find?_comment hpayload front withCharset hblanks
    rw [← heq] at hfind
    have hnone : Compile.EmbeddedMap.find? ['a', '\n'] = none := by decide
    simp [hnone] at hfind
  have hcompiles : Batch.CompilesAfresh ⟨{}, [], false⟩ mappedSheet := ⟨rfl, by decide, by decide⟩
  have hfirst : (Batch.stored? ⟨{}, none, .empty⟩ (mapping.compiler none) ⟨{}, [], false⟩
      mappedSheet).bind (·.css?) = some "a\n" := by decide
  have hends : EndsInOneLineFeed "a\n" := ⟨[], 'a', by decide, by decide⟩
  refine ⟨?_, halone _ hplain, hfirst, ?_⟩
  · exact hsplit ['a', '\n', '\n'] true ['m'] [] (by simp) (by simp)
  · exact hstored mapping onlyAppendsMaps_mapping none _ _ _ _ _ rfl rfl hcompiles hcompiles _ hends
      hfirst

end SheetBuild.Build
