import SheetBuild.Proofs.Compile.Requests
set_option autoImplicit false

/-!
# Engines that read everything

`Reads` describes an engine that follows imports: it asks for the references of a text in order, and
whenever it is served a text it goes through the references of that text before it goes on.  There is
a derivation exactly where this comes to an end, and it lists the requests in the order in which they
are made.
-/

namespace SheetBuild.Compile

open SheetBuild.Import (Reference scan)

/-- The requests for references of the text `name`, and for those of every text that is served. -/
inductive Reads (load : Loader) : String → List Reference → List Request → Prop where
  | done (name : String) : Reads load name [] []
  | unserved {name : String} {r : Reference} {rs : List Reference} {qs : List Request}
    (answer : load r.target name = none) (rest : Reads load name rs qs) :
    Reads load name (r :: rs) (⟨r.target, name, none⟩ :: qs)
  | served {name path text : String} {r : Reference} {rs references : List Reference}
    {inner qs : List Request} (answer : load r.target name = some (path, text))
    (scanned : scan (Path.isIndented path.toList) text.toList = .ok references)
    (inside : Reads load path references inner) (rest : Reads load name rs qs) :
    Reads load name (r :: rs) (⟨r.target, name, some (path, text)⟩ :: (inner ++ qs))

/-- The paths that are served, in order. -/
def servedPaths (qs : List Request) : List String := (qs.filterMap (·.answer)).map (·.1)

@[simp] theorem servedPaths_append (qs qs' : List Request) :
    servedPaths (qs ++ qs') = servedPaths qs ++ servedPaths qs' := by
  simp [servedPaths]

@[simp] theorem servedPaths_cons_none (reference name : String) (qs : List Request) :
    servedPaths (⟨reference, name, none⟩ :: qs) = servedPaths qs := rfl

@[simp] theorem servedPaths_cons_some (reference name path text : String) (qs : List Request) :
    servedPaths (⟨reference, name, some (path, text)⟩ :: qs) = path :: servedPaths qs := rfl

@[simp] theorem servedPaths_map_forEntry (entry : String) (qs : List Request) :
    servedPaths (qs.map (.forEntry entry)) = servedPaths qs := by
  rw [servedPaths, servedPaths, List.filterMap_map]
  rfl

namespace Reads

variable {load : Loader} {name : String} {rs : List Reference} {qs qs' : List Request}

/-- Reading goes one way. -/
theorem unique (h : Reads load name rs qs) (h' : Reads load name rs qs') : qs = qs' := by
  induction h generalizing qs' with
  | done name =>
    cases h'
    rfl
  | unserved answer _ ih =>
    cases h' with
    | unserved _ rest' => rw [ih rest']
    | served answer' _ _ _ =>
      rw [answer] at answer'
      exact absurd answer' (by simp)
  | served answer scanned _ _ ihInside ihRest =>
    cases h' with
    | unserved answer' _ =>
      rw [answer] at answer'
      exact absurd answer' (by simp)
    | served answer' scanned' inside' rest' =>
      rw [answer] at answer'
      obtain ⟨rfl, rfl⟩ := Prod.mk.inj (Option.some.inj answer')
      rw [scanned] at scanned'
      obtain rfl := Except.ok.inj scanned'
      rw [ihInside inside', ihRest rest']

/-- Every answer is the loader's. -/
theorem answer_eq (h : Reads load name rs qs) {q : Request} (hq : q ∈ qs) :
    q.answer = load q.reference q.importer := by
  induction h with
  | done name => exact absurd hq List.not_mem_nil
  | unserved answer _ ih =>
    rcases List.mem_cons.1 hq with rfl | hq
    · exact answer.symm
    · exact ih hq
  | served answer _ _ _ ihInside ihRest =>
    rcases List.mem_cons.1 hq with rfl | hq
    · exact answer.symm
    · exact (List.mem_append.1 hq).elim ihInside ihRest

end Reads

/-- On a job and with a loader, the engine makes exactly the requests of reading everything, wherever
that comes to an end. -/
def Engine.ReadsThrough (engine : Engine) (j : Job) (load : Loader) : Prop :=
  ∀ references qs, scan j.indented j.text = .ok references → Reads load entryName references qs →
    ((engine j).run load).requests = qs

/-- The loader meets the requests of reading everything, with the entry under its path. -/
theorem requests_of_readsThrough {engine : Engine} {root : Option String} {f : SourceFile}
    {o : CompileOptions} {load : Loader} {references : List Reference} {qs : List Request}
    (hengine : engine.ReadsThrough (job root f o) (importer load f.path))
    (hscan : scan f.isIndented f.text = .ok references)
    (hreads : Reads (importer load f.path) entryName references qs) :
    ((engine.compiler root f o).run load).requests = qs.map (.forEntry f.path) := by
  rw [run_compiler]
  exact congrArg (List.map (Request.forEntry f.path)) (hengine references qs hscan hreads)

end SheetBuild.Compile
