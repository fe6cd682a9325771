import SheetBuild.Proofs.Build.Outcomes
import SheetBuild.Proofs.Build.Sharing
import SheetBuild.Proofs.Build.Watching
import SheetBuild.Proofs.Compile.Places
set_option autoImplicit false

/-!
# Where a failure is said to be

A unit that fails shows a diagnostic that an engine reported for a unit with the same key: for itself,
for another entry of its batch, or for one of an earlier batch whose entry was kept in memory or read
from disk (`shows_of_mem_outcomes`).  On all these ways the line, the column and the file stay what was
reported, where the name of the entry itself stands for the unit that shows the failure.  Only the
name as it is found in the report can be another one than the engine gave: it ends at its first blank.
-/

namespace SheetBuild

open SheetBuild.Text (Loose)

/-- A failure that is ascribed to a unit stays where it is, but for a file that it does not have. -/
theorem Entry.of_diagnostic?_ascribe {d d' : Diagnostic} {sourceMap : Option Loose}
    {dependencies : List Loose} {own : String}
    (h : ((⟨.failed d, sourceMap, dependencies⟩ : Entry).ascribe own).diagnostic? = some d') :
    d'.line = d.line ∧ d'.column = d.column ∧ d'.sourceFile = some (d.sourceFile.getD (.whole own)) := by
  unfold Entry.ascribe at h
  simp only at h
  split at h
  · rename_i hnone
    obtain rfl := Option.some.inj h
    exact ⟨rfl, rfl, by simp [Option.isNone_iff_eq_none.1 hnone]⟩
  · rename_i hsome
    obtain rfl := Option.some.inj h
    have hne : d.sourceFile ≠ none := by simpa using hsome
    obtain ⟨file, hfile⟩ := Option.ne_none_iff_exists'.1 hne
    exact ⟨rfl, rfl, by simp [hfile]⟩

/-! ## Documents that can be read -/

namespace Cache.Store

open SheetBuild.Disk (Place Tree)

variable {s s' : Store} {key : String}

/-- No document of a store is too deep to be read. -/
def Shallow (s : Store) : Prop :=
  ∀ d, s.directory = some d → ∀ key content e,
    s.disk.node? (documentAt d key) = some (.file content) → Content.ofBytes content ≠ .tooDeep e

theorem shallow_of_new {directory : Option Place} {limit : Option Int} {disk : Tree}
    (hblank : ∀ d, directory = some d → Blank disk d)
    (h : Store.new directory limit disk = .ok s) : s.Shallow := by
  obtain ⟨-, hdirectory, hdisk, -⟩ := new_eq_ok h
  intro d hd key content e hfile
  rw [hdirectory] at hd
  rw [hdisk] at hfile
  have hbelow : Place.isBelow (documentAt d key) d.resolve = true :=
    Place.isBelow_iff.2 ⟨shelfName key, [key ++ documentExtension], by simp [documentAt, shelfAt]⟩
  exact absurd hfile (hblank d hd _ hbelow content)

theorem Shallow.congr (h : s.Shallow) (hdirectory : s'.directory = s.directory)
    (hdisk : s'.disk = s.disk) : s'.Shallow := by
  intro d hd key content e hfile
  exact h d (hdirectory ▸ hd) key content e (hdisk ▸ hfile)

theorem Shallow.reopen (h : s.Shallow) (limit : Option Int) : (s.reopen limit).Shallow := by
  unfold Store.reopen
  split
  · rename_i hnew
    obtain ⟨-, hdirectory, hdisk, -⟩ := new_eq_ok hnew
    exact h.congr hdirectory hdisk
  · exact h

/-- Every lookup is answered, and leaves the documents alone. -/
theorem Shallow.lookup (h : s.Shallow) {answer : Except Json.TooDeep (Option Entry)}
    (hlook : s.lookup key = (answer, s')) : s'.Shallow ∧ ∃ found, answer = .ok found := by
  have hspares := lookup_spares s key
  rw [hlook] at hspares
  refine ⟨h.congr hspares.1 hspares.2.1, ?_⟩
  cases answer with
  | ok found => exact ⟨found, rfl⟩
  | error e =>
    obtain ⟨d, content, hd, hfile, hcontent⟩ :=
      file_of_persisted (by simp) (persisted_of_lookup_eq_error hlook).1
    exact absurd hcontent (h d hd key content e hfile)

/-- A document that is written can be read. -/
theorem Shallow.store (h : s.Shallow) (key : String) (e : Entry) : (s.store key e).2.Shallow := by
  have hremember : (s.remember key e).Shallow := h.congr rfl rfl
  unfold Store.store
  split
  · exact h
  · simp only
    split
    · exact hremember
    · rename_i d hd
      have hpersists := (s.remember key e).persists d key e
      generalize (s.remember key e).persist d key e = persisted at hpersists
      have hgrown : ∀ {t : Tree}, (s.remember key e).disk.GrowsTo t →
          ({ s.remember key e with disk := t }).Shallow := by
        intro t hgrows d' hd' other content deep hfile
        exact hremember d' hd' other content deep (hgrows.file_iff.1 hfile)
      cases hpersists with
      | unnamed => exact hremember.congr rfl rfl
      | unnameable _ made => exact hgrown (Tree.growsTo_of_makeDirectories made)
      | unmade _ made => exact (hgrown (Tree.growsTo_of_makeDirectories made)).congr rfl rfl
      | unwritten _ made => exact hgrown (Tree.growsTo_of_makeDirectories made)
      | blocked _ made => exact (hgrown (Tree.growsTo_of_makeDirectories made)).congr rfl rfl
      | written digest made short write =>
        intro d' hd' other content deep hfile
        obtain rfl : d = d' := Option.some.inj (hd.symm.trans hd')
        rw [(Tree.exists_of_write write).2, resolve_documentPlace digest] at hfile
        by_cases hsame : documentAt d other = documentAt d key
        · rw [hsame, Tree.node?_put_self _ _ (by simp [documentAt])] at hfile
          obtain rfl := Disk.Node.file.inj (Option.some.inj hfile)
          simp [ofBytes_contentOf short]
        · rw [Tree.node?_put_of_ne _ _ hsame] at hfile
          exact hgrown (Tree.growsTo_of_makeDirectories made) d hd other content deep hfile

end Cache.Store

/-! ## Engines that report places -/

namespace Compile

/-- An engine words every error that it reports as a complaint, about the entry or about a file that it
was served. -/
def Engine.Complains (engine : Engine) : Prop :=
  ∀ j load message, ((engine j).run load).result = .error (.reported message) →
    ∃ r : Complaint, r.message = message ∧ r.Clear ∧
      (r.name = entryName ∨
        ∃ q ∈ ((engine j).run load).requests, ∃ text, q.answer = some (r.name, text))

/-- A diagnostic points at a complaint: at the line and the column in the file that it names, or in the
unit's own file where it names the entry. -/
def Complaint.PointsAt (r : Complaint) (own : String) (d : Diagnostic) : Prop :=
  d.line = some r.line ∧ d.column = some r.column ∧
    d.sourceFile = some (if r.name = entryName then own else r.name)

/-- What a diagnostic shows of a complaint that was made when an entry was compiled. -/
structure Complaint.Shows (r : Complaint) (entry own : String) (d : Diagnostic) : Prop where
  /-- the place, with the name up to its first blank -/
  place : r.word ≠ [] → d.line = some r.line ∧ d.column = some r.column ∧
    d.sourceFile = some (if String.ofList r.word = entryName ∨ String.ofList r.word = entry then own
      else String.ofList r.word)
  /-- the right place exactly where the name has no blank, unless the engine was served the entry -/
  pointsAt_iff : r.name = entryName ∨ r.name ≠ entry ∧ r.name ≠ own →
    (r.PointsAt own d ↔ ∀ c ∈ r.name.toList, Text.isBlank c = false)

namespace Complaint

variable {r : Complaint} {entry own : String} {d : Diagnostic} {refusal : Rejection}

/-- A diagnostic shows the complaint that it comes of, where the unit's own file stands for the entry. -/
theorem shows_of_report (hclear : r.Clear) (hname : r.name ≠ "")
    (hreport : Fault.ofReport r.message entry = .rejected refusal) (hline : d.line = refusal.line)
    (hcolumn : d.column = refusal.column)
    (hfile : d.sourceFile =
      (if refusal.sourceFile = some entry then some own else refusal.sourceFile).map .whole) :
    r.Shows entry own d := by
  have hplace : r.word ≠ [] → d.line = some r.line ∧ d.column = some r.column ∧
      d.sourceFile = some (if String.ofList r.word = entryName ∨ String.ofList r.word = entry then own
        else String.ofList r.word) := by
    intro hword
    obtain rfl := Fault.rejected.inj ((ofReport_message hclear hword entry).symm.trans hreport)
    refine ⟨hline, hcolumn, hfile.trans ?_⟩
    by_cases hentry : String.ofList r.word = entryName
    · simp [hentry]
    · by_cases hself : String.ofList r.word = entry
      · simp [hself]
      · simp [hentry, hself]
  refine ⟨hplace, fun hother => ⟨?_, ?_⟩⟩
  · rintro ⟨-, -, hpoints⟩ c hc
    by_cases hentry : r.name = entryName
    · have hplain : entryName.toList.any Text.isBlank = false := by decide
      rw [List.any_eq_false] at hplain
      simpa using hplain c (hentry ▸ hc)
    · obtain ⟨hself, hown⟩ := hother.resolve_left hentry
      rw [if_neg hentry, hfile] at hpoints
      split at hpoints
      · exact absurd (Loose.whole.inj (Option.some.inj hpoints)).symm hown
      · rename_i hrefused
        rcases sourceFile_of_ofReport hreport with hsource | ⟨file, hsource, hplain⟩
        · exact absurd hsource hrefused
        · rw [hsource] at hpoints
          exact hplain c (Loose.whole.inj (Option.some.inj hpoints) ▸ hc)
  · intro hplain
    have hword : r.word = r.name.toList := by
      have hrun : ∀ c ∈ r.name.toList, (!Text.isBlank c) = true := by simpa using hplain
      have hspan : (r.name.toList ++ []).takeWhile (!Text.isBlank ·) = r.name.toList :=
        (span_append hrun (by simp)).1
      rwa [List.append_nil] at hspan
    have hne : r.word ≠ [] := by
      rw [hword]
      exact fun hnil => hname (String.toList_eq_nil_iff.1 hnil)
    obtain ⟨hl, hc, hf⟩ := hplace hne
    refine ⟨hl, hc, hf.trans ?_⟩
    rw [hword, String.ofList_toList]
    by_cases hentry : r.name = entryName
    · simp [hentry]
    · simp [hentry, (hother.resolve_left hentry).1]

end Complaint

end Compile

namespace Build

open SheetBuild.Cache (Store)
open SheetBuild.Cache.Store (Only Shallow)
open SheetBuild.Compile (Complaint Engine Fault Rejection importer job)

/-! ## Units of a turn -/

namespace Turn

/-- An engine complains when it compiles a file in a turn. -/
def Complains (t : Turn) (f : SourceFile) (r : Complaint) : Prop :=
  ∃ engine : Engine, ∃ root, t.compiler = engine.compiler root ∧
    ((engine (job root f t.batch.options)).run (importer t.batch.load f.path)).result
      = .error (.reported r.message)

/-- A complaint whose name does not begin with a blank is a refusal. -/
theorem Complains.session_eq {t : Turn} {f : SourceFile} {r : Complaint} (h : t.Complains f r)
    (hclear : r.Clear) (hword : r.word ≠ []) :
    (t.batch.session t.compiler f).result
      = .error (.rejected ⟨String.ofList (Text.trim r.message.toList),
          some (if String.ofList r.word = Compile.entryName then f.path else String.ofList r.word),
          some r.line, some r.column⟩) := by
  obtain ⟨engine, root, hcompiler, hreported⟩ := h
  rw [Batch.session, hcompiler, Compile.run_compiler, hreported]
  exact congrArg Except.error (Compile.ofReport_message hclear hword f.path)

/-- What is compiled for a unit in a turn comes to an entry. -/
structure Makes (t : Turn) (p : Batch.Pending) (e : Entry) : Prop where
  proper : t.batch.Proper p
  outcome : t.batch.entryOf p (t.batch.session t.compiler p.file).result = .ok e

/-- A failure that is made in a turn whose compiler is an engine comes of a complaint. -/
theorem Makes.exists_complaint {t : Turn} {engine : Engine} {root : Option String}
    (hcompiler : t.compiler = engine.compiler root) (hengine : engine.Complains) {p : Batch.Pending}
    {e : Entry} (h : t.Makes p e) {own : String} {d : Diagnostic}
    (hd : (e.ascribe own).diagnostic? = some d) :
    ∃ r : Complaint, r.Clear ∧ t.Complains p.file r ∧ r.Shows p.file.path own d := by
  have houtcome := h.outcome
  unfold Batch.entryOf at houtcome
  split at houtcome
  · obtain rfl := Except.ok.inj houtcome
    exact absurd hd (by simp [Entry.ascribe, Entry.diagnostic?])
  · rename_i refusal hrefused
    rw [Batch.session, hcompiler] at hrefused
    obtain ⟨message, hreported, hreport⟩ := Engine.exists_report_of_rejected hrefused
    rw [Compile.Session.run_renameImporters] at hreported
    obtain ⟨r, rfl, hclear, hname⟩ := hengine _ _ _ hreported
    have hne : r.name ≠ "" := by
      rcases hname with hentry | ⟨q, hq, text, hanswer⟩
      · rw [hentry]
        decide
      · rw [Compile.Session.answer_eq_of_mem_requests hq] at hanswer
        intro hempty
        have hserved := Batch.importerPath_of_load hanswer "a"
        rw [hempty] at hserved
        exact absurd hserved (by decide)
    refine ⟨r, hclear, ⟨engine, root, hcompiler, hreported⟩, ?_⟩
    obtain rfl := Except.ok.inj houtcome
    obtain ⟨hline, hcolumn, hfile⟩ := Entry.of_diagnostic?_ascribe hd
    by_cases hself : refusal.sourceFile = some p.file.path
    · simp only [if_pos hself] at hline hcolumn hfile
      refine Complaint.shows_of_report hclear hne hreport hline hcolumn ?_
      rw [if_pos hself]
      exact hfile
    · simp only [if_neg hself] at hline hcolumn hfile
      refine Complaint.shows_of_report hclear hne hreport hline hcolumn ?_
      rw [if_neg hself, hfile]
      rcases Compile.sourceFile_of_ofReport hreport with hsource | ⟨file, hsource, -⟩
      · exact absurd hsource hself
      · simp [Rejection.diagnostic, hsource]
  · exact absurd houtcome (by simp)
  · exact absurd houtcome (by simp)
  · exact absurd houtcome (by simp)

/-- How a unit of a turn came to what it is: it broke down and was not refused, or could not be stored
in a directory that no file can have, or it has an entry that was made for a unit with the same key in
one of some turns, and for the unit itself where it says so. -/
structure Accounts (t : Turn) (ts : List Turn) (directory : Option Disk.Place) (u : UnitResult) :
    Prop where
  crashed : u.crashed = true → (∃ d, directory = some d ∧ d.all Disk.Place.isNameable = false) ∨
    ∃ f ∈ t.batch.entries, f.path = u.path ∧
      ∀ r, (t.batch.session t.compiler f).result ≠ .error (.rejected r)
  served : ∀ key, u.origin.key? = some key → u.crashed = false → u.origin ≠ .cancelled key →
    ∃ t' ∈ ts, ∃ p e, t'.Makes p e ∧ p.key = key ∧ u.entry = e.ascribe u.path ∧
      (u.origin = .compiled key → t' = t ∧ p.file.path = u.path)

/-- A store that holds nothing but what was made in some turns, and can be read. -/
structure Keeps (ts : List Turn) (directory : Option Disk.Place) (s : Store) : Prop where
  home : s.directory = directory
  shallow : s.Shallow
  only : Only (fun key e => ∃ t ∈ ts, ∃ p, t.Makes p e ∧ p.key = key) s

variable {t : Turn} {ts : List Turn} {directory : Option Disk.Place}

theorem Keeps.reopen {s : Store} (h : Keeps ts directory s) (limit : Option Int) :
    Keeps ts directory (s.reopen limit) :=
  ⟨(Store.directory_reopen s limit).trans h.home, h.shallow.reopen limit, h.only.reopen limit⟩

theorem Keeps.lookup {s s' : Store} (h : Keeps ts directory s) {key : String}
    {found : Except Json.TooDeep (Option Entry)} (look : s.lookup key = (found, s')) :
    Keeps ts directory s' := by
  refine ⟨?_, (h.shallow.lookup look).1, (h.only.lookup look).1⟩
  have hdirectory := (Store.lookup_spares s key).1
  rw [look] at hdirectory
  exact hdirectory.trans h.home

theorem accounts_of_decides {task : Task} {s s' : Store} {d : Batch.Decision}
    (hs : Keeps ts directory s) (h : t.batch.Decides s task d s') :
    Keeps ts directory s' ∧ ∀ u, d = .decided u → t.Accounts ts directory u := by
  cases h with
  | unkeyed =>
    refine ⟨hs, ?_⟩
    rintro u ⟨⟩
    exact ⟨fun h => absurd h (by simp [UnitResult.crashed]), fun key h => absurd h (by simp)⟩
  | found closure look =>
    refine ⟨hs.lookup look, ?_⟩
    rintro u ⟨⟩
    refine ⟨fun h => absurd h (by simp [UnitResult.crashed]), ?_⟩
    intro key hkey _ _
    obtain rfl := Option.some.inj hkey
    obtain ⟨t', ht', p, hp, hsame⟩ := (hs.only.lookup look).2 _ rfl
    exact ⟨t', ht', p, _, hp, hsame, rfl, fun h => absurd h (by simp)⟩
  | missing closure look =>
    refine ⟨hs.lookup look, ?_⟩
    rintro u ⟨⟩

theorem accounts_of_compiles (ht : t ∈ ts) (hshort : t.compiler.RefusesShort) {p : Batch.Pending}
    (hp : t.batch.Proper p) {s s' : Batch.Progress} {u : UnitResult} {made : List Call}
    (hs : Keeps ts directory s.store) (h : t.batch.Compiles t.compiler p s u made s') :
    Keeps ts directory s'.store ∧ t.Accounts ts directory u := by
  have hhome := h.directory.trans hs.home
  cases h with
  | calledOff =>
    refine ⟨hs, fun h => absurd h (by simp [UnitResult.crashed, UnitResult.ofCancelled]), ?_⟩
    intro key hkey _ hcancelled
    obtain rfl := Option.some.inj hkey
    exact absurd rfl hcancelled
  | found look =>
    refine ⟨hs.lookup look, fun h => absurd h (by simp [UnitResult.crashed]), ?_⟩
    intro key hkey _ _
    obtain rfl := Option.some.inj hkey
    obtain ⟨t', ht', p', hp', hsame⟩ := (hs.only.lookup look).2 _ rfl
    exact ⟨t', ht', p', _, hp', hsame, rfl, fun h => absurd h (by simp)⟩
  | tooDeep look =>
    obtain ⟨found, hfound⟩ := (hs.shallow.lookup look).2
    exact absurd hfound (by simp)
  | crashed look outcome =>
    refine ⟨hs.lookup look, ?_, ?_⟩
    · intro _
      refine .inr ⟨p.file, hp.entry, rfl, fun r hr => ?_⟩
      rw [hr] at outcome
      exact absurd outcome (by simp [Batch.entryOf])
    · intro key _ hcrashed
      exact absurd hcrashed (by simp)
  | @unstored e store _ failure look outcome kept =>
    have hmakes : t.Makes p _ := ⟨hp, outcome⟩
    have hlooked := hs.lookup look
    have hshallow := hlooked.shallow.store p.key e
    have honly := hlooked.only.store (Batch.isApart_of_entryOf outcome) ⟨t, ht, p, hmakes, rfl⟩
    rw [kept] at hshallow honly
    refine ⟨⟨hhome, hshallow.congr rfl rfl, honly.claim p.key⟩, ?_, ?_⟩
    · -- the entry can be written, since the compiler refuses at places with short numbers
      intro _
      obtain ⟨-, -, d, hd, ⟨-, hname⟩ | ⟨-, hlong, -⟩⟩ :=
        Store.store_eq_some_iff.1 (congrArg Prod.fst kept)
      · exact .inl ⟨d, hlooked.home.symm.trans hd, hname⟩
      · exact absurd (Batch.isShort_of_entryOf hshort outcome) hlong
    · intro key _ hcrashed
      exact absurd hcrashed (by simp)
  | @compiled e store _ look outcome kept =>
    have hmakes : t.Makes p _ := ⟨hp, outcome⟩
    have hlooked := hs.lookup look
    have hshallow := hlooked.shallow.store p.key e
    have honly := hlooked.only.store (Batch.isApart_of_entryOf outcome) ⟨t, ht, p, hmakes, rfl⟩
    rw [kept] at hshallow honly
    refine ⟨⟨hhome, hshallow, honly⟩, fun h => absurd h (by simp [UnitResult.crashed]), ?_⟩
    intro key hkey _ _
    obtain rfl := Option.some.inj hkey
    exact ⟨t, ht, p, _, hmakes, rfl, rfl, fun _ => ⟨rfl, rfl⟩⟩

/-- A turn adds to a store what is made in it. -/
theorem accounts_of_run (ht : t ∈ ts) (hshort : t.compiler.RefusesShort) {s : Store}
    (hs : Keeps ts directory s) :
    Keeps ts directory (leftBy s (t.run s)) ∧ ∀ report, t.run s = .ok report →
      ∀ u ∈ report.result.results, t.Accounts ts directory u := by
  have hexecute := t.batch.execute_invariant t.compiler
    (fun s key found s' (hs : Keeps ts directory s) look => hs.lookup look)
    (fun task _ s d s' hs hd => accounts_of_decides hs hd)
    (fun p hp s u made s' hs h => accounts_of_compiles ht hshort hp hs h) hs
  obtain ⟨hs', hreport⟩ := Turn.invariant hs hexecute
  exact ⟨hs', fun report h => (hreport report h).2⟩

end Turn

/-! ## Histories -/

/-- What is shown of a unit that has a key, fails and was not called off.  If it broke down, its engine
did not complain, or gave a name that begins with a blank; or its entry could not be stored, since no
file can have the name of the directory.  Otherwise an engine complained when it compiled a unit with the
same key, and the unit itself where it was compiled, and the diagnostic shows the complaint. -/
structure Blames (t : Turn) (ts : List Turn) (directory : Option Disk.Place) (u : UnitResult)
    (key : String) (d : Diagnostic) : Prop where
  crashed : u.crashed = true → (∃ d, directory = some d ∧ d.all Disk.Place.isNameable = false) ∨
    ∃ f ∈ t.batch.entries, f.path = u.path ∧
      ∀ r : Complaint, r.Clear → t.Complains f r → r.word = []
  shown : u.crashed = false → ∃ t' ∈ ts, ∃ p, t'.batch.Proper p ∧ p.key = key ∧
    (u.origin = .compiled key → t' = t ∧ p.file.path = u.path) ∧
    ∃ r : Complaint, r.Clear ∧ t'.Complains p.file r ∧ r.Shows p.file.path u.path d

/-- Where batches compile with engines that word their errors as complaints, over one store that held
no documents when it was opened, every failure is shown as it was complained of. -/
theorem blames_of_mem_outcomes {directory : Option Disk.Place} {limit : Option Int}
    {disk : Disk.Tree} {s : Store} (hnew : Store.new directory limit disk = .ok s)
    (hblank : ∀ d, directory = some d → Cache.Blank disk d) {events : List Event}
    (hengines : ∀ t ∈ turns events, ∃ engine : Engine, ∃ root,
      t.compiler = engine.compiler root ∧ engine.Complains) :
    ∀ o ∈ outcomes s events, ∀ report, o.2 = .ok report → ∀ u ∈ report.result.results,
      ∀ key d, u.origin.key? = some key → u.origin ≠ .cancelled key →
        u.entry.diagnostic? = some d → Blames o.1 (turns events) directory u key d := by
  have hstep : ∀ t ∈ turns events, ∀ s, Turn.Keeps (turns events) directory s →
      Turn.Keeps (turns events) directory (leftBy s (t.run s)) ∧ ∀ report, t.run s = .ok report →
        ∀ u ∈ report.result.results, ∀ key d, u.origin.key? = some key →
          u.origin ≠ .cancelled key → u.entry.diagnostic? = some d →
            Blames t (turns events) directory u key d := by
    intro t ht s hs
    have hshort : t.compiler.RefusesShort := by
      obtain ⟨engine, root, hcompiler, -⟩ := hengines t ht
      exact hcompiler ▸ engine.refusesShort root
    obtain ⟨hs', haccounts⟩ := Turn.accounts_of_run ht hshort hs
    refine ⟨hs', ?_⟩
    intro report hreport u hu key d hkey hcancelled hd
    have hu := haccounts report hreport u hu
    refine ⟨fun hcrashed => ?_, fun hcrashed => ?_⟩
    · refine (hu.crashed hcrashed).imp_right ?_
      rintro ⟨f, hf, hpath, hrefused⟩
      refine ⟨f, hf, hpath, fun r hclear hcomplains => ?_⟩
      by_contra hword
      exact absurd (hcomplains.session_eq hclear hword) (hrefused _)
    · obtain ⟨t', ht', p, e, hmakes, hsame, hentry, hself⟩ := hu.served key hkey hcrashed hcancelled
      obtain ⟨engine, root, hcompiler, hengine⟩ := hengines t' ht'
      obtain ⟨r, hclear, hcomplains, hshows⟩ :=
        hmakes.exists_complaint hcompiler hengine (hentry ▸ hd)
      exact ⟨t', ht', p, hmakes.proper, hsame, hself, r, hclear, hcomplains, hshows⟩
  have hstart : Turn.Keeps (turns events) directory s :=
    ⟨(Store.new_eq_ok hnew).2.1, Store.shallow_of_new hblank hnew,
      Store.only_of_new hblank hnew⟩
  exact outcomes_invariant (Q := fun t outcome => ∀ report, outcome = .ok report →
    ∀ u ∈ report.result.results, ∀ key d, u.origin.key? = some key → u.origin ≠ .cancelled key →
      u.entry.diagnostic? = some d → Blames t (turns events) directory u key d)
    hstep (fun s limit hs => hs.reopen limit) hstart

/-! ## A failure in a file with a blank in its name -/

/-- An error in the second line of a file. -/
def inSecondLine (name : String) : Complaint := ⟨"no".toList, 8, 2, 5, name, ">> x".toList⟩

/-- An engine that asks for one import, and reports an error in the file that it is served. -/
def picky : Engine := fun _ =>
  .ask "m n" Compile.entryName fun
    | none => .finish (.ok "")
    | some (path, _) => .finish (.error (.reported (inSecondLine path).message))

theorem complains_picky : picky.Complains := by
  intro j load message h
  cases hload : load "m n" Compile.entryName with
  | none => simp [picky, Compile.Session.run, hload] at h
  | some served =>
    obtain ⟨path, text⟩ := served
    simp only [picky, Compile.Session.run, hload, Except.error.injEq,
      Compile.EngineFault.reported.injEq] at h
    refine ⟨inSecondLine path, h, ?_, .inr ⟨⟨"m n", Compile.entryName, some (path, text)⟩, ?_⟩⟩
    · have hwords : Compile.place? "no".toList = none := by decide
      have hexcerpt : Compile.place? ">> x".toList = none := by decide
      have hline : Number.Integer.IsShort 2 := by
        unfold Number.Integer.IsShort
        decide
      have hcolumn : Number.Integer.IsShort 5 := by
        unfold Number.Integer.IsShort
        decide
      exact ⟨hwords, hexcerpt, hline, hcolumn⟩
    · exact ⟨by simp [picky, Compile.Session.run, hload], text, rfl⟩

/-- A sheet beside a partial with a blank in its name. -/
def beside (path : String) : Turn where
  context := {}
  compiler := picky.compiler none
  files := .ofList [.labelled path "@import 'm n';" "1", .labelled "_m n.scss" "" "2"]
  target := none

/-- Two sheets of one text, one after the other. -/
def failures : List Event := [.batch (beside "a.scss"), .batch (beside "b.scss")]

/-- The second sheet fails like the first, at the first word of the name. -/
theorem blames_failures : ∃ o ∈ outcomes {} failures, ∃ report, o.2 = .ok report ∧
    ∃ u ∈ report.result.results, u.fromCache = true ∧ ∃ key d, u.entry.diagnostic? = some d ∧
      (d.sourceFile, d.line, d.column) = (some (.whole "_m"), some 2, some 5) ∧
      Blames o.1 (turns failures) none u key d := by
  have hshown : (outcomes {} failures).any (fun o =>
      match o.2 with
      | .ok report => report.result.results.any fun u => u.fromCache &&
          decide (u.entry.diagnostic?.map (fun d => (d.sourceFile, d.line, d.column))
            = some (some (.whole "_m"), some 2, some 5))
      | .error _ => false) = true := by
    decide +kernel
  have hnew : Store.new none none {} = .ok {} := rfl
  have hblank : ∀ d, (none : Option Disk.Place) = some d → Cache.Blank {} d := by
    rintro d ⟨⟩
  have hengines : ∀ t ∈ turns failures, ∃ engine : Engine, ∃ root,
      t.compiler = engine.compiler root ∧ engine.Complains := by
    intro t ht
    have hturn : t = beside "a.scss" ∨ t = beside "b.scss" := by
      simpa [turns, failures, Event.turn?] using ht
    rcases hturn with rfl | rfl <;> exact ⟨picky, none, rfl, complains_picky⟩
  obtain ⟨o, ho, hany⟩ := List.any_eq_true.1 hshown
  have hblames := blames_of_mem_outcomes hnew hblank hengines o ho
  cases hreport : o.2 with
  | error e =>
    rw [hreport] at hany
    exact absurd hany (by simp)
  | ok report =>
    rw [hreport] at hany
    obtain ⟨u, hu, hmatch⟩ := List.any_eq_true.1 hany
    rw [Bool.and_eq_true, decide_eq_true_eq] at hmatch
    obtain ⟨hfrom, hshows⟩ := hmatch
    obtain ⟨d, hd, hplace⟩ := Option.map_eq_some_iff.1 hshows
    obtain ⟨key, horigin⟩ := UnitResult.fromCache_iff.1 hfrom
    refine ⟨o, ho, report, hreport, u, hu, hfrom, key, d, hd, hplace, ?_⟩
    exact hblames report hreport u hu key d (by simp [horigin]) (by simp [horigin]) hd

end Build

end SheetBuild
