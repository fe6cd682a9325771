import Mathlib.Data.Nat.Digits.Defs
import SheetBuild.Compile.Compiler
import SheetBuild.Proofs.Cache.Document
set_option autoImplicit false

/-!
# The places of refusals

A refusal is persisted with its place, so it can be read again only where the numbers of the place
have no more digits than are read.  The refusals that come of an engine's reports have such places
(`Engine.refusesShort`), since a report with a longer number is no refusal.
-/

namespace SheetBuild

/-- A run of digits writes a number below the power of ten that has one digit more. -/
theorem Text.digitsValue_lt (ds : List Char) : digitsValue ds < 10 ^ ds.length := by
  have hfold : ∀ (ds : List Char) (n : Nat),
      ds.foldl (fun n c => 10 * n + (digit? c).getD 0) n < (n + 1) * 10 ^ ds.length := by
    intro ds
    induction ds with
    | nil => simp
    | cons c ds ih =>
      intro n
      have hdigit : (digit? c).getD 0 < 10 := by
        cases hc : digit? c with
        | none => simp
        | some v => simpa using lt_ten_of_digit? hc
      rw [List.foldl_cons, List.length_cons]
      calc ds.foldl (fun n c => 10 * n + (digit? c).getD 0) (10 * n + (digit? c).getD 0)
          < (10 * n + (digit? c).getD 0 + 1) * 10 ^ ds.length := ih _
        _ ≤ ((n + 1) * 10) * 10 ^ ds.length := Nat.mul_le_mul_right _ (by omega)
        _ = (n + 1) * 10 ^ (ds.length + 1) := by rw [Nat.mul_assoc, Nat.pow_succ']
  simpa [digitsValue] using hfold ds 0

namespace Compile

/-- The places that a compiler gives with its refusals have no more digits than are read. -/
def Compiler.RefusesShort (compiler : Compiler) : Prop :=
  ∀ f o load r, ((compiler f o).run load).result = .error (.rejected r) → r.diagnostic.IsShort

theorem number_cases (ds : List Char) :
    (∃ i, number ds = .ok i ∧ Number.Integer.IsShort i) ∨
      ∃ n, number ds = .error (.longNumber n) := by
  unfold number
  by_cases hlength : Number.Integer.maxDigits < ds.length
  · exact .inr ⟨_, by rw [if_pos hlength]⟩
  · refine .inl ⟨_, by rw [if_neg hlength], ?_⟩
    have hlt : Text.digitsValue ds < 10 ^ Number.Integer.maxDigits :=
      Nat.lt_of_lt_of_le (Text.digitsValue_lt ds)
        (Nat.pow_le_pow_right (by omega) (Nat.le_of_not_lt hlength))
    have hpos : 0 < Number.Integer.maxDigits := by decide
    exact Nat.toDigits_length 10 (Text.digitsValue ds) Number.Integer.maxDigits hpos hlt

/-- A report is a refusal at a place that can be read again, or its place has a number that is too
long. -/
theorem Rejection.ofReport_cases (message entry : String) :
    (∃ r, ofReport message entry = .ok r ∧ r.diagnostic.IsShort) ∨
      ∃ n, ofReport message entry = .error (.longNumber n) := by
  unfold ofReport
  simp only
  split
  · exact .inl ⟨_, rfl, fun _ hl => absurd hl (by simp [diagnostic]),
      fun _ hc => absurd hc (by simp [diagnostic])⟩
  · rename_i p _
    obtain ⟨line, hline, hshort⟩ | ⟨n, hline⟩ := number_cases p.line
    · obtain ⟨column, hcolumn, hshort'⟩ | ⟨n, hcolumn⟩ := number_cases p.column
      · rw [hline, hcolumn]
        exact .inl ⟨_, rfl, fun _ hl => Option.some.inj hl ▸ hshort,
          fun _ hc => Option.some.inj hc ▸ hshort'⟩
      · rw [hline, hcolumn]
        exact .inr ⟨n, rfl⟩
    · rw [hline]
      exact .inr ⟨n, rfl⟩

/-- A refusal by a compiler that an engine makes comes of a report of the engine. -/
theorem Engine.exists_report_of_rejected {engine : Engine} {root : Option String} {f : SourceFile}
    {o : CompileOptions} {load : Loader} {r : Rejection}
    (h : ((engine.compiler root f o).run load).result = .error (.rejected r)) :
    ∃ message, (((engine (job root f o)).renameImporters (importerPath f.path)).run load).result
        = .error (.reported message) ∧ Fault.ofReport message f.path = .rejected r := by
  rw [compiler, Session.result_run_map] at h
  generalize (Session.run load _).result = result at h
  cases result with
  | error fault =>
    cases fault with
    | reported message => exact ⟨message, rfl, Except.error.inj h⟩
    | crashed reason => exact absurd h (by simp [ofEngine])
  | ok css =>
    unfold ofEngine at h
    simp only at h
    split at h
    · split at h
      · exact absurd h (by simp)
      · exact absurd h (by simp)
    · exact absurd h (by simp)

/-- A compiler that an engine makes refuses at places that can be read again. -/
theorem Engine.refusesShort (engine : Engine) (root : Option String) :
    (engine.compiler root).RefusesShort := by
  intro f o load r h
  obtain ⟨message, -, hreport⟩ := exists_report_of_rejected h
  unfold Fault.ofReport at hreport
  obtain ⟨r', hr', hshort⟩ | ⟨n, hlong⟩ := Rejection.ofReport_cases message f.path
  · rw [hr'] at hreport
    exact Fault.rejected.inj hreport ▸ hshort
  · rw [hlong] at hreport
    exact absurd hreport (by simp)

end Compile

end SheetBuild
