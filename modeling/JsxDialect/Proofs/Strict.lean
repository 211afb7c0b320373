import JsxDialect.Command.Report
import Mathlib.Data.List.Basic

/-!
# Warnings as errors

Treating warnings as errors changes which remarks stop a run, and nothing else. Filing a list of
remarks sorts it (`Report.foldl_file`), so the stages of two runs can be compared one by one: a
stage whose remarks are all errors stops both runs or neither (`Report.gates_stage`), and only the
last stage, the compiler itself, has warnings (`Report.gates_stage_finish`). That a report with
errors has no code is kept by every stage of a single run (`Report.coherent_stage`).
-/

namespace JsxDialect

namespace Report

variable {strict : Bool} {shown : Remark → Shown} {r : Report} {remarks : List Remark}

/-! ## Filing -/

/-- The remarks of a severity, with the severities that they count with. -/
def counted (strict : Bool) (severity : Severity) (remarks : List Remark) : List Remark :=
  (remarks.map (promote strict)).filter (·.severity == severity)

/-- The report on remarks alone. -/
def sorted (strict : Bool) (shown : Remark → Shown) (remarks : List Remark) : Report where
  warnings := (counted strict .warning remarks).map shown
  errors := (counted strict .error remarks).map shown
  warningMessages := (counted strict .warning remarks).map (·.message)
  errorMessages := (counted strict .error remarks).map (·.message)

/-- **Filing sorts.** The remarks of each severity are added in their order. -/
theorem foldl_file (strict : Bool) (shown : Remark → Shown) (remarks : List Remark) (r : Report) :
    remarks.foldl (file strict shown) r = { r with
      warnings := r.warnings ++ (sorted strict shown remarks).warnings
      errors := r.errors ++ (sorted strict shown remarks).errors
      warningMessages := r.warningMessages ++ (sorted strict shown remarks).warningMessages
      errorMessages := r.errorMessages ++ (sorted strict shown remarks).errorMessages } := by
  induction remarks generalizing r with
  | nil => simp [sorted, counted]
  | cons remark remarks ih =>
    rw [List.foldl_cons, ih]
    cases hseverity : (promote strict remark).severity with
    | warning => simp [file, sorted, counted, hseverity]
    | error => simp [file, sorted, counted, hseverity]

/-- The first stage with remarks goes on with them, or stops. -/
theorem stage_eq (next : Report → Report) :
    stage strict shown remarks next {} =
      if counted strict .error remarks = [] then next (sorted strict shown remarks)
      else sorted strict shown remarks := by
  have hfiled : remarks.foldl (file strict shown) {} = sorted strict shown remarks := by
    rw [foldl_file]
    rfl
  simp only [stage, hfiled, sorted, List.isEmpty_map, List.isEmpty_iff]

theorem counted_strict_error (remarks : List Remark) :
    counted true .error remarks = remarks.map (promote true) := by
  rw [counted, List.filter_eq_self]
  simp [promote]

theorem counted_strict_warning (remarks : List Remark) : counted true .warning remarks = [] := by
  rw [counted, List.filter_eq_nil_iff]
  simp [promote]

/-- Without errors, all remarks are warnings. -/
theorem counted_warning (h : counted false .error remarks = []) :
    counted false .warning remarks = remarks := by
  have hplain : remarks.map (promote false) = remarks := List.map_id' remarks
  rw [counted, hplain, List.filter_eq_nil_iff] at h
  rw [counted, hplain, List.filter_eq_self]
  intro remark hremark
  cases hseverity : remark.severity with
  | warning => rfl
  | error => exact absurd (beq_iff_eq.mpr hseverity) (h remark hremark)

/-! ## A single run -/

/-- A report without code yet, whose remarks are listed twice: as they are shown and by their
wording. -/
structure Pending (r : Report) : Prop where
  code : r.code = ""
  map : r.map = none
  warnings : r.warnings.length = r.warningMessages.length
  errors : r.errors.length = r.errorMessages.length

/-- A report as it is given out. -/
structure Coherent (r : Report) : Prop where
  text : r.errors ≠ [] → r.text = ""
  warnings : r.warnings.length = r.warningMessages.length
  errors : r.errors.length = r.errorMessages.length

theorem Pending.coherent (h : Pending r) : Coherent r :=
  ⟨fun _ => by rw [Report.text, h.map, h.code], h.warnings, h.errors⟩

/-- One more remark. -/
theorem Pending.file (h : Pending r) (remark : Remark) : Pending (r.file strict shown remark) := by
  rw [Report.file]
  cases (promote strict remark).severity with
  | warning => exact ⟨h.code, h.map, by simp [h.warnings], h.errors⟩
  | error => exact ⟨h.code, h.map, h.warnings, by simp [h.errors]⟩

theorem Pending.foldl (h : Pending r) (remarks : List Remark) :
    Pending (remarks.foldl (Report.file strict shown) r) := by
  induction remarks generalizing r with
  | nil => exact h
  | cons remark remarks ih => exact ih (h.file remark)

theorem Pending.initial : Pending {} :=
  ⟨rfl, rfl, rfl, rfl⟩

/-- **A stage** gives a report out if it has errors, and leaves it to the rest otherwise. -/
theorem coherent_stage {next : Report → Report} (h : Pending r)
    (hnext : ∀ r, Pending r → r.errors = [] → Coherent (next r)) :
    Coherent (stage strict shown remarks next r) := by
  rw [stage]
  split
  case isTrue hempty => exact hnext _ (h.foldl remarks) (List.isEmpty_iff.mp hempty)
  case isFalse => exact (h.foldl remarks).coherent

theorem coherent_finish (h : Pending r) (hempty : r.errors = []) (code : String)
    (map : Option (Option SourceMap)) : Coherent (finish code map r) := by
  match map with
  | none => exact ⟨fun herrors => absurd hempty herrors, h.warnings, h.errors⟩
  | some (some m) => exact ⟨fun herrors => absurd hempty herrors, h.warnings, h.errors⟩
  | some none =>
    exact ⟨fun herrors => absurd hempty herrors, by simp [finish, h.warnings], h.errors⟩

/-! ## Two runs -/

/-- What the report of a plain run says about the one of a strict run. -/
structure Gates (plain strict : Report) : Prop where
  errors : strict.errors ≠ [] ↔ plain.errors ≠ [] ∨ plain.warnings ≠ []
  warnings : strict.warnings = [] ∧ strict.warningMessages = []
  messages : plain.errors = [] → strict.errorMessages = plain.warningMessages
  text : strict.errors = [] → strict.text = plain.text

/-- A strict run stops at the first stage with remarks. -/
theorem stage_strict (hremarks : remarks ≠ []) (next : Report → Report) :
    stage true shown remarks next {} = sorted true shown remarks := by
  rw [stage_eq, if_neg]
  rw [counted_strict_error, List.map_eq_nil_iff]
  exact hremarks

/-- A plain run with the remarks that the strict run stops at. -/
theorem gates_sorted {plain : Report} (hremarks : remarks ≠ [])
    (hplain : plain.errors ≠ [] ∨ plain.warnings ≠ [])
    (hmessages : plain.errors = [] → plain.warningMessages = remarks.map (·.message)) :
    Gates plain (sorted true shown remarks) := by
  have herrors : (sorted true shown remarks).errors ≠ [] := by
    simpa [sorted, counted_strict_error] using hremarks
  refine ⟨⟨fun _ => hplain, fun _ => herrors⟩, ?_, fun hnone => ?_,
    fun hnone => absurd hnone herrors⟩
  · simp [sorted, counted_strict_warning]
  · rw [hmessages hnone]
    simp [sorted, counted_strict_error, promote]

/-- **A stage whose remarks are errors** stops both runs or neither. -/
theorem gates_stage {next next' : Report → Report}
    (hremarks : ∀ remark ∈ remarks, remark.severity = .error) (hnext : Gates (next {}) (next' {})) :
    Gates (stage false shown remarks next {}) (stage true shown remarks next' {}) := by
  cases remarks with
  | nil => exact hnext
  | cons remark remarks =>
    have hcounted : counted false .error (remark :: remarks) ≠ [] := by
      simp [counted, promote, hremarks remark List.mem_cons_self]
    have herrors : (sorted false shown (remark :: remarks)).errors ≠ [] := by
      simpa [sorted] using hcounted
    rw [stage_strict (List.cons_ne_nil _ _), stage_eq, if_neg hcounted]
    exact gates_sorted (List.cons_ne_nil _ _) (.inl herrors) fun hnone => absurd hnone herrors

/-- **The last stage.** If all of its remarks are warnings, the plain run finishes with them and the
strict run stops. -/
theorem gates_stage_finish (code : String) :
    Gates (stage false shown remarks (finish code none) {})
      (stage true shown remarks (finish code none) {}) := by
  by_cases hremarks : remarks = []
  · subst hremarks
    exact ⟨by simp [stage, finish], ⟨rfl, rfl⟩, fun _ => rfl, fun _ => rfl⟩
  · rw [stage_strict hremarks, stage_eq]
    split
    case isTrue hnone =>
      have hwarnings := counted_warning hnone
      refine gates_sorted hremarks (.inr ?_) fun _ => ?_
      · simpa [finish, sorted, hwarnings] using hremarks
      · simp [finish, sorted, hwarnings]
    case isFalse hsome =>
      have herrors : (sorted false shown remarks).errors ≠ [] := by
        simpa [sorted] using hsome
      exact gates_sorted hremarks (.inl herrors) fun hnone => absurd hnone herrors

end Report

namespace Invocation

open Report

variable {i : Invocation} {t : Tools} {o : Options} {source : String}

/-- Every report is given out by a stage or finished. -/
theorem coherent_report {r : Report} (h : i.report t o source = .ok r) : Coherent r := by
  simp only [report] at h
  split at h
  case isTrue => cases h
  case isFalse =>
    obtain rfl := Except.ok.inj h
    refine coherent_stage .initial fun r hr _ => coherent_stage hr fun r hr _ =>
      coherent_stage hr fun r hr hempty => ?_
    exact coherent_finish hr hempty _ _

theorem run_eq (i : Invocation) (t : Tools) (files : Files Id) (source : String) :
    i.run t files source = match i.options files with
      | .error e => .error (.config e)
      | .ok o => i.report t o source := by
  change (match i.options files with
    | .error e => pure (.error (.config e))
    | .ok o => pure (i.report t o source) : Id (Except Fatal Report)) = _
  split <;> rfl

/-- Two reports on the same source: neither, for the same reason, or one that gates the other. -/
theorem gates_report (hmap : i.map = false)
    (hread : ∀ typed text, ∀ remark ∈ (t.read typed text).remarks, remark.severity = .error)
    (hcheck : ∀ m, ∀ remark ∈ t.check m, remark.severity = .error) :
    ({ i with warningsAsErrors := false }.report t o source = .error .stopped
        ∧ { i with warningsAsErrors := true }.report t o source = .error .stopped)
      ∨ ∃ plain strict, { i with warningsAsErrors := false }.report t o source = .ok plain
        ∧ { i with warningsAsErrors := true }.report t o source = .ok strict
        ∧ Gates plain strict := by
  simp only [report, sourceMap, hmap, Bool.false_eq_true, if_false]
  split
  case isTrue => exact .inl ⟨rfl, rfl⟩
  case isFalse =>
    refine .inr ⟨_, _, rfl, rfl, gates_stage (hread _ _) (gates_stage (hcheck _) ?_)⟩
    exact gates_stage_finish _

/-- Two runs: neither gives a report, for the same reason, or one report gates the other. -/
theorem gates_run (files : Files Id) (hmap : i.map = false)
    (hread : ∀ typed text, ∀ remark ∈ (t.read typed text).remarks, remark.severity = .error)
    (hcheck : ∀ m, ∀ remark ∈ t.check m, remark.severity = .error) :
    (∃ e, { i with warningsAsErrors := false }.run t files source = .error e
        ∧ { i with warningsAsErrors := true }.run t files source = .error e)
      ∨ ∃ plain strict, { i with warningsAsErrors := false }.run t files source = .ok plain
        ∧ { i with warningsAsErrors := true }.run t files source = .ok strict
        ∧ Gates plain strict := by
  -- The options do not depend on the flag.
  have hoptions : ∀ strict, { i with warningsAsErrors := strict }.options files = i.options files :=
    fun _ => rfl
  simp only [run_eq, hoptions]
  cases i.options files with
  | error e => exact .inl ⟨.config e, rfl, rfl⟩
  | ok o =>
    rcases gates_report hmap hread hcheck with ⟨hplain, hstrict⟩ | hreports
    · exact .inl ⟨.stopped, hplain, hstrict⟩
    · exact .inr hreports

/-- **Warnings as errors only gate.** For every source, file system and invocation without a source
map, and tools whose remarks are errors, the two runs fail for the same reason or not at all. The
strict one has errors exactly if the plain one has remarks; it has no warnings, its error messages
are the plain warnings if there was no error, and without errors the code is the same. In every run
a report with errors has no code, and every remark is listed both as it is shown and by its
wording. -/
theorem run_warningsAsErrors (i : Invocation) (t : Tools) (files : Files Id) (source : String)
    (hmap : i.map = false)
    (hread : ∀ typed text, ∀ remark ∈ (t.read typed text).remarks, remark.severity = .error)
    (hcheck : ∀ m, ∀ remark ∈ t.check m, remark.severity = .error) :
    (∀ e, { i with warningsAsErrors := true }.run t files source = .error e
        ↔ { i with warningsAsErrors := false }.run t files source = .error e)
      ∧ (∀ plain strict, { i with warningsAsErrors := false }.run t files source = .ok plain →
        { i with warningsAsErrors := true }.run t files source = .ok strict →
        (strict.errors ≠ [] ↔ plain.errors ≠ [] ∨ plain.warnings ≠ [])
          ∧ (strict.warnings = [] ∧ strict.warningMessages = [])
          ∧ (plain.errors = [] → strict.errorMessages = plain.warningMessages)
          ∧ (strict.errors = [] → strict.text = plain.text))
      ∧ ∀ (j : Invocation) r, j.run t files source = .ok r →
        (r.errors ≠ [] → r.text = "") ∧ r.warnings.length = r.warningMessages.length
          ∧ r.errors.length = r.errorMessages.length := by
  refine ⟨fun e => ?_, fun plain strict hplain hstrict => ?_, fun j r hr => ?_⟩
  · rcases gates_run files hmap hread hcheck with ⟨e', hplain, hstrict⟩ | ⟨p, s, hplain, hstrict, -⟩
    · rw [hplain, hstrict]
    · rw [hplain, hstrict]
      exact ⟨nofun, nofun⟩
  · -- Both runs are reports here, so they are the two that `gates_run` compares.
    rcases gates_run files hmap hread hcheck with ⟨e, herror, -⟩ | ⟨p, s, hok, hok', hgates⟩
    · rw [herror] at hplain
      cases hplain
    · obtain rfl := Except.ok.inj (hok.symm.trans hplain)
      obtain rfl := Except.ok.inj (hok'.symm.trans hstrict)
      exact ⟨hgates.errors, hgates.warnings, hgates.messages, hgates.text⟩
  · rw [run_eq] at hr
    split at hr
    · cases hr
    · have hcoherent := coherent_report hr
      exact ⟨hcoherent.text, hcoherent.warnings, hcoherent.errors⟩

/-- A disk without files. -/
def noFiles : Files Id :=
  ⟨fun _ => .error .notFound, fun _ _ => .error .notFound, fun _ => .error .notFound,
    .error .notFound⟩

theorem run_warningsAsErrors_stringRef :
    ({} : Invocation).map = false
      ∧ (∀ typed text, ∀ remark ∈ (Tools.standard.read typed text).remarks,
        remark.severity = .error)
      ∧ (∀ m, ∀ remark ∈ Tools.standard.check m, remark.severity = .error)
      ∧ ∃ strict, { warningsAsErrors := true : Invocation }.run .standard noFiles
          "<div ref=\"name\" />;" = .ok strict
        ∧ strict.errorMessages = [Cause.stringRef.message] ∧ strict.text = "" := by
  have hread : ∀ typed text, ∀ remark ∈ (Tools.standard.read typed text).remarks,
      remark.severity = .error := by
    intro typed text remark hremark
    simp only [Tools.standard] at hremark
    split at hremark <;> cases hremark
  have hcheck : ∀ m, ∀ remark ∈ Tools.standard.check m, remark.severity = .error := nofun
  have hplain : (({} : Invocation).run .standard noFiles "<div ref=\"name\" />;").toOption.map
      (fun r => (r.errors, r.warningMessages)) = some ([], [Cause.stringRef.message]) := by
    decide +kernel
  obtain ⟨hfatal, hgates, hevery⟩ := run_warningsAsErrors {} .standard noFiles
    "<div ref=\"name\" />;" rfl hread hcheck
  cases hp : ({} : Invocation).run .standard noFiles "<div ref=\"name\" />;" with
  | error e =>
    rw [hp] at hplain
    cases hplain
  | ok plain =>
    simp only [hp, Except.toOption, Option.map_some, Option.some.injEq, Prod.mk.injEq] at hplain
    cases hs : { warningsAsErrors := true : Invocation }.run .standard noFiles
        "<div ref=\"name\" />;" with
    | error e =>
      have herror := (hfatal e).mp hs
      rw [hp] at herror
      cases herror
    | ok strict =>
      obtain ⟨-, -, hmessages, -⟩ := hgates plain strict hp hs
      obtain ⟨htext, -, hlength⟩ := hevery _ strict hs
      have hstrict := (hmessages hplain.1).trans hplain.2
      refine ⟨rfl, hread, hcheck, strict, rfl, hstrict, htext fun hnone => ?_⟩
      rw [hnone, hstrict] at hlength
      cases hlength

end Invocation

end JsxDialect
