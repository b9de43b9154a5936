import DeletionGuard.Proofs.Run.Course
import DeletionGuard.Proofs.Run.ExitCode
import DeletionGuard.Proofs.Sink

/-!
# What a run writes

The output of a run is the report of its verdict, and the diagnostics have no part in it. A run
without a verdict says why on a line of its own.
-/

namespace DeletionGuard

theorem Verdict.code_status_ne_two (v : Verdict) : v.status.code ≠ 2 := by
  cases v with
  | success => exact (by decide : Status.success.code ≠ 2)
  | violations _ => exact (by decide : Status.violationsFound.code ≠ 2)

namespace Outcome

variable {inv : Invocation} {s : Surroundings}

def logColors (s : Surroundings) : Bool :=
  s.environment.logColors s.diagnosticsTerminal

/-- What the diagnostics take of a run that gives these notices. -/
def said (inv : Invocation) (s : Surroundings) (notices : List Notice) : String :=
  String.join ((filterOf inv s).2.map LogFilter.warningLine) ++
    String.join (notices.mapIdx fun i => noticeText (filterOf inv s).1 (logColors s) (s.clock i))

theorem ofInvocation_eq (houtput : s.outputFull = false)
    (hdiagnostics : s.diagnosticsFull = false) :
    let course :=
      Course.ofInvocation s.files inv s.terminal (s.environment.reportColors s.terminal)
    ofInvocation inv s = {
      exitCode := course.status.code
      output := (course.report.map String.join).getD ""
      diagnostics := said inv s course.notices } := by
  intro course
  have htaken : (course.report.map (writePieces none)).any (·.failed) = false := by
    cases course.report with
    | none => rfl
    | some pieces => simp [writePieces_none]
  have hreport : (course.report.map (writePieces none)).map Written.text =
      course.report.map String.join := by
    rw [Option.map_map]
    congr 1
    funext pieces
    exact text_writePieces_none pieces
  simp only [ofInvocation, houtput, hdiagnostics, Bool.false_and, Bool.false_eq_true, if_false]
  rw [htaken, hreport]
  simp [said, logColors, course]

theorem said_errorLine (notices : List Notice) (message : String) :
    said inv s (notices ++ [.errorLine (Report.errorLine message)]) =
      said inv s notices ++ "ERROR: " ++ message ++ "\n" := by
  simp [said, List.mapIdx_append, noticeText, Report.errorLine, String.append_assoc]

theorem endsLine_noticeText {filter : LogFilter} {colors : Bool} {time : Option Timestamp}
    {n : Notice} (hdetail : n.IsDetail) (h : colors = true ∨ n.IsFree) :
    Text.EndsLine (noticeText filter colors time n) := by
  cases n with
  | errorLine pieces => exact hdetail.elim
  | entry e =>
    rw [noticeText]
    split
    · exact e.endsLine_line h
    · exact .inl rfl

theorem endsLine_said {notices : List Notice} (hdetail : ∀ n ∈ notices, n.IsDetail)
    (h : logColors s = true ∨ ∀ n ∈ notices, n.IsFree) : Text.EndsLine (said inv s notices) := by
  refine Text.EndsLine.append (Text.EndsLine.join ?_) (Text.EndsLine.join ?_)
  · intro line hline
    obtain ⟨warning, -, rfl⟩ := List.mem_map.1 hline
    exact LogFilter.endsLine_warningLine warning
  · intro line hline
    obtain ⟨i, hi, rfl⟩ := List.mem_mapIdx.1 hline
    have hmem : notices[i] ∈ notices := List.getElem_mem hi
    exact endsLine_noticeText (hdetail _ hmem) (h.imp_right fun hfree => hfree _ hmem)

/-- The filter of a run that is asked for nothing. -/
theorem filterOf_usual (hlog : s.environment "RUST_LOG" = none) (hverbose : inv.verbose = false) :
    filterOf inv s = (⟨[⟨none, Level.warn.rank⟩], none⟩, []) := by
  rw [filterOf, hlog, hverbose]
  exact LogFilter.ofDescription_empty _

/-- That filter holds back what only shows if it is asked for. -/
theorem noticeText_usual {colors : Bool} {time : Option Timestamp} {n : Notice}
    (hdetail : n.IsDetail) :
    noticeText ⟨[⟨none, Level.warn.rank⟩], none⟩ colors time n = "" := by
  cases n with
  | errorLine pieces => exact hdetail.elim
  | entry e =>
    rw [noticeText, LogFilter.shows_eq_false hdetail]
    rfl

theorem said_usual (hlog : s.environment "RUST_LOG" = none) (hverbose : inv.verbose = false)
    {notices : List Notice} (hdetail : ∀ n ∈ notices, n.IsDetail) : said inv s notices = "" := by
  have hjoin : String.join (notices.mapIdx fun i =>
      noticeText ⟨[⟨none, Level.warn.rank⟩], none⟩ (logColors s) (s.clock i)) = "" := by
    rw [← String.toList_inj, String.toList_join, String.toList_empty, List.flatMap_eq_nil_iff]
    intro line hline
    obtain ⟨i, hi, rfl⟩ := List.mem_mapIdx.1 hline
    rw [noticeText_usual (hdetail _ (List.getElem_mem hi)), String.toList_empty]
  rw [said, filterOf_usual hlog hverbose, hjoin]
  rfl

/-! ### The three kinds of runs -/

section

variable (hterminal : s.terminal = false) (houtput : s.outputFull = false)
  (hdiagnostics : s.diagnosticsFull = false)

include houtput hdiagnostics in
theorem ofInvocation_of_settingsError {e : SettingsError}
    (h : Settings.load s.files inv.settings = .error e) :
    ofInvocation inv s = {
      exitCode := 2
      output := ""
      diagnostics :=
        said inv s [] ++ "ERROR: " ++ ("Failed to load configuration: " ++ e.message) ++ "\n" } := by
  rw [ofInvocation_eq houtput hdiagnostics, Course.ofInvocation_of_settingsError h,
    ← said_errorLine]
  rfl

include houtput hdiagnostics in
theorem ofInvocation_of_planError {loaded : Settings} {e : PlanError}
    (hsettings : Settings.load s.files inv.settings = .ok loaded)
    (hplan : Plan.load s.files inv.plan = .error e) :
    ∃ notices, (∀ n ∈ notices, n.IsDetail) ∧ (inv.IsFree → ∀ n ∈ notices, n.IsFree) ∧
      ofInvocation inv s = {
        exitCode := 2
        output := ""
        diagnostics := said inv s notices ++ "ERROR: " ++ e.message ++ "\n" } := by
  let settings := loaded.override inv.addressStart inv.format
  let unusable := "Unusable plan input " ++ e.path ++ ": " ++ e.describe
  refine ⟨Course.opening inv settings ++ [Course.entry .debug Course.programTarget unusable],
    ?_, ?_, ?_⟩
  · intro n hn
    rcases List.mem_append.1 hn with hn | hn
    · exact Course.isDetail_opening hn
    · rw [List.mem_singleton.1 hn]
      exact Course.isDetail_entry (by decide) _ _
  · intro hinv n hn
    rcases List.mem_append.1 hn with hn | hn
    · exact Course.isFree_opening hinv hn
    · rw [List.mem_singleton.1 hn]
      have hpath : ControlSequence.IsFree e.path := Plan.path_of_load_eq_error hplan ▸ hinv.1
      have hmessage : ControlSequence.IsFree unusable := by
        refine .append (.append (.append ?_ hpath) ?_) e.isFree_describe
        · decide
        · decide
      exact Course.isFree_entry _ (by decide) hmessage
  · rw [ofInvocation_eq houtput hdiagnostics, Course.ofInvocation_of_planError hsettings hplan,
      ← said_errorLine, List.append_assoc]
    rfl

include hterminal houtput hdiagnostics in
theorem ofInvocation_of_plan {loaded : Settings} {plan : Plan}
    (hsettings : Settings.load s.files inv.settings = .ok loaded)
    (hplan : Plan.load s.files inv.plan = .ok plan) :
    let settings := loaded.override inv.addressStart inv.format
    let verdict := (Guard.mk settings.addressStart).judge plan
    ∃ notices, (∀ n ∈ notices, n.IsDetail) ∧ ofInvocation inv s = {
      exitCode := verdict.status.code
      output := String.join
        ((Report.mk settings.addressStart settings.format false false).pieces verdict)
      diagnostics := said inv s notices } := by
  intro settings verdict
  refine ⟨Course.opening inv settings ++
    Course.planEntries inv.plan settings.addressStart plan verdict, ?_, ?_⟩
  · intro n hn
    rcases List.mem_append.1 hn with hn | hn
    · exact Course.isDetail_opening hn
    · exact Course.isDetail_planEntries hn
  · rw [ofInvocation_eq houtput hdiagnostics, Course.ofInvocation_of_plan hsettings hplan,
      hterminal, Bool.and_false]
    simp only [Option.map_some, Option.getD_some]
    rw [Report.pieces_of_plain _ _ false]

end

section

variable {inv : Invocation} {s : Surroundings} (houtput : s.outputFull = false)
  (hdiagnostics : s.diagnosticsFull = false)

include houtput hdiagnostics

/-- A run that ends as a verdict does has read the settings and the plan. -/
theorem exists_plan_of_exitCode
    (h : (ofInvocation inv s).exitCode = 0 ∨ (ofInvocation inv s).exitCode = 1) :
    ∃ loaded plan, Settings.load s.files inv.settings = .ok loaded ∧
      Plan.load s.files inv.plan = .ok plan := by
  have hcode : (ofInvocation inv s).exitCode ≠ 2 := by omega
  cases hsettings : Settings.load s.files inv.settings with
  | error e =>
    rw [ofInvocation_of_settingsError houtput hdiagnostics hsettings] at hcode
    exact absurd rfl hcode
  | ok loaded =>
    cases hplan : Plan.load s.files inv.plan with
    | error e =>
      obtain ⟨_, -, -, ho⟩ := ofInvocation_of_planError houtput hdiagnostics hsettings hplan
      rw [ho] at hcode
      exact absurd rfl hcode
    | ok plan => exact ⟨loaded, plan, rfl, rfl⟩

/-- A run that ends with 2 says why, on a line of its own unless a path holds a control sequence. -/
theorem diagnostics_of_exitCode (hterminal : s.terminal = false)
    (h : (ofInvocation inv s).exitCode = 2) :
    (ofInvocation inv s).output = "" ∧
      ∃ before message, (ofInvocation inv s).diagnostics = before ++ "ERROR: " ++ message ++ "\n" ∧
        ((∃ e, Settings.load s.files inv.settings = .error e ∧
            message = "Failed to load configuration: " ++ e.message ∧ Text.EndsLine before) ∨
          ∃ settings e, Settings.load s.files inv.settings = .ok settings ∧
            Plan.load s.files inv.plan = .error e ∧ message = e.message ∧
            (inv.IsFree ∨ logColors s = true ∨
                s.environment "RUST_LOG" = none ∧ inv.verbose = false →
              Text.EndsLine before)) := by
  cases hsettings : Settings.load s.files inv.settings with
  | error e =>
    rw [ofInvocation_of_settingsError houtput hdiagnostics hsettings]
    refine ⟨rfl, said inv s [], _, rfl, .inl ⟨e, rfl, rfl, endsLine_said ?_ (.inr ?_)⟩⟩
    · exact fun _ hn => absurd hn List.not_mem_nil
    · exact fun _ hn => absurd hn List.not_mem_nil
  | ok loaded =>
    cases hplan : Plan.load s.files inv.plan with
    | error e =>
      obtain ⟨notices, hdetail, hfree, ho⟩ :=
        ofInvocation_of_planError houtput hdiagnostics hsettings hplan
      rw [ho]
      refine ⟨rfl, said inv s notices, _, rfl, .inr ⟨loaded, e, rfl, rfl, rfl, ?_⟩⟩
      rintro (hinv | hcolors | ⟨hlog, hverbose⟩)
      · exact endsLine_said hdetail (.inr (hfree hinv))
      · exact endsLine_said hdetail (.inl hcolors)
      · exact .inl (said_usual hlog hverbose hdetail)
    | ok plan =>
      obtain ⟨_, -, ho⟩ := ofInvocation_of_plan hterminal houtput hdiagnostics hsettings hplan
      rw [ho] at h
      exact absurd h (Verdict.code_status_ne_two _)

end

/-- The output is the report alone, whatever is asked of the log. Without a verdict it is empty, and
the diagnostics end with the error. -/
theorem streams_ofCommandLine {args : List String} {inv : Invocation} {s : Surroundings}
    (hargs : Invocation.ofCommandLine args = .ok inv) (hterminal : s.terminal = false)
    (houtput : s.outputFull = false) (hdiagnostics : s.diagnosticsFull = false) :
    let o := ofCommandLine args s
    (o.exitCode = 0 ∨ o.exitCode = 1 →
      ∃ settings plan, Settings.load s.files inv.settings = .ok settings ∧
        Plan.load s.files inv.plan = .ok plan ∧
        let start := inv.addressStart.getD settings.addressStart
        let report : Report := ⟨start, inv.format.getD settings.format, false, false⟩
        o.output = String.join (report.pieces ((Guard.mk start).judge plan))) ∧
    (o.exitCode = 2 → o.output = "" ∧
      ∃ before message, o.diagnostics = before ++ "ERROR: " ++ message ++ "\n" ∧
        ((∃ e, Settings.load s.files inv.settings = .error e ∧
            message = "Failed to load configuration: " ++ e.message ∧ Text.EndsLine before) ∨
          ∃ settings e, Settings.load s.files inv.settings = .ok settings ∧
            Plan.load s.files inv.plan = .error e ∧ message = e.message ∧
            (inv.IsFree ∨ logColors s = true ∨
                s.environment "RUST_LOG" = none ∧ inv.verbose = false →
              Text.EndsLine before))) ∧
    (∀ args' inv' s', Invocation.ofCommandLine args' = .ok inv' → inv'.plan = inv.plan →
      inv'.settings = inv.settings → inv'.addressStart = inv.addressStart →
      inv'.format = inv.format → s'.files = s.files → s'.terminal = false →
      s'.outputFull = false → s'.diagnosticsFull = false →
      (ofCommandLine args' s').output = o.output ∧ (ofCommandLine args' s').exitCode = o.exitCode) ∧
    (s.environment "RUST_LOG" = none → inv.verbose = false → o.exitCode = 0 ∨ o.exitCode = 1 →
      o.diagnostics = "") := by
  intro o
  have ho : o = ofInvocation inv s := ofCommandLine_eq hargs
  rw [ho]
  refine ⟨?_, diagnostics_of_exitCode houtput hdiagnostics hterminal, ?_, ?_⟩
  · intro hcode
    obtain ⟨loaded, plan, hsettings, hplan⟩ :=
      exists_plan_of_exitCode houtput hdiagnostics hcode
    obtain ⟨_, -, hverdict⟩ :=
      ofInvocation_of_plan hterminal houtput hdiagnostics hsettings hplan
    refine ⟨loaded, plan, hsettings, hplan, ?_⟩
    rw [hverdict]
    rfl
  · intro args' inv' s' hargs' hplan hsettings hstart hformat hfiles hterminal' houtput' hdiag'
    have hcourse := @Course.ofInvocation_congr s.files inv (s.environment.reportColors false) inv'
      (s'.environment.reportColors false) hplan hsettings hstart hformat
    rw [ofCommandLine_eq hargs', ofInvocation_eq houtput hdiagnostics,
      ofInvocation_eq houtput' hdiag', hfiles, hterminal, hterminal', hcourse]
    exact ⟨rfl, rfl⟩
  · intro hlog hverbose hcode
    obtain ⟨loaded, plan, hsettings, hplan⟩ :=
      exists_plan_of_exitCode houtput hdiagnostics hcode
    obtain ⟨notices, hdetail, hverdict⟩ :=
      ofInvocation_of_plan hterminal houtput hdiagnostics hsettings hplan
    rw [hverdict]
    exact said_usual hlog hverbose hdetail

/-- With the settings a deletion is reported, and asking for all entries of the log leaves the
report as it is. -/
theorem streams_ofCommandLine_settings :
    let args := ["pg", "-c", "guard.yml", "plan.json"]
    let o := ofCommandLine args { files := guarded }
    let o' := ofCommandLine (args ++ ["-v", "--no-color"]) {
      files := guarded
      environment := fun name => if name = "RUST_LOG" then some "trace" else none }
    o.output = "ERROR: protected resources scheduled for deletion or replacement:\n" ++
        "  - db.a: actions=['delete']\n" ++
        "Hint: remove the delete/replace of these resources from the plan, " ++
        "or rename them outside the 'db.' convention if data loss is intended.\n" ∧
      o.diagnostics = "" ∧ o'.output = o.output ∧ o'.exitCode = o.exitCode := by
  intro args o o'
  have hargs : Invocation.ofCommandLine args =
      .ok { plan := "plan.json", settings := some "guard.yml" } := rfl
  have hload := @Settings.Spells.load_eq _ guarded "guard.yml" _ spells_guarded rfl
  have hplan : Plan.load guarded "plan.json" = .ok ⟨[⟨"db.a", ["delete"]⟩]⟩ :=
    Plan.load_eq_ok_iff.2 isAt_guarded
  have hcode : o.exitCode = 1 := by
    rw [exitCode_of_load_eq_ok hargs rfl hload, Status.code_eq_one_iff,
      Session.statusOf_eq_violationsFound_iff]
    refine ⟨_, isAt_guarded, _, List.mem_singleton_self _, ?_⟩
    rw [Invocation.protectedStart_of_load hload]
    decide
  obtain ⟨hreport, -, hpair, hquiet⟩ := @streams_ofCommandLine _ _ { files := guarded } hargs rfl
    rfl rfl
  obtain ⟨settings, plan, hsettings, hplan', houtput⟩ := hreport (.inr hcode)
  obtain rfl := Except.ok.inj (hsettings.symm.trans hload)
  obtain rfl := Except.ok.inj (hplan'.symm.trans hplan)
  refine ⟨houtput.trans (by decide +kernel), hquiet rfl rfl (.inr hcode), ?_⟩
  exact hpair _ {
    plan := "plan.json", settings := some "guard.yml", verbose := true, noColor := true } _ rfl rfl
    rfl rfl rfl rfl rfl rfl rfl

/-- A control sequence in the path of the plan can take away the end of the line before the
error. -/
theorem not_endsLine_of_controlSequence :
    let s : Surroundings := {
      files := fun _ => .missing .notFound
      environment := fun name => if name = "RUST_LOG" then some "info" else none }
    let o := ofCommandLine ["pg", "\x1b]"] s
    Invocation.ofCommandLine ["pg", "\x1b]"] = .ok { plan := "\x1b]" } ∧
      o.exitCode = 2 ∧
      o.diagnostics = "[INFO  pg] Validating ERROR: plan file not found: \x1b]\n" ∧
      ¬ ∃ before rest, o.diagnostics = before ++ "ERROR: " ++ rest ∧ Text.EndsLine before := by
  intro s o
  let inv : Invocation := { plan := "\x1b]" }
  have hargs : Invocation.ofCommandLine ["pg", "\x1b]"] = .ok inv := rfl
  have hfilter : filterOf inv s = (⟨[⟨none, Level.info.rank⟩], none⟩, []) := by
    have hlog : s.environment "RUST_LOG" = some "info" := by simp [s]
    rw [filterOf, hlog]
    exact LogFilter.ofDescription_of_rank? (by decide) (by decide) (by decide) (by decide +kernel)
      (by decide) (by decide +kernel)
  let entry : LogEntry := ⟨.info, "pg", "Validating \x1b]"⟩
  have hline : entry.line false none = "[INFO  pg] Validating " := by
    rw [LogEntry.line, if_neg Bool.false_ne_true, LogEntry.text_styled, LogEntry.opening,
      LogEntry.indented_of_notMem (by decide)]
    decide +kernel
  have hsaid : o.diagnostics = "[INFO  pg] Validating ERROR: plan file not found: \x1b]\n" := by
    have hcourse : Course.ofInvocation s.files inv false false = _ :=
      @Course.ofInvocation_of_planError s.files inv false false {} (.notFound "\x1b]") rfl rfl
    have ho : o = ofInvocation inv s := ofCommandLine_eq hargs
    rw [ho, ofInvocation_eq rfl rfl]
    change said inv s (Course.ofInvocation s.files inv false false).notices = _
    rw [hcourse, said, hfilter]
    change String.join [] ++
      String.join ["", entry.line false none, "", "ERROR: plan file not found: \x1b]\n"] = _
    rw [hline]
    decide
  refine ⟨hargs, ?_, hsaid, ?_⟩
  · rw [show o = ofInvocation inv s from ofCommandLine_eq hargs, exitCode_ofInvocation rfl]
    rfl
  · rintro ⟨before, rest, heq, rfl | ⟨b, rfl⟩⟩
    · have hstart : "ERROR: ".toList <+: o.diagnostics.toList :=
        ⟨rest.toList, by rw [heq, String.empty_append, String.toList_append]⟩
      rw [hsaid] at hstart
      exact absurd hstart (by decide +kernel)
    · have hinside : "\nERROR: ".toList <:+: o.diagnostics.toList :=
        ⟨b.toList, rest.toList, by simp [heq]⟩
      rw [hsaid] at hinside
      exact absurd hinside (by decide +kernel)

end Outcome

end DeletionGuard
