import DeletionGuard.Proofs.Plan.Tree
import DeletionGuard.Proofs.Policy
import DeletionGuard.Proofs.Settings.Lines
import DeletionGuard.Run
import DeletionGuard.Session

/-!
# How a run ends

The exit code of a run is the code of a status that only the settings, the plan and the protected
beginning of addresses decide. Neither the log filter nor what the output takes has a part in it.
-/

namespace DeletionGuard

/-! ### The protected beginning -/

/-- What the file of the settings gives for the protected beginning, if there is one and it can be
read. -/
def Settings.givenStart? (files : String → Lookup) (path : String) : Option String := do
  let bytes ← (files path).read.toOption
  let text ← (Utf8.decode bytes).toOption
  (← (given (.ofText (String.ofList text))).toOption).addressStart

/-- The protected beginning of a run: the one on the command line, else that of the settings file,
else the usual one. -/
def Invocation.protectedStart (files : String → Lookup) (inv : Invocation) : String :=
  (inv.addressStart <|> inv.settings.bind (Settings.givenStart? files)).getD defaultAddressStart

theorem Settings.addressStart_of_parse_eq_ok {text : String} {settings : Settings}
    (h : parse text = .ok settings) :
    ∃ g, given (.ofText text) = .ok g ∧
      settings.addressStart = g.addressStart.getD defaultAddressStart := by
  rw [parse, ofDocument] at h
  cases hgiven : given (.ofText text) with
  | error fault => rw [hgiven] at h; cases h
  | ok g =>
    rw [hgiven] at h
    refine ⟨g, rfl, ?_⟩
    simp only [bind, Except.bind] at h
    split at h <;> cases h
    rfl

theorem Settings.addressStart_of_load_eq_ok {files : String → Lookup} {path : Option String}
    {settings : Settings} (h : load files path = .ok settings) :
    settings.addressStart = (path.bind (givenStart? files)).getD defaultAddressStart := by
  cases path with
  | none => cases h; rfl
  | some path =>
    rw [load] at h
    cases hread : (files path).read with
    | error fault => rw [hread] at h; cases h
    | ok bytes =>
      cases htext : Utf8.decode bytes with
      | error good => simp [hread, htext] at h
      | ok text =>
        cases hparse : parse (String.ofList text) with
        | error fault => simp [hread, htext, hparse, Except.mapError] at h
        | ok parsed =>
          obtain ⟨g, hgiven, hstart⟩ := addressStart_of_parse_eq_ok hparse
          simp only [hread, htext, hparse, Except.mapError, Except.ok.injEq] at h
          subst h
          simp [givenStart?, hread, htext, hgiven, Except.toOption, hstart]

/-- The settings of a run protect what its protected beginning says. -/
theorem Invocation.addressStart_override {files : String → Lookup} {inv : Invocation}
    {loaded : Settings} (h : Settings.load files inv.settings = .ok loaded) :
    (loaded.override inv.addressStart inv.format).addressStart = inv.protectedStart files := by
  have hloaded := Settings.addressStart_of_load_eq_ok h
  unfold Settings.override protectedStart
  cases inv.addressStart with
  | none => simpa using hloaded
  | some start => rfl

/-- The command line goes before the settings. -/
theorem Invocation.protectedStart_of_load {files : String → Lookup} {inv : Invocation}
    {loaded : Settings} (h : Settings.load files inv.settings = .ok loaded) :
    inv.protectedStart files = inv.addressStart.getD loaded.addressStart :=
  (addressStart_override h).symm

/-! ### The status of a course -/

namespace Course

variable {files : String → Lookup} {inv : Invocation} {terminal shows : Bool}

theorem status_withSettings (files : String → Lookup) (path : String) (settings : Settings)
    (color shows : Bool) :
    (withSettings files path settings color shows).status =
      Session.statusOf files path settings.addressStart := by
  rw [withSettings, Session.statusOf]
  cases Plan.load files path <;> rfl

theorem status_ofInvocation_of_load_eq_ok {loaded : Settings}
    (h : Settings.load files inv.settings = .ok loaded) :
    (ofInvocation files inv terminal shows).status =
      Session.statusOf files inv.plan (inv.protectedStart files) := by
  rw [ofInvocation, h, ← Invocation.addressStart_override h, ← status_withSettings]

theorem status_ofInvocation_of_load_eq_error {e : SettingsError}
    (h : Settings.load files inv.settings = .error e) :
    (ofInvocation files inv terminal shows).status = .inputError := by
  rw [ofInvocation, h]

end Course

/-! ### The exit code -/

theorem Outcome.exitCode_ofInvocation {inv : Invocation} {s : Surroundings}
    (h : s.diagnosticsFull = false) :
    (ofInvocation inv s).exitCode = (Course.ofInvocation s.files inv s.terminal
      (s.environment.reportColors s.terminal)).status.code := by
  simp [ofInvocation, h]

theorem Outcome.ofCommandLine_eq {args : List String} {inv : Invocation} {s : Surroundings}
    (h : Invocation.ofCommandLine args = .ok inv) : ofCommandLine args s = ofInvocation inv s := by
  rw [ofCommandLine, h]

/-- The document at a path holds a plan. -/
def Plan.IsAt (files : String → Lookup) (path : String) (plan : Plan) : Prop :=
  ∃ bytes, files path = .regular bytes ∧ ofBytes .stream bytes = .ok plan

theorem Plan.load_eq_ok_iff {files : String → Lookup} {path : String} {plan : Plan} :
    load files path = .ok plan ↔ plan.IsAt files path := by
  rw [load, IsAt]
  cases files path with
  | regular bytes =>
    cases h : ofBytes .stream bytes <;> simp [Except.mapError, h]
  | device bytes => simp
  | directory => simp
  | missing fault => simp
  | unreadable fault => simp

namespace Session

variable (files : String → Lookup) (path start : String)

theorem statusOf_eq_violationsFound_iff :
    statusOf files path start = .violationsFound ↔
      ∃ plan : Plan, plan.IsAt files path ∧ ∃ rc ∈ plan.changes, Policy.Violates start rc := by
  simp only [← Plan.load_eq_ok_iff, statusOf]
  cases Plan.load files path with
  | error e => simp
  | ok plan => simp [Guard.status_judge_eq_violationsFound_iff]

theorem statusOf_eq_success_iff :
    statusOf files path start = .success ↔
      ∃ plan : Plan, plan.IsAt files path ∧ ∀ rc ∈ plan.changes, ¬ Policy.Violates start rc := by
  simp only [← Plan.load_eq_ok_iff, statusOf]
  cases Plan.load files path with
  | error e => simp
  | ok plan => simp [Guard.status_judge_eq_success_iff]

end Session

namespace Status

theorem code_eq_zero_iff {status : Status} : status.code = 0 ↔ status = .success := by
  cases status <;> decide

theorem code_eq_one_iff {status : Status} : status.code = 1 ↔ status = .violationsFound := by
  cases status <;> decide

end Status

section

variable {args : List String} {inv : Invocation} {s : Surroundings}
  (hargs : Invocation.ofCommandLine args = .ok inv) (hdiagnostics : s.diagnosticsFull = false)
include hargs hdiagnostics

/-- With its settings a run ends as the judgement of the plan alone does. -/
theorem Outcome.exitCode_of_load_eq_ok {loaded : Settings}
    (h : Settings.load s.files inv.settings = .ok loaded) :
    (ofCommandLine args s).exitCode =
      (Session.statusOf s.files inv.plan (inv.protectedStart s.files)).code := by
  rw [ofCommandLine_eq hargs, exitCode_ofInvocation hdiagnostics,
    Course.status_ofInvocation_of_load_eq_ok h]

theorem Outcome.exitCode_of_load_eq_error {e : SettingsError}
    (h : Settings.load s.files inv.settings = .error e) : (ofCommandLine args s).exitCode = 2 := by
  rw [ofCommandLine_eq hargs, exitCode_ofInvocation hdiagnostics,
    Course.status_ofInvocation_of_load_eq_error h]
  rfl

/-- Without its settings a run judges nothing. -/
theorem Outcome.exitCode_cases :
    ((∃ settings, Settings.load s.files inv.settings = .ok settings) ∧
        (ofCommandLine args s).exitCode =
          (Session.statusOf s.files inv.plan (inv.protectedStart s.files)).code) ∨
      (¬ ∃ settings, Settings.load s.files inv.settings = .ok settings) ∧
        (ofCommandLine args s).exitCode = 2 := by
  cases hload : Settings.load s.files inv.settings with
  | ok loaded => exact .inl ⟨⟨loaded, rfl⟩, exitCode_of_load_eq_ok hargs hdiagnostics hload⟩
  | error e => exact .inr ⟨by simp, exitCode_of_load_eq_error hargs hdiagnostics hload⟩

end

/-- A run ends with 1 if a protected resource is deleted, with 0 if none is, and with 2 if something
cannot be read. -/
theorem Outcome.exitCode_ofCommandLine {args : List String} {inv : Invocation} {s : Surroundings}
    (hargs : Invocation.ofCommandLine args = .ok inv) (hdiagnostics : s.diagnosticsFull = false) :
    let code := (ofCommandLine args s).exitCode
    let start := inv.protectedStart s.files
    (code = 1 ↔ (∃ settings, Settings.load s.files inv.settings = .ok settings) ∧
      ∃ plan : Plan, plan.IsAt s.files inv.plan ∧
        ∃ rc ∈ plan.changes, start.toList <+: rc.address.toList ∧ "delete" ∈ rc.actions) ∧
    (code = 0 ↔ (∃ settings, Settings.load s.files inv.settings = .ok settings) ∧
      ∃ plan : Plan, plan.IsAt s.files inv.plan ∧
        ∀ rc ∈ plan.changes, ¬ (start.toList <+: rc.address.toList ∧ "delete" ∈ rc.actions)) ∧
    (code = 0 ∨ code = 1 ∨ code = 2) ∧
    (∀ settings, Settings.load s.files inv.settings = .ok settings →
      code = (Session.statusOf s.files inv.plan start).code) ∧
    (∀ given, inv.addressStart = some given → start = given) ∧
    (inv.addressStart = none → inv.settings = none → start = defaultAddressStart) ∧
    ∀ path es cs, inv.settings = some path → (s.files path).read = .ok (Utf8.encode cs) →
      Settings.Spells es cs → (∃ settings, Settings.load s.files inv.settings = .ok settings) ∧
        (inv.addressStart = none →
          start = (Settings.Field.addressStart.values es).head?.getD defaultAddressStart) := by
  intro code start
  have hcases := exitCode_cases hargs hdiagnostics
  refine ⟨?_, ?_, ?_, ?_, ?_, ?_, ?_⟩
  · rcases hcases with ⟨hload, hcode⟩ | ⟨hload, hcode⟩
    · rw [and_iff_right hload, show code = _ from hcode, Status.code_eq_one_iff]
      exact Session.statusOf_eq_violationsFound_iff s.files inv.plan start
    · simp [code, hcode, hload]
  · rcases hcases with ⟨hload, hcode⟩ | ⟨hload, hcode⟩
    · rw [and_iff_right hload, show code = _ from hcode, Status.code_eq_zero_iff]
      exact Session.statusOf_eq_success_iff s.files inv.plan start
    · simp [code, hcode, hload]
  · rcases hcases with ⟨-, hcode⟩ | ⟨-, hcode⟩
    · simp only [code, hcode]
      cases Session.statusOf s.files inv.plan (inv.protectedStart s.files) <;> decide
    · exact .inr (.inr hcode)
  · intro settings hload
    exact exitCode_of_load_eq_ok hargs hdiagnostics hload
  · intro given hgiven
    simp [start, Invocation.protectedStart, hgiven]
  · intro hgiven hsettings
    simp [start, Invocation.protectedStart, hgiven, hsettings]
  · intro path es cs hsettings hread hspells
    have hload := hspells.load_eq hread
    rw [← hsettings] at hload
    refine ⟨⟨_, hload⟩, fun hgiven => ?_⟩
    simp [start, Invocation.protectedStart_of_load hload, hgiven, Settings.override]

/-! ### A guarded plan -/

/-- A file of settings that protects `db.`, and a plan that deletes `db.a`. -/
def guarded (path : String) : Lookup :=
  if path = "guard.yml" then
    .regular (Utf8.ofString "address_prefix: \"db.\"\n")
  else
    .regular (Utf8.ofString ("\x7b\"resource_changes\":[\x7b\"address\":\"db.a\"," ++
      "\"change\":\x7b\"actions\":[\"delete\"]\x7d\x7d]\x7d"))

theorem spells_guarded :
    Settings.Spells [⟨"address_prefix".toList, "db.".toList, false⟩]
      "address_prefix: \"db.\"\n".toList := by
  have hkey : Yaml.IsKey "address_prefix".toList :=
    ⟨by decide, List.all_iff_forall_prop.1 (by decide +kernel), by decide +kernel⟩
  have hvalue : Yaml.SpellsValue "db.".toList false "\"db.\"".toList :=
    .quoted (Yaml.spellsText_doubleQuoted "db.".toList)
  have hlines : Yaml.SpellsLines [⟨"address_prefix".toList, "db.".toList, false⟩] _ :=
    .entry hkey hvalue .nil
  exact ⟨hlines, fun field => by cases field <;> decide, nofun⟩

theorem isAt_guarded : Plan.IsAt guarded "plan.json" ⟨[⟨"db.a", ["delete"]⟩]⟩ :=
  ⟨_, rfl, Plan.eq_ok_of_toOption (by decide +kernel)⟩

/-- The settings make the deletion of the plan a violation, even if no output is taken. -/
theorem Outcome.exitCode_ofCommandLine_settings :
    (ofCommandLine ["pg", "-c", "guard.yml", "plan.json"]
        { files := guarded, outputFull := true }).exitCode = 1 ∧
      (ofCommandLine ["pg", "plan.json"] { files := guarded, outputFull := true }).exitCode = 0 := by
  have hargs : Invocation.ofCommandLine ["pg", "-c", "guard.yml", "plan.json"] =
      .ok { plan := "plan.json", settings := some "guard.yml" } := rfl
  have hargs' : Invocation.ofCommandLine ["pg", "plan.json"] = .ok { plan := "plan.json" } := rfl
  constructor
  · obtain ⟨hviolation, -, -, -, -, -, hfile⟩ :=
      @exitCode_ofCommandLine _ _ { files := guarded, outputFull := true } hargs rfl
    obtain ⟨hload, hstart⟩ := hfile "guard.yml" _ _ rfl rfl spells_guarded
    refine hviolation.2 ⟨hload, _, isAt_guarded, _, List.mem_singleton_self _, ?_, ?_⟩
    · rw [hstart rfl]
      decide
    · decide
  · obtain ⟨-, hsuccess, -, -, -, husual, -⟩ :=
      @exitCode_ofCommandLine _ _ { files := guarded, outputFull := true } hargs' rfl
    refine hsuccess.2 ⟨⟨_, rfl⟩, _, isAt_guarded, fun rc hrc => ?_⟩
    rw [List.mem_singleton.1 hrc, husual rfl rfl]
    decide

end DeletionGuard
