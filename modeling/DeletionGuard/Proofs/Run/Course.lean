import DeletionGuard.Proofs.Log
import DeletionGuard.Proofs.Plan.Medium
import DeletionGuard.Run

/-!
# Courses

A course is that of bad settings, that of a bad plan or that of a plan that has been judged. All
that it says besides an error shows only if it is asked for, and before an error nothing but the
paths of the command line can bring a control sequence into it.
-/

namespace DeletionGuard

open ControlSequence

/-! ### What is said about settings and plans -/

theorem Settings.isFree_describe (s : Settings) : IsFree s.describe := by
  have hstart : IsFree (Text.quote s.addressStart) := Text.isFree_quoteWith false s.addressStart
  unfold describe
  refine IsFree.append (IsFree.append (IsFree.append (IsFree.append ?_ hstart) ?_) ?_) ?_
  · decide
  · decide
  · cases s.format <;> decide
  · decide

theorem Json.isFree_describeFault (message : String) (position : Position) :
    IsFree (describeFault message position) := by
  have hmessage : IsFree (Text.quote message) := Text.isFree_quoteWith false message
  have hline : IsFree (toString position.line) := IsFree.ofNat _
  have hcolumn : IsFree (toString position.column) := IsFree.ofNat _
  unfold describeFault
  refine IsFree.append (IsFree.append (IsFree.append (IsFree.append (IsFree.append
    (IsFree.append ?_ hmessage) ?_) hline) ?_) hcolumn) ?_
  all_goals decide

theorem PlanFault.isFree_describe (fault : PlanFault) : IsFree fault.describe := by
  cases fault with
  | document f => exact Json.isFree_describeFault _ _
  | unreadable fault => exact Json.isFree_describeFault _ _

theorem PlanError.isFree_describe (e : PlanError) : IsFree e.describe := by
  cases e with
  | notFound path =>
    have hpath : IsFree (Text.quotePath path) := Text.isFree_quoteWith true path
    unfold describe
    refine IsFree.append (IsFree.append ?_ hpath) ?_
    all_goals decide
  | malformed path fault =>
    have hpath : IsFree (Text.quotePath path) := Text.isFree_quoteWith true path
    unfold describe
    refine IsFree.append (IsFree.append (IsFree.append (IsFree.append ?_ hpath) ?_)
      fault.isFree_describe) ?_
    all_goals decide

/-- Without colours it does not matter whether they show. -/
theorem Report.pieces_of_plain (start : String) (format : Format) (shows shows' : Bool)
    (v : Verdict) :
    (Report.mk start format false shows').pieces v = (Report.mk start format false shows).pieces v := by
  cases format with
  | text => cases v <;> rfl
  | json => rfl

/-! ### Courses -/

/-- No control sequence begins in the paths that an invocation names. -/
def Invocation.IsFree (inv : Invocation) : Prop :=
  ControlSequence.IsFree inv.plan ∧ ∀ path ∈ inv.settings, ControlSequence.IsFree path

namespace Notice

/-- A notice that only shows if it is asked for. -/
def IsDetail : Notice → Prop
  | entry e => Level.warn.rank < e.level.rank
  | errorLine _ => False

/-- A notice in which no control sequence begins. -/
def IsFree : Notice → Prop
  | entry e => e.IsFree
  | errorLine pieces => ControlSequence.IsFree (String.join pieces)

end Notice

namespace Course

variable {files : String → Lookup} {inv : Invocation} {terminal shows : Bool}

theorem isDetail_entry {level : Level} (h : Level.warn.rank < level.rank)
    (target message : String) : (entry level target message).IsDetail :=
  h

theorem isFree_entry (level : Level) {target message : String}
    (htarget : ControlSequence.IsFree target) (hmessage : ControlSequence.IsFree message) :
    (entry level target message).IsFree :=
  ⟨htarget, hmessage⟩

theorem isDetail_planEntries {path start : String} {plan : Plan} {verdict : Verdict} {n : Notice}
    (h : n ∈ planEntries path start plan verdict) : n.IsDetail := by
  rw [planEntries, List.mem_append, List.mem_cons, List.mem_singleton] at h
  rcases h with (rfl | hpolicy) | rfl
  · exact isDetail_entry (by decide) _ _
  · obtain ⟨rc, -, rfl⟩ := List.mem_map.1 hpolicy
    exact isDetail_entry (by decide) _ _
  · exact isDetail_entry (by decide) _ _

/-- What is said before the plan is looked at: the path of the settings, the settings, the path of
the plan. -/
def opening (inv : Invocation) (settings : Settings) : List Notice :=
  (inv.settings.map settingsEntry).toList ++ [
    entry .debug programTarget ("planguard config: " ++ settings.describe),
    entry .info programTarget ("Validating " ++ inv.plan)]

theorem isDetail_opening {settings : Settings} {n : Notice} (h : n ∈ opening inv settings) :
    n.IsDetail := by
  rw [opening, List.mem_append, Option.mem_toList, Option.map_eq_some_iff] at h
  rcases h with ⟨path, -, rfl⟩ | h
  · exact isDetail_entry (by decide) _ _
  · rcases List.mem_pair.1 h with rfl | rfl
    · exact isDetail_entry (by decide) _ _
    · exact isDetail_entry (by decide) _ _

theorem isFree_opening {settings : Settings} {n : Notice} (hinv : inv.IsFree)
    (h : n ∈ opening inv settings) : n.IsFree := by
  rw [opening, List.mem_append, Option.mem_toList, Option.map_eq_some_iff] at h
  rcases h with ⟨path, hpath, rfl⟩ | h
  · exact isFree_entry _ (by decide) (IsFree.append (by decide) (hinv.2 path hpath))
  · rcases List.mem_pair.1 h with rfl | rfl
    · exact isFree_entry _ (by decide) (IsFree.append (by decide) settings.isFree_describe)
    · exact isFree_entry _ (by decide) (IsFree.append (by decide) hinv.1)

theorem ofInvocation_of_settingsError {e : SettingsError}
    (h : Settings.load files inv.settings = .error e) :
    ofInvocation files inv terminal shows = {
      notices := [.errorLine (Report.errorLine ("Failed to load configuration: " ++ e.message))]
      report := none
      status := .inputError } := by
  rw [ofInvocation, h]

theorem ofInvocation_of_planError {loaded : Settings} {e : PlanError}
    (hsettings : Settings.load files inv.settings = .ok loaded)
    (hplan : Plan.load files inv.plan = .error e) :
    ofInvocation files inv terminal shows = {
      notices := opening inv (loaded.override inv.addressStart inv.format) ++
        [entry .debug programTarget ("Unusable plan input " ++ e.path ++ ": " ++ e.describe),
          .errorLine (Report.inputError e)]
      report := none
      status := .inputError } := by
  simp only [ofInvocation, hsettings, withSettings, hplan, opening, List.append_assoc]

theorem ofInvocation_of_plan {loaded : Settings} {plan : Plan}
    (hsettings : Settings.load files inv.settings = .ok loaded)
    (hplan : Plan.load files inv.plan = .ok plan) :
    let settings := loaded.override inv.addressStart inv.format
    let verdict := (Guard.mk settings.addressStart).judge plan
    let color := !inv.noColor && terminal
    ofInvocation files inv terminal shows = {
      notices := opening inv settings ++ planEntries inv.plan settings.addressStart plan verdict
      report := some ((Report.mk settings.addressStart settings.format color shows).pieces verdict)
      status := verdict.status } := by
  simp only [ofInvocation, hsettings, withSettings, hplan, opening, List.append_assoc]

/-- What a run comes to that writes to no terminal is up to the settings, the plan and what the
command line says of them. -/
theorem ofInvocation_congr {inv' : Invocation} {shows' : Bool} (hplan : inv'.plan = inv.plan)
    (hsettings : inv'.settings = inv.settings) (hstart : inv'.addressStart = inv.addressStart)
    (hformat : inv'.format = inv.format) :
    ofInvocation files inv' false shows' = ofInvocation files inv false shows := by
  simp only [ofInvocation, hplan, hsettings, hstart, hformat, Bool.and_false, withSettings,
    Report.pieces_of_plain _ _ shows shows']

end Course

end DeletionGuard
