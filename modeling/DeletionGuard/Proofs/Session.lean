import DeletionGuard.Proofs.Policy
import DeletionGuard.Session

/-!
# What a session keeps

The guard, the settings and the verdict of a session are set by different operations, and some of
these can fail. The verdict is at any time the one on the plan that was judged last, by the guard
that the session had then, whatever has become of guard and settings since. What fails and what only
renders leaves a session as it was.
-/

namespace DeletionGuard

/-- Answers that say why there is no result. -/
inductive Answer.IsFailure : Answer → Prop
  | fault (f : Json.LocatedFault) : IsFailure (.fault f)
  | planError (e : PlanError) : IsFailure (.planError e)
  | unknownFormat (word : String) : IsFailure (.unknownFormat word)
  | settingsError (e : SettingsError) : IsFailure (.settingsError e)
  | refusal (r : Refusal) (message : String) : IsFailure (.refusal r message)

/-- Operations that write something out, to the end or not. -/
inductive Operation.Renders : Operation → Prop
  | render (verdict : Verdict) (how : Rendering) : Renders (.render verdict how)
  | renderLast (how : Rendering) : Renders (.renderLast how)
  | errorLine (message : String) (how : Rendering) : Renders (.errorLine message how)
  | inputError (path : String) (text : Option String) (how : Rendering) :
    Renders (.inputError path text how)

namespace Session

variable {s : Session} {op : Operation} {plan : Plan}

def after (s : Session) (ops : List Operation) : Session :=
  (s.performAll ops).1

/-! ### One operation -/

theorem perform_override (s : Session) (start word : Option String) :
    (∃ w, word = some w ∧ Format.ofWord? w = none ∧
      s.perform (.override start word) = (s, .unknownFormat w)) ∨
    ∃ settings, s.perform (.override start word) =
      ({ s with settings, guard := ⟨settings.addressStart⟩ }, .settings settings) := by
  cases word with
  | none => exact .inr ⟨_, rfl⟩
  | some w =>
    cases hw : Format.ofWord? w with
    | none =>
      refine .inl ⟨w, rfl, hw, ?_⟩
      simp only [perform, Option.bind_some, hw]
    | some format =>
      refine .inr ⟨s.settings.override start (some format), ?_⟩
      simp only [perform, Option.bind_some, hw]

/-- What fails leaves the session as it is. -/
theorem perform_of_isFailure (h : (s.perform op).2.IsFailure) : (s.perform op).1 = s := by
  cases op with
  | parse | load | validate | format | loadSettings | commandLine =>
    rw [perform] at h ⊢
    split at h
    · cases h
    · rfl
  | override start word =>
    obtain ⟨w, -, -, heq⟩ | ⟨settings, heq⟩ := s.perform_override start word
    · rw [heq]
    · rw [heq] at h
      cases h
  | _ => cases h

theorem perform_of_renders (h : op.Renders) : (s.perform op).1 = s := by
  cases h with
  | render | renderLast | errorLine | inputError => rfl

/-! ### What is judged -/

/-- An operation and the session that performs it. -/
structure Moment where
  session : Session
  operation : Operation

namespace Moment

variable {m : Moment}

def next (m : Moment) : Session := (m.session.perform m.operation).1

def answer (m : Moment) : Answer := (m.session.perform m.operation).2

/-- The guard of the session judges a plan: one that is given, or one that could be loaded. -/
inductive Judges : Moment → Plan → Prop
  | judge (s : Session) (plan : Plan) : Judges ⟨s, .judge plan⟩ plan
  | validate {s : Session} {path : String} {plan : Plan}
      (loaded : Plan.load s.files.lookup path = .ok plan) : Judges ⟨s, .validate path⟩ plan

def JudgesNothing (m : Moment) : Prop :=
  ∀ plan, ¬ m.Judges plan

theorem Judges.perform_eq (h : m.Judges plan) :
    m.session.perform m.operation = ({ m.session with verdict := m.session.guard.judge plan },
      .verdict (m.session.guard.judge plan)) := by
  cases h with
  | judge => rfl
  | validate loaded => simp only [perform, loaded]

theorem JudgesNothing.verdict_next (h : m.JudgesNothing)
    (hsingle : ∀ steps, m.operation ≠ .session steps) : m.next.verdict = m.session.verdict := by
  obtain ⟨s, op⟩ := m
  cases op with
  | judge plan => exact absurd (.judge s plan) (h plan)
  | validate path =>
    rw [next, perform]
    split
    · next plan loaded => exact absurd (.validate loaded) (h plan)
    · rfl
  | override start word =>
    obtain ⟨w, -, -, heq⟩ | ⟨settings, heq⟩ := s.perform_override start word
    · rw [next, heq]
    · rw [next, heq]
  | parse | load | format | loadSettings | commandLine =>
    rw [next, perform]
    split
    all_goals rfl
  | session steps => exact absurd rfl (hsingle steps)
  | _ => rfl

end Moment

/-! ### What has been judged last -/

mutual

/-- The moments of one operation: those of its steps if it is a session of its own. -/
def momentsOf (s : Session) : Operation → List Moment
  | .session steps => s.moments steps
  | op => [⟨s, op⟩]

/-- The operations in the order in which they are performed, each with the session that has come of
those before it. -/
def moments (s : Session) : List Operation → List Moment
  | [] => []
  | op :: ops => s.momentsOf op ++ (s.perform op).1.moments ops

end

/-- A verdict `v` becomes `v'`: it is kept if nothing is judged, and else becomes the one on the plan
that is judged last. -/
inductive Leaves : List Moment → Verdict → Verdict → Prop
  | kept {ms : List Moment} {v : Verdict} (nothing : ∀ m ∈ ms, m.JudgesNothing) : Leaves ms v v
  | judged (before : List Moment) {m : Moment} {plan : Plan} {after : List Moment} {v : Verdict}
      (judges : m.Judges plan) (nothing : ∀ m' ∈ after, m'.JudgesNothing) :
      Leaves (before ++ m :: after) v (m.session.guard.judge plan)

theorem Leaves.append {ms ms' : List Moment} {v v' v'' : Verdict} (h : Leaves ms v v')
    (h' : Leaves ms' v' v'') : Leaves (ms ++ ms') v v'' := by
  cases h' with
  | kept nothing' =>
    cases h with
    | kept nothing =>
      apply Leaves.kept
      rw [List.forall_mem_append]
      exact ⟨nothing, nothing'⟩
    | judged before judges nothing =>
      rw [List.append_assoc, List.cons_append]
      apply Leaves.judged before judges
      rw [List.forall_mem_append]
      exact ⟨nothing, nothing'⟩
  | judged before judges nothing =>
    rw [← List.append_assoc]
    exact .judged (ms ++ before) judges nothing

theorem Leaves.success_or_violations {ms : List Moment} {v : Verdict} (h : Leaves ms .success v) :
    v = .success ∨ ∃ c cs, v = .violations (c :: cs) := by
  cases h with
  | kept => exact .inl rfl
  | @judged _ m plan => exact m.session.guard.judge_cases plan

/-- A verdict that has become of success is what was answered when a plan was judged last. -/
theorem Leaves.exists_judged {ms : List Moment} {v : Verdict} (h : Leaves ms .success v) :
    (∀ m ∈ ms, m.JudgesNothing) ∧ v = .success ∨
      ∃ before m after plan, ms = before ++ m :: after ∧ m.Judges plan ∧
        (∀ m' ∈ after, m'.JudgesNothing) ∧ m.answer = .verdict v ∧
        v = m.session.guard.judge plan := by
  cases h with
  | kept nothing => exact .inl ⟨nothing, rfl⟩
  | @judged before m plan after _ judges nothing =>
    have hanswer : m.answer = .verdict (m.session.guard.judge plan) := by
      rw [Moment.answer, judges.perform_eq]
    exact .inr ⟨before, m, after, plan, rfl, judges, nothing, hanswer, rfl⟩

theorem leaves_single (m : Moment) (hsingle : ∀ steps, m.operation ≠ .session steps) :
    Leaves [m] m.session.verdict m.next.verdict := by
  by_cases h : m.JudgesNothing
  · rw [h.verdict_next hsingle]
    exact .kept (List.forall_mem_singleton.2 h)
  · obtain ⟨plan, hplan⟩ := Classical.not_forall_not.1 h
    rw [Moment.next, hplan.perform_eq]
    exact .judged [] hplan (List.forall_mem_nil _)

mutual

theorem leaves_momentsOf (s : Session) (op : Operation) :
    Leaves (s.momentsOf op) s.verdict (s.perform op).1.verdict := by
  cases op with
  | session steps => exact leaves_moments s steps
  | _ => exact leaves_single ⟨s, _⟩ nofun

theorem leaves_moments (s : Session) (ops : List Operation) :
    Leaves (s.moments ops) s.verdict (s.after ops).verdict := by
  cases ops with
  | nil => exact .kept (List.forall_mem_nil _)
  | cons op ops => exact (leaves_momentsOf s op).append (leaves_moments (s.perform op).1 ops)

end

/-- A session has the verdict of the last judgement, by the guard of that moment; failures and
renderings leave it as it is. -/
theorem after_consistent (files : FileStore) (guard : Guard) (settings : Settings)
    (ops : List Operation) :
    let start : Session := { files, guard, settings }
    let s := start.after ops
    (s.verdict = .success ∨ ∃ c cs, s.verdict = .violations (c :: cs)) ∧
    ((∀ m ∈ start.moments ops, m.JudgesNothing) ∧ s.verdict = .success ∨
      ∃ before m after plan, start.moments ops = before ++ m :: after ∧ m.Judges plan ∧
        (∀ m' ∈ after, m'.JudgesNothing) ∧
        m.answer = .verdict s.verdict ∧ s.verdict = m.session.guard.judge plan ∧
        ∀ rc ∈ s.verdict.changes, rc ∈ plan.changes ∧
          m.session.guard.addressStart.toList <+: rc.address.toList ∧ "delete" ∈ rc.actions) ∧
    (∀ op, (s.perform op).2.IsFailure → (s.perform op).1 = s) ∧
    (∀ op : Operation, op.Renders → (s.perform op).1 = s) ∧
    ∀ addressStart word, let (s', answer) := s.perform (.override addressStart word)
      s'.guard.addressStart = s'.settings.addressStart ∨
        ∃ w, word = some w ∧ Format.ofWord? w = none ∧ answer = .unknownFormat w := by
  intro start s
  have hleaves : Leaves (start.moments ops) .success s.verdict := start.leaves_moments ops
  refine ⟨hleaves.success_or_violations, ?_, fun _ h => perform_of_isFailure h,
    fun _ h => perform_of_renders h, ?_⟩
  · obtain hnothing | ⟨before, m, after, plan, hms, hm, hafter, hanswer, hverdict⟩ :=
      hleaves.exists_judged
    · exact .inl hnothing
    · refine .inr ⟨before, m, after, plan, hms, hm, hafter, hanswer, hverdict, ?_⟩
      intro rc hrc
      rw [hverdict, Guard.mem_changes_judge] at hrc
      exact hrc
  · intro addressStart word
    obtain ⟨w, hword, hformat, heq⟩ | ⟨settings', heq⟩ := s.perform_override addressStart word
    · rw [heq]
      exact .inr ⟨w, hword, hformat, rfl⟩
    · rw [heq]
      exact .inl rfl

/-- Neither another guard nor a format that is none nor a sink without room changes the verdict. -/
theorem after_consistent_unknownFormat :
    let s := after {} [.newGuard (some "a."),
      .judge ⟨[⟨"a.b", ["delete"]⟩, ⟨"c.d", ["delete"]⟩]⟩, .newGuard (some "c.")]
    s.verdict = .violations [⟨"a.b", ["delete"]⟩] ∧
      (s.perform (.override none (some "xml"))).1 = s ∧
      (s.perform (.renderLast ⟨none, none, false, false, some 0⟩)).1 = s := by
  intro s
  obtain ⟨-, -, hfails, hrenders, -⟩ := after_consistent .empty {} {} [.newGuard (some "a."),
    .judge ⟨[⟨"a.b", ["delete"]⟩, ⟨"c.d", ["delete"]⟩]⟩, .newGuard (some "c.")]
  refine ⟨by decide, ?_, ?_⟩
  · apply hfails
    exact .unknownFormat "xml"
  · apply hrenders
    exact .renderLast _

end Session

end DeletionGuard
