import Mathlib.Data.List.FinRange
import Mathlib.Data.String.Basic
import DeletionGuard.Proofs.Text.Utf8
import DeletionGuard.Verdict

/-!
# What the policy says of a plan

The set of a change's actions has the members of the list it is made from, so a change is unsafe
exactly if its actions include a deletion: a replacement is no case of its own. From this follows
what violates the policy, how the violations of one plan relate to those of another, and what a
guard's verdict says of a plan.
-/

namespace DeletionGuard

/-! ### The set of actions -/

namespace ActionSet

theorem mem_insert {a b : String} {actions : List String} :
    a ∈ insert b actions ↔ a = b ∨ a ∈ actions := by
  induction actions with
  | nil => simp [insert]
  | cons c cs ih =>
    rw [insert]
    split
    · simp
    · split
      · next heq => simp [heq]
      · rw [List.mem_cons, ih, List.mem_cons]
        exact or_left_comm

theorem mem_ofList {a : String} {actions : List String} : a ∈ ofList actions ↔ a ∈ actions := by
  induction actions with
  | nil => rfl
  | cons b bs ih =>
    change a ∈ insert b (ofList bs) ↔ _
    rw [mem_insert, ih, List.mem_cons]

theorem pairwise_insert {a : String} {actions : List String} (h : actions.Pairwise (· < ·)) :
    (insert a actions).Pairwise (· < ·) := by
  induction actions with
  | nil => exact List.pairwise_singleton _ _
  | cons b bs ih =>
    obtain ⟨hb, hbs⟩ := List.pairwise_cons.1 h
    rw [insert]
    split
    · next hlt =>
      refine List.pairwise_cons.2 ⟨fun c hc => ?_, h⟩
      rcases List.mem_cons.1 hc with rfl | hc
      · exact hlt
      · exact lt_trans hlt (hb c hc)
    · next hnot =>
      split
      · exact h
      · next hne =>
        have hgt : b < a := lt_of_le_of_ne (not_lt.1 hnot) (Ne.symm hne)
        refine List.pairwise_cons.2 ⟨fun c hc => ?_, ih hbs⟩
        rcases mem_insert.1 hc with rfl | hc
        · exact hgt
        · exact hb c hc

theorem pairwise_ofList (actions : List String) : (ofList actions).Pairwise (· < ·) := by
  induction actions with
  | nil => exact .nil
  | cons a as ih => exact pairwise_insert ih

end ActionSet

theorem ResourceChange.pairwise_actionSet (rc : ResourceChange) :
    rc.actionSet.Pairwise fun a b => Utf8.ofString a < Utf8.ofString b :=
  (ActionSet.pairwise_ofList rc.actions).imp fun h =>
    Utf8.encode_lt_encode (String.lt_iff_toList_lt.1 h)

/-! ### What violates the policy -/

namespace Policy

theorem isUnsafe_iff {actions : List String} : isUnsafe actions = true ↔ "delete" ∈ actions := by
  have hreplacement : "delete" ∈ replacement := ActionSet.mem_ofList.2 (List.mem_cons_self ..)
  rw [isUnsafe, Bool.or_eq_true, List.contains_iff_mem, beq_iff_eq]
  constructor
  · rintro (h | rfl)
    · exact h
    · exact hreplacement
  · exact Or.inl

/-- What the policy forbids: to delete a resource whose address starts with `start`. -/
def Violates (start : String) (rc : ResourceChange) : Prop :=
  start.toList <+: rc.address.toList ∧ "delete" ∈ rc.actions

instance (start : String) (rc : ResourceChange) : Decidable (Violates start rc) :=
  inferInstanceAs (Decidable (_ ∧ _))

theorem violations_eq_filter (start : String) (plan : Plan) :
    violations start plan = plan.changes.filter (Violates start) := by
  refine List.filter_congr fun rc _ => ?_
  rw [Bool.eq_iff_iff, Bool.and_eq_true, isUnsafe_iff, ResourceChange.actionSet,
    ActionSet.mem_ofList, isProtected, List.isPrefixOf_iff_prefix, decide_eq_true_iff]
  rfl

theorem mem_violations {start : String} {plan : Plan} {rc : ResourceChange} :
    rc ∈ violations start plan ↔ rc ∈ plan.changes ∧ Violates start rc := by
  rw [violations_eq_filter, List.mem_filter, decide_eq_true_iff]

theorem violations_eq_nil_iff {start : String} {plan : Plan} :
    violations start plan = [] ↔ ∀ rc ∈ plan.changes, ¬ Violates start rc := by
  simp only [List.eq_nil_iff_forall_not_mem, mem_violations, not_and]

theorem violates_append {start more : String} {rc : ResourceChange} :
    Violates (start ++ more) rc ↔
      (start ++ more).toList <+: rc.address.toList ∧ Violates start rc := by
  have hshorter : start.toList <+: (start ++ more).toList := by
    rw [String.toList_append]
    exact List.prefix_append _ _
  constructor
  · rintro ⟨hstart, hdelete⟩
    exact ⟨hstart, hshorter.trans hstart, hdelete⟩
  · rintro ⟨hstart, -, hdelete⟩
    exact ⟨hstart, hdelete⟩

/-- The violations among changes in some order are those at the positions of changes that violate
the policy, in that order. -/
theorem violations_ofFn {n : Nat} (start : String) (rcs : Fin n → ResourceChange)
    (order : Fin n → Fin n) :
    violations start ⟨List.ofFn fun i => rcs (order i)⟩ =
      ((List.ofFn order).filter fun i => Violates start (rcs i)).map rcs := by
  have hchanges : (List.ofFn fun i => rcs (order i)) = (List.ofFn order).map rcs := by
    rw [List.map_ofFn]
    rfl
  rw [violations_eq_filter, hchanges, List.filter_map]
  rfl

theorem perm_violations {start : String} {plan plan' : Plan}
    (h : plan.changes.Perm plan'.changes) :
    (violations start plan).Perm (violations start plan') := by
  rw [violations_eq_filter, violations_eq_filter]
  exact h.filter _

/-- Changes of one resource by the same actions, whatever their order and repetition. -/
def SameActions (rc rc' : ResourceChange) : Prop :=
  rc.address = rc'.address ∧ ∀ a, a ∈ rc.actions ↔ a ∈ rc'.actions

theorem SameActions.violates_iff {start : String} {rc rc' : ResourceChange}
    (h : SameActions rc rc') : Violates start rc ↔ Violates start rc' := by
  rw [Violates, Violates, h.1, h.2]

end Policy

/-! ### The verdict -/

namespace Guard

variable {g : Guard} {plan : Plan}

theorem judge_cases (g : Guard) (plan : Plan) :
    g.judge plan = .success ∨ ∃ c cs, g.judge plan = .violations (c :: cs) := by
  rw [judge]
  split
  · exact .inl rfl
  · exact .inr ⟨_, _, rfl⟩

theorem changes_judge (g : Guard) (plan : Plan) :
    (g.judge plan).changes = Policy.violations g.addressStart plan := by
  rw [judge]
  split
  · next h => exact h.symm
  · next h => exact h.symm

theorem mem_changes_judge {rc : ResourceChange} :
    rc ∈ (g.judge plan).changes ↔ rc ∈ plan.changes ∧ Policy.Violates g.addressStart rc := by
  rw [changes_judge, Policy.mem_violations]

theorem status_judge_eq_success_iff :
    (g.judge plan).status = .success ↔
      ∀ rc ∈ plan.changes, ¬ Policy.Violates g.addressStart rc := by
  rw [← Policy.violations_eq_nil_iff, judge]
  split
  · next h => simp [Verdict.status, h]
  · next h => simp [Verdict.status, h]

theorem status_judge_eq_violationsFound_iff :
    (g.judge plan).status = .violationsFound ↔
      ∃ rc ∈ plan.changes, Policy.Violates g.addressStart rc := by
  have hnot : (∃ rc ∈ plan.changes, Policy.Violates g.addressStart rc) ↔
      (g.judge plan).status ≠ .success := by
    rw [Ne, status_judge_eq_success_iff]
    push Not
    rfl
  rw [hnot]
  cases g.judge plan <;> simp [Verdict.status]

theorem status_judge_congr {plan' : Plan}
    (h : List.Forall₂ Policy.SameActions plan.changes plan'.changes) :
    (g.judge plan).status = (g.judge plan').status := by
  have hnone : (∀ rc ∈ plan.changes, ¬ Policy.Violates g.addressStart rc) ↔
      ∀ rc ∈ plan'.changes, ¬ Policy.Violates g.addressStart rc := by
    generalize plan.changes = rcs, plan'.changes = rcs' at h
    induction h with
    | nil => rfl
    | cons hsame _ ih => rw [List.forall_mem_cons, List.forall_mem_cons, hsame.violates_iff, ih]
  have hsuccess : (g.judge plan).status = .success ↔ (g.judge plan').status = .success := by
    rw [status_judge_eq_success_iff, status_judge_eq_success_iff, hnone]
  cases hv : g.judge plan <;> cases hv' : g.judge plan' <;> simp_all [Verdict.status]

end Guard

/-! ### Plans compared -/

namespace Policy

/-- What violates the policy is decided change by change, by the set of actions and the beginning of
the address. -/
theorem violations_compared (start more : String) (plan plan' : Plan) :
    (∀ rc : ResourceChange,
      (rc.actionSet.Pairwise fun a b => Utf8.ofString a < Utf8.ofString b) ∧
      (∀ a, a ∈ rc.actionSet ↔ a ∈ rc.actions) ∧
      (isUnsafe rc.actionSet = true ↔ "delete" ∈ rc.actions)) ∧
    violations start plan = plan.changes.filter (fun rc =>
      start.toList <+: rc.address.toList ∧ "delete" ∈ rc.actions) ∧
    violations start ⟨plan.changes ++ plan'.changes⟩ =
      violations start plan ++ violations start plan' ∧
    violations (start ++ more) plan = (violations start plan).filter (fun rc =>
      (start ++ more).toList <+: rc.address.toList) ∧
    (∀ order : Equiv.Perm (Fin plan.changes.length),
      violations start ⟨List.ofFn fun i => plan.changes[order i]⟩ =
        ((List.ofFn order).filter fun i => Violates start plan.changes[i]).map
          (plan.changes[·])) ∧
    (plan.changes.Perm plan'.changes →
      (violations start plan).Perm (violations start plan')) ∧
    (List.Forall₂ SameActions plan.changes plan'.changes →
      List.Forall₂ (fun rc rc' => Violates start rc ↔ Violates start rc')
        plan.changes plan'.changes ∧
      ((Guard.mk start).judge plan).status.code = ((Guard.mk start).judge plan').status.code) := by
  refine ⟨fun rc => ⟨rc.pairwise_actionSet, fun a => ActionSet.mem_ofList, ?_⟩,
    violations_eq_filter start plan, ?_, ?_, ?_, perm_violations, ?_⟩
  · rw [isUnsafe_iff, ResourceChange.actionSet, ActionSet.mem_ofList]
  · simp only [violations_eq_filter, List.filter_append]
  · simp only [violations_eq_filter, List.filter_filter, violates_append, Bool.decide_and]
  · exact fun order => violations_ofFn start (plan.changes[·]) order
  · intro h
    exact ⟨h.imp fun _ _ hsame => hsame.violates_iff, by rw [Guard.status_judge_congr h]⟩

/-- A replacement that is written the other way round, and twice, is the same violation. -/
theorem violations_compared_replacement :
    let plan : Plan := ⟨[⟨"a.b", ["delete", "create"]⟩, ⟨"c", ["delete"]⟩]⟩
    let plan' : Plan := ⟨[⟨"a.b", ["create", "delete", "create"]⟩, ⟨"c", ["delete"]⟩]⟩
    List.Forall₂ SameActions plan.changes plan'.changes ∧
      ((Guard.mk "a.").judge plan).status.code = ((Guard.mk "a.").judge plan').status.code ∧
      (violations "" plan).Perm (violations "" ⟨plan.changes.reverse⟩) := by
  intro plan plan'
  have hsame : List.Forall₂ SameActions plan.changes plan'.changes := by
    refine .cons ⟨rfl, fun a => ?_⟩ (.cons ⟨rfl, fun a => Iff.rfl⟩ .nil)
    simp [or_comm]
  obtain ⟨-, -, -, -, -, -, hcode⟩ := violations_compared "a." "" plan plan'
  obtain ⟨-, -, -, -, -, hperm, -⟩ := violations_compared "" "" plan ⟨plan.changes.reverse⟩
  exact ⟨hsame, (hcode hsame).2, hperm (List.reverse_perm _).symm⟩

end Policy

end DeletionGuard
