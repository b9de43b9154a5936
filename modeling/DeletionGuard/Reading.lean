/-!
# Readers

A reader takes a state that something is left to be read of, and fails or gives a value and the
state after it. It never moves back: what is left does not grow. `iterate` repeats a step for as
long as the step asks for it, and ends because a step that asks for another has moved on.
-/

namespace DeletionGuard

/-- States with a measure of what is left to be read. -/
class Measured (σ : Type) where
  left : σ → Nat

open Measured (left)

/-- A computation that reads on from a state, or fails. -/
structure Reader (σ ε : Type) [Measured σ] (α : Type) where
  run : σ → Except ε (α × σ)
  forward : ∀ s a s', run s = .ok (a, s') → left s' ≤ left s

namespace Reader

variable {σ ε α β : Type} [Measured σ]

instance : Monad (Reader σ ε) where
  pure a := {
    run := fun s => .ok (a, s)
    forward := by intro s a' s' h; cases h; exact Nat.le_refl _ }
  bind p q := {
    run := fun s =>
      match p.run s with
      | .error e => .error e
      | .ok (a, s') => (q a).run s'
    forward := by
      intro s b s' h
      split at h
      · cases h
      · rename_i a s₁ h₁
        exact Nat.le_trans ((q a).forward _ _ _ h) (p.forward _ _ _ h₁) }

theorem run_pure (a : α) (s : σ) : (pure a : Reader σ ε α).run s = .ok (a, s) := rfl

theorem run_bind (p : Reader σ ε α) (q : α → Reader σ ε β) (s : σ) :
    (p >>= q).run s =
      match p.run s with
      | .error e => .error e
      | .ok (a, s') => (q a).run s' := rfl

theorem run_bind_eq_ok {p : Reader σ ε α} {q : α → Reader σ ε β} {s : σ} {r : β × σ} :
    (p >>= q).run s = .ok r ↔ ∃ a s', p.run s = .ok (a, s') ∧ (q a).run s' = .ok r := by
  rw [run_bind]
  split <;> simp_all [and_assoc]

/-- Fails with an error that depends on where the reader stands. -/
def failWith (e : σ → ε) : Reader σ ε α where
  run s := .error (e s)
  forward _ _ _ h := nomatch h

/-- The state itself. -/
def here : Reader σ ε σ where
  run s := .ok (s, s)
  forward _ _ _ h := by cases h; exact Nat.le_refl _

/-- Changes the state in a way that leaves no more to be read. -/
def update (f : σ → σ) (le : ∀ s, left (f s) ≤ left s) : Reader σ ε Unit where
  run s := .ok ((), f s)
  forward s _ _ h := by cases h; exact le s

/-! ## Moving on -/

/-- A reader that moves on if its value satisfies `P`. -/
def PassesIf (P : α → Prop) (p : Reader σ ε α) : Prop :=
  ∀ s a s', p.run s = .ok (a, s') → P a → left s' < left s

/-- A reader that moves on. -/
abbrev Passes (p : Reader σ ε α) : Prop := PassesIf (fun _ => True) p

theorem PassesIf.pure {P : α → Prop} {a : α} (h : ¬ P a) :
    PassesIf P (pure a : Reader σ ε α) := by
  intro s a' s' e ha
  cases e
  exact absurd ha h

theorem PassesIf.failWith {P : α → Prop} (e : σ → ε) : PassesIf P (failWith e : Reader σ ε α) :=
  fun _ _ _ h => nomatch h

theorem Passes.bind {p : Reader σ ε α} (hp : Passes p) (q : α → Reader σ ε β) {P : β → Prop} :
    PassesIf P (p >>= q) := by
  intro s b s' h _
  obtain ⟨a, s₁, h₁, h₂⟩ := run_bind_eq_ok.1 h
  exact Nat.lt_of_le_of_lt ((q a).forward _ _ _ h₂) (hp _ _ _ h₁ trivial)

theorem PassesIf.after (p : Reader σ ε α) {q : α → Reader σ ε β} {P : β → Prop}
    (hq : ∀ a, PassesIf P (q a)) : PassesIf P (p >>= q) := by
  intro s b s' h hb
  obtain ⟨a, s₁, h₁, h₂⟩ := run_bind_eq_ok.1 h
  exact Nat.lt_of_lt_of_le (hq a _ _ _ h₂ hb) (p.forward _ _ _ h₁)

/-- What moves on in its first part moves on, if its other part does where the first need not. -/
theorem PassesIf.bindIf {p : Reader σ ε α} {q : α → Reader σ ε β} {Q : α → Prop} {P : β → Prop}
    (hp : PassesIf Q p) (hq : ∀ a, ¬ Q a → PassesIf P (q a)) : PassesIf P (p >>= q) := by
  intro s b s' h hb
  obtain ⟨a, s₁, h₁, h₂⟩ := run_bind_eq_ok.1 h
  by_cases ha : Q a
  · exact Nat.lt_of_le_of_lt ((q a).forward _ _ _ h₂) (hp _ _ _ h₁ ha)
  · exact Nat.lt_of_lt_of_le (hq a ha _ _ _ h₂ hb) (p.forward _ _ _ h₁)

/-! ## Repetition -/

/-- How a step of a repetition ends. -/
inductive Turn (τ α : Type) where
  | again (t : τ)
  | done (a : α)

def Turn.IsAgain {τ α : Type} : Turn τ α → Prop
  | again _ => True
  | done _ => False

/-- A step of a repetition, which moves on if it asks for another step. -/
structure Step (σ ε : Type) [Measured σ] (τ α : Type) where
  turn : τ → Reader σ ε (Turn τ α)
  passes : ∀ t, PassesIf Turn.IsAgain (turn t)

variable {τ : Type}

def runSteps (step : Step σ ε τ α) (t : τ) (s : σ) : Except ε (α × σ) :=
  match _h : (step.turn t).run s with
  | .error e => .error e
  | .ok (.done a, s') => .ok (a, s')
  | .ok (.again t', s') => runSteps step t' s'
termination_by left s
decreasing_by exact step.passes t _ _ _ _h trivial

theorem forward_runSteps (step : Step σ ε τ α) (t : τ) (s : σ) (a : α) (s' : σ)
    (h : runSteps step t s = .ok (a, s')) : left s' ≤ left s := by
  fun_induction runSteps step t s with
  | case1 => cases h
  | case2 t s a' s₁ h₁ => cases h; exact (step.turn t).forward _ _ _ h₁
  | case3 t s t' s₁ h₁ ih => exact Nat.le_trans (ih h) ((step.turn t).forward _ _ _ h₁)

def iterate (step : Step σ ε τ α) (t : τ) : Reader σ ε α where
  run := runSteps step t
  forward := forward_runSteps step t

end Reader

end DeletionGuard
