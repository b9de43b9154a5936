import DeletionGuard.Reading

/-!
# Running readers

What a reader does once it is known what its first part does: a sequence goes on with the value and
the state of its first reader, or ends with its fault, and a repetition goes on with those of its
first turn.
-/

namespace DeletionGuard.Reader

variable {σ ε α β τ : Type} [Measured σ] {s r : σ}

theorem run_bind_of_eq {p : Reader σ ε α} {a : α} (h : p.run s = .ok (a, r))
    (q : α → Reader σ ε β) : (p >>= q).run s = (q a).run r := by
  rw [run_bind, h]

theorem run_bind_of_error {p : Reader σ ε α} {e : ε} (h : p.run s = .error e)
    (q : α → Reader σ ε β) : (p >>= q).run s = .error e := by
  rw [run_bind, h]

theorem run_ite {P : Prop} [Decidable P] (p q : Reader σ ε α) (s : σ) :
    (if P then p else q).run s = if P then p.run s else q.run s := by
  split <;> rfl

/-! ### Repetition -/

variable {step : Step σ ε τ α} {t t' : τ} {a : α}

theorem run_iterate (step : Step σ ε τ α) (t : τ) (s : σ) :
    (iterate step t).run s =
      match (step.turn t).run s with
      | .error e => .error e
      | .ok (.done a, s') => .ok (a, s')
      | .ok (.again t', s') => (iterate step t').run s' := by
  change runSteps step t s = _
  rw [runSteps]
  split <;> simp_all [iterate]

theorem run_iterate_again (h : (step.turn t).run s = .ok (.again t', r)) :
    (iterate step t).run s = (iterate step t').run r := by
  rw [run_iterate, h]

theorem run_iterate_done (h : (step.turn t).run s = .ok (.done a, r)) :
    (iterate step t).run s = .ok (a, r) := by
  rw [run_iterate, h]

end DeletionGuard.Reader
