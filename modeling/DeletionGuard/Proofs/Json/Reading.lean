import DeletionGuard.Json.Cursor
import DeletionGuard.Proofs.Reading
import DeletionGuard.Proofs.Text.Utf8

/-!
# Readers before a text

What readers do where the bytes that are left are those of a text. `Becomes` is a step: before one
text a reader does what another one does before another text. A chain of steps that ends in a value
says that the reader gives it, one that ends in a failing reader that it refuses the text, and
`Gives` covers both. `RefusesFor` also tells why. `Yields` goes the other way and says what is known
once a reader has succeeded. The places that a cursor keeps have no part in any of them.
-/

namespace DeletionGuard.Json

open Reader (Turn Step iterate runSteps)

variable {α β τ : Type}

namespace Read

/-! ### Steps -/

/-- Before `cs`, `r` does what `r'` does before `cs'`. -/
def Becomes (r : Read α) (cs : List Char) (r' : Read α) (cs' : List Char) : Prop :=
  ∀ c : Cursor, c.rest = Utf8.encode cs →
    ∃ c' : Cursor, c'.rest = Utf8.encode cs' ∧ r.run c = r'.run c'

/-- Before `cs`, `r` fails. -/
def Refuses (r : Read α) (cs : List Char) : Prop :=
  ∀ c : Cursor, c.rest = Utf8.encode cs → ∃ fault, r.run c = .error fault

/-- Before `cs`, `r` fails for this cause. -/
def RefusesFor (r : Read α) (cs : List Char) (cause : Cause) : Prop :=
  ∀ c : Cursor, c.rest = Utf8.encode cs → ∃ fault, r.run c = .error fault ∧ fault.cause = cause

/-- Before `cs`, `r` gives what `value?` holds and leaves `rest`, or fails if it holds nothing. -/
def Gives (r : Read α) (cs : List Char) (value? : Option α) (rest : List Char) : Prop :=
  match value? with
  | some a => Becomes r cs (pure a) rest
  | none => Refuses r cs

/-- If `r` succeeds before `cs`, its value and what it leaves satisfy `Q`. -/
def Yields (r : Read α) (cs : List Char) (Q : α → List Char → Prop) : Prop :=
  ∀ c : Cursor, c.rest = Utf8.encode cs → ∀ a c', r.run c = .ok (a, c') →
    ∃ rest, c'.rest = Utf8.encode rest ∧ Q a rest

variable {r r' r'' p p' : Read α} {q : α → Read β} {a : α} {cs cs' cs'' mid rest : List Char}

theorem Becomes.refl (r : Read α) (cs : List Char) : Becomes r cs r cs :=
  fun c h => ⟨c, h, rfl⟩

theorem Becomes.trans (h : Becomes r cs r' cs') (h' : Becomes r' cs' r'' cs'') :
    Becomes r cs r'' cs'' := by
  intro c hc
  obtain ⟨c', hc', hrun⟩ := h c hc
  obtain ⟨c'', hc'', hrun'⟩ := h' c' hc'
  exact ⟨c'', hc'', hrun.trans hrun'⟩

theorem Becomes.bind (h : Becomes p cs p' mid) : Becomes (p >>= q) cs (p' >>= q) mid := by
  intro c hc
  obtain ⟨c', hc', hrun⟩ := h c hc
  exact ⟨c', hc', by rw [Reader.run_bind, Reader.run_bind, hrun]⟩

/-- A first part that gives a value is passed. -/
theorem Becomes.then (h : Becomes p cs (pure a) mid) : Becomes (p >>= q) cs (q a) mid :=
  h.bind

theorem Becomes.ite_pos {P : Prop} [Decidable P] (h : P) :
    Becomes (if P then r else r') cs r cs := by
  rw [if_pos h]
  exact Becomes.refl _ _

theorem Becomes.ite_neg {P : Prop} [Decidable P] (h : ¬ P) :
    Becomes (if P then r else r') cs r' cs := by
  rw [if_neg h]
  exact Becomes.refl _ _

theorem Becomes.refuses (h : Becomes r cs r' cs') (h' : Refuses r' cs') : Refuses r cs := by
  intro c hc
  obtain ⟨c', hc', hrun⟩ := h c hc
  rw [hrun]
  exact h' c' hc'

theorem Refuses.bind (h : Refuses p cs) : Refuses (p >>= q) cs := by
  intro c hc
  obtain ⟨fault, hfault⟩ := h c hc
  exact ⟨fault, by rw [Reader.run_bind, hfault]⟩

theorem refuses_failWith (e : Cursor → Fault) : Refuses (Reader.failWith e : Read α) cs :=
  fun c _ => ⟨e c, rfl⟩

theorem refuses_fail (cause : Cause) : Refuses (fail cause : Read α) cs :=
  refuses_failWith _

theorem refuses_failAhead (cause : Cause) : Refuses (failAhead cause : Read α) cs :=
  refuses_failWith _

theorem refuses_failBehind (n : Nat) (cause : Cause) : Refuses (failBehind n cause : Read α) cs :=
  refuses_failWith _

theorem Becomes.gives {value? : Option α} (h : Becomes r cs r' cs')
    (h' : Gives r' cs' value? rest) : Gives r cs value? rest := by
  cases value? with
  | none => exact h.refuses h'
  | some a => exact h.trans h'

/-- What follows a reader changes the value that it gives, and cannot fail. -/
theorem Gives.map {value? : Option α} {f : α → β} (hp : Gives p cs value? mid)
    (hq : ∀ a, Becomes (q a) mid (pure (f a)) rest) : Gives (p >>= q) cs (value?.map f) rest := by
  cases value? with
  | none => exact Refuses.bind hp
  | some a => exact (Becomes.then hp).trans (hq a)

/-! ### Repetition -/

variable {step : Step Cursor Fault τ α} {t t' : τ}

theorem Becomes.again (h : Becomes (step.turn t) cs (pure (.again t')) mid) :
    Becomes (iterate step t) cs (iterate step t') mid := by
  intro c hc
  obtain ⟨c', hc', hrun⟩ := h c hc
  exact ⟨c', hc', by rw [Reader.run_iterate, hrun, Reader.run_pure]⟩

theorem Becomes.done (h : Becomes (step.turn t) cs (pure (.done a)) mid) :
    Becomes (iterate step t) cs (pure a) mid := by
  intro c hc
  obtain ⟨c', hc', hrun⟩ := h c hc
  exact ⟨c', hc', by rw [Reader.run_iterate, hrun, Reader.run_pure, Reader.run_pure]⟩

theorem Refuses.iterate (h : Refuses (step.turn t) cs) : Refuses (iterate step t) cs := by
  intro c hc
  obtain ⟨fault, hfault⟩ := h c hc
  exact ⟨fault, by rw [Reader.run_iterate, hfault]⟩

/-! ### Causes -/

variable {cause : Cause}

theorem refusesFor_fail (cause : Cause) : RefusesFor (fail cause : Read α) cs cause :=
  fun c _ => ⟨⟨cause, c.offset, c.seen⟩, rfl, rfl⟩

theorem Becomes.refusesFor (h : Becomes r cs r' cs') (h' : RefusesFor r' cs' cause) :
    RefusesFor r cs cause := by
  intro c hc
  obtain ⟨c', hc', hrun⟩ := h c hc
  rw [hrun]
  exact h' c' hc'

theorem RefusesFor.bind (h : RefusesFor p cs cause) : RefusesFor (p >>= q) cs cause := by
  intro c hc
  obtain ⟨fault, hfault, hcause⟩ := h c hc
  exact ⟨fault, Reader.run_bind_of_error hfault q, hcause⟩

theorem RefusesFor.iterate (h : RefusesFor (step.turn t) cs cause) :
    RefusesFor (iterate step t) cs cause := by
  intro c hc
  obtain ⟨fault, hfault, hcause⟩ := h c hc
  exact ⟨fault, by rw [Reader.run_iterate, hfault], hcause⟩

/-! ### What a success tells -/

variable {P : α → List Char → Prop} {Q : β → List Char → Prop}

theorem Yields.mono {P' : α → List Char → Prop} (h : Yields r cs P)
    (hP : ∀ a rest, P a rest → P' a rest) : Yields r cs P' := by
  intro c hc a c' hrun
  obtain ⟨rest, hrest, ha⟩ := h c hc a c' hrun
  exact ⟨rest, hrest, hP a rest ha⟩

theorem Yields.pure (h : P a cs) : Yields (pure a) cs P := by
  intro c hc b c' hrun
  cases hrun
  exact ⟨cs, hc, h⟩

theorem Refuses.yields (h : Refuses r cs) : Yields r cs P := by
  intro c hc a c' hrun
  obtain ⟨fault, hfault⟩ := h c hc
  rw [hfault] at hrun
  cases hrun

theorem Yields.ite {C : Prop} [Decidable C] (h : C → Yields r cs P) (h' : ¬ C → Yields r' cs P) :
    Yields (if C then r else r') cs P := by
  split
  · next hC => exact h hC
  · next hC => exact h' hC

theorem Becomes.yields (h : Becomes r cs r' cs') (h' : Yields r' cs' P) : Yields r cs P := by
  intro c hc a c' hrun
  obtain ⟨c₁, hc₁, hrun₁⟩ := h c hc
  exact h' c₁ hc₁ a c' (hrun₁ ▸ hrun)

theorem Yields.bind (hp : Yields p cs P) (hq : ∀ a mid, P a mid → Yields (q a) mid Q) :
    Yields (p >>= q) cs Q := by
  intro c hc b c' hrun
  obtain ⟨a, c₁, hrun₁, hrun₂⟩ := Reader.run_bind_eq_ok.1 hrun
  obtain ⟨mid, hmid, ha⟩ := hp c hc a c₁ hrun₁
  exact hq a mid ha c₁ hmid b c' hrun₂

/-- What a turn tells: `D` if it is the last one, and `K` if another one follows. -/
def Turned (D : α → List Char → Prop) (K : τ → List Char → Prop) : Turn τ α → List Char → Prop
  | .done a, mid => D a mid
  | .again t, mid => K t mid

/-- A repetition is its first turn and, unless that is the last one, the repetition after it. -/
theorem Yields.turn
    (h : Yields (step.turn t) cs
      (Turned P fun t' mid => Yields (Reader.iterate step t') mid P)) :
    Yields (Reader.iterate step t) cs P := by
  intro c hc a c' hrun
  rw [Reader.run_iterate] at hrun
  split at hrun
  · cases hrun
  · next a' c₁ hstep =>
    cases hrun
    exact h c hc _ _ hstep
  · next t' c₁ hstep =>
    obtain ⟨mid, hmid, hnext⟩ := h c hc _ _ hstep
    exact hnext c₁ hmid a c' hrun

/-- What holds of a repetition if a turn that is done makes it true and one that is not passes it
on. -/
theorem Yields.iterate {Q : τ → List Char → α → List Char → Prop}
    (hturn : ∀ t cs, Yields (step.turn t) cs
      (Turned (Q t cs) fun t' mid => ∀ a rest, Q t' mid a rest → Q t cs a rest))
    (t : τ) (cs : List Char) : Yields (iterate step t) cs (Q t cs) := by
  intro c hc a c' hrun
  change runSteps step t c = _ at hrun
  fun_induction runSteps step t c generalizing cs with
  | case1 => cases hrun
  | case2 t c a' c₁ hstep =>
    cases hrun
    exact hturn t cs c hc _ _ hstep
  | case3 t c t' c₁ hstep ih =>
    obtain ⟨mid, hmid, hnext⟩ := hturn t cs c hc _ _ hstep
    obtain ⟨rest, hrest, ha⟩ := ih mid hmid hrun
    exact ⟨rest, hrest, hnext a rest ha⟩

end Read

end DeletionGuard.Json
