import DeletionGuard.Proofs.Json.Built

/-!
# What readers keep

What the readers that act on a cursor themselves keep is kept by all readers, and the faults that
these end with are those of a cursor that has kept it. A law about cursors and faults is then one
about what each of these few readers does, and no reader has to be taken apart for it.
-/

namespace DeletionGuard.Json

open Reader (Turn Step iterate runSteps)

/-- What comes of reading is a cursor of which `I` holds, or a fault of which `E` does. -/
def Ends {α : Type} (I : Cursor → Prop) (E : Fault → Prop) : Except Fault (α × Cursor) → Prop
  | .ok (_, c) => I c
  | .error f => E f

/-- `r` keeps `I`, and fails only with what satisfies `E`. -/
def Keeps {α : Type} (I : Cursor → Prop) (E : Fault → Prop) (r : Read α) : Prop :=
  ∀ c : Cursor, I c → Ends I E (r.run c)

variable {α β τ : Type} {I : Cursor → Prop} {E : Fault → Prop} {c : Cursor}

namespace Ends

theorem bind {p : Read α} {q : α → Read β} (hp : Ends I E (p.run c))
    (hq : ∀ a c', p.run c = .ok (a, c') → I c' → Ends I E ((q a).run c')) :
    Ends I E ((p >>= q).run c) := by
  rw [Reader.run_bind]
  cases hrun : p.run c with
  | error f => rwa [hrun] at hp
  | ok r =>
    rw [hrun] at hp
    exact hq r.1 r.2 hrun hp

theorem ite {C : Prop} [Decidable C] {r r' : Read α} (h : C → Ends I E (r.run c))
    (h' : ¬C → Ends I E (r'.run c)) : Ends I E ((if C then r else r').run c) := by
  by_cases hC : C
  · rw [if_pos hC]
    exact h hC
  · rw [if_neg hC]
    exact h' hC

end Ends

namespace Keeps

theorem ok {r : Read α} (h : Keeps I E r) {c' : Cursor} {a : α} (hc : I c)
    (hrun : r.run c = .ok (a, c')) : I c' := by
  have hends := h c hc
  rwa [hrun] at hends

theorem error {r : Read α} (h : Keeps I E r) {f : Fault} (hc : I c)
    (hrun : r.run c = .error f) : E f := by
  have hends := h c hc
  rwa [hrun] at hends

theorem bind {p : Read α} {q : α → Read β} (hp : Keeps I E p) (hq : ∀ a, Keeps I E (q a)) :
    Keeps I E (p >>= q) :=
  fun c hc => .bind (hp c hc) fun a c' _ hc' => hq a c' hc'

theorem ite {C : Prop} [Decidable C] {r r' : Read α} (h : Keeps I E r) (h' : Keeps I E r') :
    Keeps I E (if C then r else r') :=
  fun c hc => .ite (fun _ => h c hc) fun _ => h' c hc

theorem iterate {step : Step Cursor Fault τ α} (h : ∀ t, Keeps I E (step.turn t)) (t : τ) :
    Keeps I E (iterate step t) := by
  intro c hc
  change Ends I E (runSteps step t c)
  have hturn := h t c hc
  fun_induction runSteps step t c with
  | case1 t c f hrun => rwa [hrun] at hturn
  | case2 t c a c' hrun => rwa [hrun] at hturn
  | case3 t c t' c' hrun ih =>
    rw [hrun] at hturn
    exact ih hturn (h t' c' hturn)

end Keeps

/-- The readers that act on a cursor themselves keep `I`, and where they fail `E` holds. -/
structure IsKept (P : Cause → Prop) (I : Cursor → Prop) (E : Fault → Prop) : Prop where
  look : ∀ {c : Cursor}, I c → I c.look
  pass : ∀ {c : Cursor}, I c → I (c.pass 1)
  passLook : ∀ {c : Cursor} {n : Nat}, I c → n ≤ c.rest.length → I (c.pass n).look
  fail : ∀ {c : Cursor} {cause : Cause}, I c → cause.isPlain = true ∨ P cause →
    E ⟨cause, c.offset, c.seen⟩
  failAhead : ∀ {c : Cursor} {cause : Cause}, I c → cause.isPlain = true →
    E ⟨cause, c.seen, c.seen⟩
  failBehind : ∀ {c : Cursor} {n : Nat}, I c → P .invalidUtf8 →
    E ⟨.invalidUtf8, c.offset - n, c.offset - n⟩
  outOfRange : ∀ {c : Cursor} {n : Nat}, I c →
    E ⟨.numberOutOfRange, c.offset + (n + 1), c.offset + (n + 1)⟩

theorem Built.keeps {P : Cause → Prop} {r : Read α} (h : Built P r) (hkept : IsKept P I E) :
    Keeps I E r := by
  have htake (p : UInt8 → Bool) (c : Cursor) (hc : I c) :
      I (c.pass (c.rest.takeWhile p).length).look :=
    hkept.passLook hc (List.takeWhile_prefix p).length_le
  induction h with
  | pure a => exact fun c hc => hc
  | fail cause h => exact fun c hc => hkept.fail hc (.inl h)
  | failAhead cause h => exact fun c hc => hkept.failAhead hc h
  | failTelling cause h => exact fun c hc => hkept.fail hc (.inr h)
  | failBehind n h => exact fun c hc => hkept.failBehind hc h
  | peek => exact fun c hc => hkept.look hc
  | next =>
    intro c hc
    dsimp only [Read.next]
    cases c.rest with
    | nil => exact hc
    | cons b bs => exact hkept.pass hc
  | discard => exact fun c hc => hkept.pass hc
  | takeWhile p => exact htake p
  | exponentDigits outOfRange e =>
    intro c hc
    dsimp only [Read.exponentDigits]
    cases (appendDigits maxExponent e (c.rest.takeWhile isDigit)).2.isEmpty with
    | true => exact htake isDigit c hc
    | false =>
      cases outOfRange with
      | true => exact hkept.outOfRange hc
      | false => exact htake isDigit c hc
  | bind _ _ hp hq => exact .bind hp hq
  | iterate _ t hstep => exact .iterate hstep t

/-- A reader fails for a plain cause, or for one of those that it has been built with. -/
theorem Built.cause_of_error {P : Cause → Prop} {r : Read α} (h : Built P r) {f : Fault}
    (hrun : r.run c = .error f) : f.cause.isPlain = true ∨ P f.cause := by
  have hkept : IsKept P (fun _ => True) fun f => f.cause.isPlain = true ∨ P f.cause := by
    constructor
    · exact fun _ => trivial
    · exact fun _ => trivial
    · exact fun _ _ => trivial
    · exact fun _ h => h
    · exact fun _ h => .inl h
    · exact fun _ h => .inr h
    · exact fun _ => .inl rfl
  exact (h.keeps hkept).error trivial hrun

end DeletionGuard.Json
