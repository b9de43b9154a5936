import DeletionGuard.Proofs.Json.Kept

/-!
# Where faults are placed

A cursor has looked at one byte at most that it has not passed. So the two places of a fault, in a
document in memory and in a stream, are the same or one byte apart.
-/

namespace DeletionGuard.Json

/-- No byte has been looked at but those that have been passed, and perhaps the next one. -/
def Cursor.IsNear (c : Cursor) : Prop :=
  c.offset ≤ c.seen ∧ c.seen ≤ c.offset + 1

/-- A stream has taken no more than one byte behind the place in memory. -/
def Fault.IsNear (f : Fault) : Prop :=
  f.inMemory ≤ f.inStream ∧ f.inStream ≤ f.inMemory + 1

theorem Cursor.isNear_start (bytes : List UInt8) : (start bytes).IsNear :=
  ⟨Nat.le_refl 0, Nat.zero_le 1⟩

theorem Cursor.isNear_pass (c : Cursor) (n : Nat) : (c.pass n).IsNear :=
  ⟨Nat.le_refl _, Nat.le_succ _⟩

theorem Cursor.IsNear.look {c : Cursor} (h : c.IsNear) : c.look.IsNear := by
  rw [Cursor.look]
  split
  · exact h
  · exact ⟨Nat.le_succ _, Nat.le_refl _⟩

/-- `r` keeps near what it looks at, also where it fails. -/
def KeepsNear {α : Type} (r : Read α) : Prop :=
  ∀ c : Cursor, c.IsNear → match r.run c with
    | .ok (_, c') => c'.IsNear
    | .error f => f.IsNear

theorem Built.keepsNear {P : Cause → Prop} {α : Type} {r : Read α} (h : Built P r) :
    KeepsNear r := by
  have hkept : IsKept P Cursor.IsNear Fault.IsNear := by
    constructor
    · exact fun hc => hc.look
    · exact fun {c} _ => c.isNear_pass 1
    · exact fun {c n} _ _ => (c.isNear_pass n).look
    · exact fun hc _ => hc
    · exact fun _ _ => ⟨Nat.le_refl _, Nat.le_succ _⟩
    · exact fun _ _ => ⟨Nat.le_refl _, Nat.le_succ _⟩
    · exact fun _ => ⟨Nat.le_refl _, Nat.le_succ _⟩
  exact h.keeps hkept

/-- The places of a fault in a document are near each other. -/
theorem Value.IsBuilt.isNear_fault {W : String → Prop} {α : Type} {v : Value α} (h : v.IsBuilt W)
    {bytes : List UInt8} {f : Fault} (hdocument : v.document bytes = .error f) : f.IsNear := by
  have hnear := h.whole.keepsNear (.start bytes) (Cursor.isNear_start bytes)
  rwa [Value.document_eq_error_iff.1 hdocument] at hnear

end DeletionGuard.Json
