import DeletionGuard.Proofs.Json.Truncation.Basic

/-!
# Literals that are cut short

A literal that is cut short is not taken for a shorter one: wherever it is cut, in an escape or
between the bytes of a character, its reader comes to the end of the document.
-/

namespace DeletionGuard.Json

/-! ### Escapes -/

theorem Quotation.next_hexDigit {b : UInt8} {n : Nat} (h : hexValue? b = some n) :
    inside.next b = inside := by
  have hne {c : Char} (hc : hexValue? (byte c) = none) : b ≠ byte c := by
    rintro rfl
    rw [hc] at h
    cases h
  exact next_inside (hne (by decide)) (hne (by decide))

namespace Truncates

open Standing

theorem fourHexDigits :
    Truncates (.within .inside) Read.fourHexDigits fun _ => .within .inside := by
  refine (nextIn .string).bind fun a => (nextIn .string).bind fun b => ?_
  refine (nextIn .string).bind fun c => (nextIn .string).bind fun d => ?_
  cases hnumber : hexNumber? [a, b, c, d] with
  | none => exact .fail _
  | some n =>
    rw [hexNumber?_four] at hnumber
    simp only [Option.pure_def, Option.bind_eq_bind, Option.bind_eq_some_iff] at hnumber
    obtain ⟨_, ha, _, hb, _, hc, _, hd, -⟩ := hnumber
    refine .pure ?_
    rintro s _ rfl
    rw [within, Quotation.next_hexDigit ha, Quotation.next_hexDigit hb,
      Quotation.next_hexDigit hc, Quotation.next_hexDigit hd]

theorem pairContinues (s : Quotation) (expected : Char) :
    Truncates (.within s) (Read.pairContinues expected) fun _ =>
      .within (s.next (byte expected)) := by
  refine (nextIn .string).bind fun b => .ite (fun hb => .pure ?_) fun _ => .fail _
  rintro _ _ rfl
  rw [within, hb]

theorem codePointEscape :
    Truncates (.within .inside) Read.codePointEscape fun _ => .within .inside := by
  refine fourHexDigits.bind fun n => .ite (fun _ => .fail _) fun _ => .ite (fun _ => ?_) fun _ =>
    .pure fun _ _ => id
  refine (pairContinues .inside '\\').bind fun _ => ?_
  refine (pairContinues .escaped 'u').bind fun _ => ?_
  exact fourHexDigits.bind fun m => .ite (fun _ => .pure fun _ _ => id) fun _ => .fail _

theorem escape : Truncates (.within .escaped) Read.escape fun _ => .within .inside := by
  refine (nextIn .string).bind fun b => .ite (fun _ => codePointEscape) fun _ => ?_
  cases shortEscape? b with
  | none => exact .fail _
  | some c => exact .pure fun _ _ => id

/-- In a text that is skipped an escape is checked as far as its end. -/
theorem skipEscape : Truncates (.within .escaped) Read.skipEscape fun _ => .within .inside := by
  refine (nextIn .string).bind fun b => .ite (fun _ => ?_) fun _ => ?_
  · exact fourHexDigits.bind fun _ => .pure fun _ _ => id
  · exact .ite (fun _ => .fail _) fun _ => .pure fun _ _ => id

/-! ### Texts -/

/-- What a byte of a literal leads to: the end of it, an escape, or more of it. -/
theorem piece {α τ : Type} {b : UInt8} {done : Read (Reader.Turn τ α)}
    {escaped more : Read (Reader.Turn τ α)} {Q : Reader.Turn τ α → Standing}
    (hdone : Truncates (.within .outside) done Q) (hescaped : Truncates (.within .escaped) escaped Q)
    (hmore : Truncates (.within .inside) more Q) :
    Truncates (.within (Quotation.inside.next b))
      (if b = byte '"' then done else if b = byte '\\' then escaped else more) Q := by
  refine .ite (fun hquote => ?_) fun hquote => .ite (fun hescape => ?_) fun hescape => ?_
  · rwa [hquote]
  · rwa [hescape]
  · rwa [Quotation.next_inside hquote hescape]

theorem text : Truncates (.within .inside) Read.text fun _ => .within .outside := by
  have hturn (before : List UInt8) : Truncates (.within .inside) (textStep.turn before)
      (AfterTurn (fun _ => .within .outside) fun _ => .within .inside) := by
    refine (nextIn .string).bind fun b => piece ?_ ?_ ?_
    · exact .pure fun _ _ => id
    · exact escape.bind fun c => .pure fun _ _ => id
    · exact .ite (fun _ => .fail _) fun _ => .pure fun _ _ => id
  refine (iterate hturn []).bind fun bytes => ?_
  cases Utf8.decode bytes with
  | ok cs => exact .pure fun _ _ => id
  | error good => exact .fails (Read.fails_failWith _)

theorem refuseControl {P : Standing} : Truncates P Read.refuseControl fun _ => P := by
  intro s c d right hc hs _ c' hrun
  have hrefuse (c : Cursor) : Read.refuseControl.run c =
      (if c.rest.head?.any (· < 0x20) then Read.fail .controlCharacter else Pure.pure ()).run c.look :=
    rfl
  rw [hrefuse] at hrun
  split at hrun
  · cases hrun
  · next hcontrol =>
    cases hrun
    have hd : Read.refuseControl.run d = .ok ((), d.look) := by
      rw [hrefuse, if_neg]
      · rfl
      · intro hd
        refine hcontrol ?_
        cases hbytes : d.rest with
        | nil => simp [hbytes] at hd
        | cons b bs => simpa [hc, hbytes] using hd
    refine .before [] hd (Cursor.rest_look d).symm ?_ ?_
    · rw [Cursor.rest_look, Cursor.rest_look, hc]
    · rwa [Cursor.rest_look]

theorem skipText : Truncates (.within .inside) Read.skipText fun _ => .within .outside := by
  have hturn (t : Unit) : Truncates (.within .inside) (skippedTextStep.turn t)
      (AfterTurn (fun _ => .within .outside) fun _ => .within .inside) := by
    refine refuseControl.bind fun _ => (nextIn .string).bind fun b => piece ?_ ?_ ?_
    · exact .pure fun _ _ => id
    · exact skipEscape.bind fun _ => .pure fun _ _ => id
    · exact .pure fun _ _ => id
  exact iterate hturn ()

end Truncates

end DeletionGuard.Json
