import DeletionGuard.Proofs.Json.Truncation.Literal
import DeletionGuard.Proofs.Json.Truncation.Number

/-!
# Skipped values that are cut short

The skipper comes to the end of the document wherever a value is cut that it skips, except within a
number: no frame that is open is closed by the end, and no key or word is completed by it.
-/

namespace DeletionGuard.Json

namespace Truncates

open Read (endsAt_failAhead)

variable {b : UInt8} {outer : List Frame}

/-- A mark between tokens opens no literal. -/
theorem discard_mark (hb : b ≠ byte '"') :
    Truncates (.facing .outside b) Read.discard fun _ => .within .outside :=
  discard.post fun _ _ _ hs => hs.trans (Quotation.next_outside hb)

theorem nextIn_bind {α : Type} {q : UInt8 → Read α} {R : α → Standing} (inside : Construct)
    (hq : Truncates (.within (Quotation.outside.next b)) (q b) R) :
    Truncates (.facing .outside b) (Read.nextIn inside >>= q) R := by
  refine (nextIn_facing inside).bind fun b' s c d right hc hs => ?_
  obtain ⟨rfl, hs⟩ := hs
  exact hq s c d right hc hs

theorem skipKey : Truncates (.within .outside) Read.skipKey fun _ => .within .outside := by
  refine peekToken_bind (fun c _ => endsAt_failAhead .object c) fun b _ => ?_
  refine .ite (fun hquote => ?_) fun _ => .failAhead _
  subst hquote
  refine (discard (b := byte '"')).bind fun _ => skipText.bind fun _ => ?_
  refine peekToken_bind (fun c _ => endsAt_failAhead .object c) fun b _ => ?_
  refine .ite (fun hcolon => discard_mark ?_) fun _ => .failAhead _
  rw [hcolon]
  decide

theorem closing_ne_quote (frame : Frame) : frame.closing ≠ byte '"' := by
  cases frame <;> decide

theorem enter (frame : Frame) (outer : List Frame) :
    Truncates (.within .outside) (Read.enter frame outer) fun _ => .within .outside := by
  refine peekToken_bind (fun c _ => endsAt_failAhead frame.construct c) fun b _ => ?_
  refine .ite (fun hclosing => ?_) fun _ => .ite (fun _ => ?_) fun _ => .pure fun _ _ hs => hs.1
  · have hb : b ≠ byte '"' := hclosing ▸ closing_ne_quote frame
    exact (discard_mark hb).bind fun _ => .pure fun _ _ => id
  · exact skipKey.facing.bind fun _ => .pure fun _ _ => id

/-- What starts with any other byte than a number does. -/
theorem skipFrom (hb : ¬ StartsNumber b) :
    Truncates (.within (Quotation.outside.next b)) (Read.skipFrom outer b)
      fun _ => .within .outside := by
  have houtside (hb : b ≠ byte '"') {r : Read SkipState}
      (h : Truncates (.within .outside) r fun _ => .within .outside) :
      Truncates (.within (Quotation.outside.next b)) r fun _ => .within .outside := by
    rwa [Quotation.next_outside hb]
  have hword {cs : List Char} (hcs : byte '"' ∉ cs.map byte) :
      Truncates (.within .outside) (do Read.word cs; return SkipState.after outer)
        fun _ => .within .outside :=
    (word hcs).bind fun _ => .pure fun _ _ => id
  refine .ite (fun h => houtside ?_ (hword ?_)) fun _ => .ite (fun h => houtside ?_ (hword ?_))
    fun _ => .ite (fun h => houtside ?_ (hword ?_)) fun _ => .ite (fun h => absurd (.inl h) hb)
      fun _ => .ite (fun h => absurd (.inr h) hb) fun _ => .ite (fun h => ?_)
        fun hquote => .ite (fun _ => houtside hquote (enter .list outer))
          fun _ => houtside hquote (enter .object outer)
  · rw [h]; decide
  · decide
  · rw [h]; decide
  · decide
  · rw [h]; decide
  · decide
  · rw [h]
    exact skipText.bind fun _ => .pure fun _ _ => id

theorem skipHead (outer : List Frame) :
    Truncates (.within .outside) (Read.skipHead outer) fun _ => .within .outside := by
  refine peekToken_bind (fun c _ => endsAt_failAhead .value c) fun b _ => ?_
  refine .ite (fun _ => ?_) fun _ => .failAhead _
  by_cases hb : StartsNumber b
  · exact skipNumeral hb outer
  · exact nextIn_bind .value (skipFrom hb)

theorem skipSeparator (frame : Frame) (outer : List Frame) (b : UInt8) :
    Truncates (.within .outside) (Read.skipSeparator frame outer b) fun _ => .within .outside := by
  refine .ite (fun _ => .ite (fun _ => ?_) fun _ => ?_) fun _ => .pure fun _ _ => id
  · exact skipKey.bind fun _ => .pure fun _ _ => id
  · exact .pure fun _ _ => id

theorem skipStep (s : SkipState) : Truncates (.within .outside) (Read.skipStep s)
    (AfterTurn (fun _ => .within .outside) fun _ => .within .outside) := by
  match s with
  | .before outer => exact (skipHead outer).bind fun _ => .pure fun _ _ => id
  | .after [] => exact .pure fun _ _ => id
  | .after (frame :: outer) =>
    refine peekToken_bind (fun c _ => endsAt_failAhead frame.construct c) fun b _ => ?_
    refine .ite (fun hb => nextIn_bind .value ?_) fun _ => .failAhead _
    have hquote : b ≠ byte '"' := by
      rcases hb with rfl | rfl
      · decide
      · exact closing_ne_quote frame
    rw [Quotation.next_outside hquote]
    exact (skipSeparator frame outer b).bind fun _ => .pure fun _ _ => id

/-- A value that is skipped is cut at its end, within a number, or where the skipper misses more. -/
theorem skipValue : Truncates (.within .outside) Read.skipValue fun _ => .within .outside := by
  have hturn (s : SkipState) : Truncates (.within .outside) (skipper.turn s)
      (AfterTurn (fun _ => .within .outside) fun _ => .within .outside) :=
    skipStep s
  exact (skipHead []).bind fun s => iterate hturn s

end Truncates

end DeletionGuard.Json
