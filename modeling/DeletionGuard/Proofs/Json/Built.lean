import DeletionGuard.Json.Shape

/-!
# What readers are made of

Every reader of a document is put together from a few readers that act on a cursor themselves, by
sequencing and repetition. What holds of those and is kept by these holds of all readers, and
`Built` is the induction that says so.
-/

namespace DeletionGuard.Json

open Reader (Turn Step iterate)

/-- Whether a cause says nothing but what is wrong with the bytes that have been looked at last. -/
def Cause.isPlain : Cause → Bool
  | .invalidUtf8 => false
  | .invalidType _ _ => false
  | .duplicateField _ => false
  | _ => true

/-- Causes that speak, besides of what has been found, only in the given words. -/
def Cause.Speaks (W : String → Prop) : Cause → Prop
  | .invalidType _ expected => W expected
  | .duplicateField name => W name
  | _ => True

/-- `r` is put together from readers that act on a cursor themselves. The causes for which it fails
are plain, or `P` holds of them. -/
inductive Built (P : Cause → Prop) : {α : Type} → Read α → Prop
  | pure {α : Type} (a : α) : Built P (pure a)
  | fail {α : Type} (cause : Cause) (h : cause.isPlain = true) :
      Built P (Read.fail cause : Read α)
  | failAhead {α : Type} (cause : Cause) (h : cause.isPlain = true) :
      Built P (Read.failAhead cause : Read α)
  | failTelling {α : Type} (cause : Cause) (h : P cause) : Built P (Read.fail cause : Read α)
  | failBehind {α : Type} (n : Nat) (h : P .invalidUtf8) :
      Built P (Read.failBehind n .invalidUtf8 : Read α)
  | peek : Built P Read.peek
  | next : Built P Read.next
  | discard : Built P Read.discard
  | takeWhile (p : UInt8 → Bool) : Built P (Read.takeWhile p)
  | exponentDigits (outOfRange : Bool) (e : Nat) : Built P (Read.exponentDigits outOfRange e)
  | bind {α β : Type} {p : Read α} {q : α → Read β} (hp : Built P p) (hq : ∀ a, Built P (q a)) :
      Built P (p >>= q)
  | iterate {τ α : Type} {step : Step Cursor Fault τ α} (hstep : ∀ t, Built P (step.turn t))
      (t : τ) : Built P (iterate step t)

namespace Built

open Read

variable {α σ : Type} {P : Cause → Prop} {W : String → Prop}

theorem ite {r r' : Read α} {C : Prop} [Decidable C] (h : Built P r) (h' : Built P r') :
    Built P (if C then r else r') := by
  split
  · exact h
  · exact h'

/-! ### Tokens -/

theorem peekToken : Built P peekToken :=
  .bind (.takeWhile _) fun _ => .peek

theorem nextIn (inside : Construct) : Built P (nextIn inside) := by
  refine .bind .next fun b => ?_
  cases b with
  | none => exact .fail _ rfl
  | some b => exact .pure b

theorem word (cs : List Char) : Built P (word cs) := by
  induction cs with
  | nil => exact .pure ()
  | cons c cs ih => exact .bind (nextIn .value) fun b => .ite ih (.fail _ rfl)

/-! ### Numbers -/

theorem digits : Built P digits :=
  .takeWhile _

theorem fractionDigits : Built P fractionDigits := by
  refine .bind .peek fun b => .ite ?_ (.pure none)
  refine .bind .discard fun _ => .bind digits fun ds => .ite ?_ (.pure _)
  refine .bind .peek fun b => ?_
  cases b with
  | none => exact .failAhead _ rfl
  | some b => exact .failAhead _ rfl

theorem exponentSign : Built P exponentSign :=
  .bind .peek fun _ => .ite (.bind .discard fun _ => .pure false)
    (.ite (.bind .discard fun _ => .pure true) (.pure false))

theorem wholeDigits : Built P wholeDigits := by
  refine .bind (nextIn .value) fun b => .ite ?_ (.ite ?_ (.fail _ rfl))
  · exact .bind .peek fun _ => .ite (.failAhead _ rfl) (.pure _)
  · exact .bind digits fun ds => .pure _

theorem exponent (isZero : Bool) : Built P (exponent isZero) := by
  refine .bind .discard fun _ => .bind exponentSign fun negative => ?_
  refine .bind (nextIn .value) fun b => .ite ?_ (.fail _ rfl)
  exact .bind (.exponentDigits _ _) fun e => .pure _

theorem finish (negative : Bool) (significand : Nat) (e : Int) :
    Built P (number.finish negative significand e) := by
  rw [number.finish]
  cases realOf significand e with
  | none => exact .fail _ rfl
  | some x => exact .pure _

theorem number (negative : Bool) : Built P (number negative) := by
  refine .bind wholeDigits fun ds => .bind fractionDigits fun fraction => .bind .peek fun mark => ?_
  refine .ite (.bind (exponent _) fun e => ?_) (.ite (.pure _) (finish ..))
  obtain ⟨below, e⟩ := e
  cases e with
  | none => exact .pure _
  | some e => exact finish ..

theorem skipSomeDigits : Built P skipSomeDigits :=
  .bind .next fun _ => .ite (.bind digits fun _ => .pure ()) (.fail _ rfl)

theorem skipFraction : Built P skipFraction :=
  .bind .peek fun _ => .ite
    (.bind .discard fun _ => .bind digits fun _ => .ite (.failAhead _ rfl) (.pure ())) (.pure ())

theorem skipExponent : Built P skipExponent :=
  .bind .peek fun _ => .ite
    (.bind .discard fun _ => .bind exponentSign fun _ => skipSomeDigits) (.pure ())

theorem skipNumber (first : Option UInt8) : Built P (skipNumber first) := by
  have hend : Built P (do Read.skipFraction; Read.skipExponent) :=
    .bind skipFraction fun _ => skipExponent
  refine .ite ?_ (.ite ?_ ?_)
  · exact .bind .peek fun _ => .ite (.bind (.failAhead _ rfl) fun _ => hend) hend
  · exact .bind digits fun _ => hend
  · exact .bind (.fail _ rfl) fun _ => hend

/-! ### Literals -/

theorem fourHexDigits : Built P fourHexDigits := by
  refine .bind (nextIn .string) fun a => .bind (nextIn .string) fun b => ?_
  refine .bind (nextIn .string) fun c => .bind (nextIn .string) fun d => ?_
  cases hexNumber? [a, b, c, d] with
  | none => exact .fail _ rfl
  | some n => exact .pure n

theorem pairContinues (expected : Char) : Built P (pairContinues expected) :=
  .bind (nextIn .string) fun _ => .ite (.pure ()) (.fail _ rfl)

theorem codePointEscape : Built P codePointEscape := by
  refine .bind fourHexDigits fun n => .ite (.fail _ rfl) (.ite ?_ (.pure _))
  refine .bind (pairContinues '\\') fun _ => .bind (pairContinues 'u') fun _ => ?_
  exact .bind fourHexDigits fun m => .ite (.pure _) (.fail _ rfl)

theorem escape : Built P escape := by
  refine .bind (nextIn .string) fun b => .ite codePointEscape ?_
  cases shortEscape? b with
  | none => exact .fail _ rfl
  | some c => exact .pure c

/-- The pieces of a text, before it is seen whether they make characters. -/
theorem pieces (before : List UInt8) : Built P (Reader.iterate textStep before) := by
  refine .iterate (fun before => .bind (nextIn .string) fun _ => .ite (.pure _) ?_) before
  exact .ite (.bind escape fun _ => .pure _) (.ite (.fail _ rfl) (.pure _))

theorem text : Built (Cause.Speaks W) text := by
  refine .bind (pieces []) fun bytes => ?_
  cases Utf8.decode bytes with
  | error good => exact .failBehind _ trivial
  | ok cs => exact .pure _

theorem skipEscape : Built P skipEscape :=
  .bind (nextIn .string) fun _ => .ite (.bind fourHexDigits fun _ => .pure ())
    (.ite (.fail _ rfl) (.pure ()))

theorem skipText : Built P skipText := by
  have hcontrol : Built P refuseControl := .bind .peek fun _ => .ite (.fail _ rfl) (.pure ())
  refine .iterate (fun _ => .bind hcontrol fun _ => .bind (nextIn .string) fun _ => ?_) ()
  exact .ite (.pure _) (.ite (.bind skipEscape fun _ => .pure _) (.pure _))

/-! ### Values that are skipped -/

theorem skipKey : Built P skipKey := by
  refine .bind peekToken fun b => ?_
  cases b with
  | none => exact .failAhead _ rfl
  | some b =>
    refine .ite (.bind .discard fun _ => .bind skipText fun _ => .bind peekToken fun b => ?_)
      (.failAhead _ rfl)
    cases b with
    | none => exact .failAhead _ rfl
    | some b => exact .ite .discard (.failAhead _ rfl)

theorem enter (frame : Frame) (outer : List Frame) : Built P (enter frame outer) := by
  refine .bind peekToken fun b => ?_
  cases b with
  | none => exact .failAhead _ rfl
  | some b =>
    exact .ite (.bind .discard fun _ => .pure _) (.ite (.bind skipKey fun _ => .pure _) (.pure _))

theorem skipFrom (outer : List Frame) (b : UInt8) : Built P (skipFrom outer b) := by
  have hword (cs : List Char) : Built P (do Read.word cs; return SkipState.after outer) :=
    .bind (word cs) fun _ => .pure _
  refine .ite (hword _) (.ite (hword _) (.ite (hword _) (.ite ?_ (.ite ?_ (.ite ?_ (.ite ?_ ?_))))))
  · exact .bind .next fun _ => .bind (skipNumber _) fun _ => .pure _
  · exact .bind (skipNumber _) fun _ => .pure _
  · exact .bind skipText fun _ => .pure _
  · exact enter .list outer
  · exact enter .object outer

theorem skipHead (outer : List Frame) : Built P (skipHead outer) := by
  refine .bind peekToken fun b => ?_
  cases b with
  | none => exact .failAhead _ rfl
  | some b => exact .ite (.bind (nextIn .value) fun b => skipFrom outer b) (.failAhead _ rfl)

theorem skipSeparator (frame : Frame) (outer : List Frame) (b : UInt8) :
    Built P (skipSeparator frame outer b) :=
  .ite (.ite (.bind skipKey fun _ => .pure _) (.pure _)) (.pure _)

theorem skipStep (s : SkipState) : Built P (skipStep s) := by
  match s with
  | .before outer => exact .bind (skipHead outer) fun _ => .pure _
  | .after [] => exact .pure _
  | .after (frame :: outer) =>
    refine .bind peekToken fun b => ?_
    cases b with
    | none => exact .failAhead _ rfl
    | some b =>
      have hplain : frame.expectedComma.isPlain = true := by cases frame <;> rfl
      refine .ite (.bind (nextIn .value) fun b => ?_) (.failAhead _ hplain)
      exact .bind (skipSeparator frame outer b) fun _ => .pure _

theorem skipValue : Built P skipValue :=
  .bind (skipHead []) fun s => .iterate skipStep s

/-! ### Values of known shapes -/

theorem found : Built (Cause.Speaks W) found := by
  refine .bind .peek fun b => ?_
  cases b with
  | none => exact .failAhead _ rfl
  | some b =>
    have hword (cs : List Char) (f : Found) :
        Built (Cause.Speaks W) (do Read.discard; Read.word cs; return f) :=
      .bind .discard fun _ => .bind (word cs) fun _ => .pure f
    refine .ite (hword _ _) (.ite (hword _ _) (.ite (hword _ _) (.ite ?_ (.ite ?_ (.ite ?_ ?_)))))
    · exact .bind .discard fun _ => .bind (number true) fun _ => .pure _
    · exact .bind (number false) fun _ => .pure _
    · exact .bind .discard fun _ => .bind text fun _ => .pure _
    · exact .ite (.pure _) (.ite (.pure _) (.failAhead _ rfl))

theorem mismatch {expected : String} (h : W expected) :
    Built (Cause.Speaks W) (mismatch expected : Read α) :=
  .bind found fun _ => .failTelling _ h

theorem opening (heads : List UInt8) {expected : String} (h : W expected) :
    Built (Cause.Speaks W) (opening heads expected) := by
  refine .bind peekToken fun b => ?_
  cases b with
  | none => exact .failAhead _ rfl
  | some b => exact .ite (nextIn .value) (mismatch h)

theorem hasElement (first : Bool) : Built P (hasElement first) := by
  refine .bind peekToken fun b => ?_
  cases b with
  | none => exact .failAhead _ rfl
  | some b =>
    refine .ite (.pure false) (.ite (.pure true) (.ite ?_ (.failAhead _ rfl)))
    refine .bind .discard fun _ => .bind peekToken fun b => ?_
    cases b with
    | none => exact .failAhead _ rfl
    | some b => exact .ite (.failAhead _ rfl) (.pure true)

theorem closeArray : Built P closeArray := by
  refine .bind peekToken fun b => ?_
  cases b with
  | none => exact .failAhead _ rfl
  | some b =>
    refine .ite .discard (.ite (.bind .discard fun _ => ?_) (.failAhead _ rfl))
    exact .bind peekToken fun _ => .ite (.failAhead _ rfl) (.failAhead _ rfl)

theorem hasMember (first : Bool) : Built P (hasMember first) := by
  refine .bind peekToken fun b => ?_
  cases b with
  | none => exact .failAhead _ rfl
  | some b =>
    refine .ite (.pure false) (.ite (.ite (.pure true) (.failAhead _ rfl)) ?_)
    refine .ite ?_ (.failAhead _ rfl)
    refine .bind .discard fun _ => .bind peekToken fun b => ?_
    cases b with
    | none => exact .failAhead _ rfl
    | some b => exact .ite (.pure true) (.ite (.failAhead _ rfl) (.failAhead _ rfl))

theorem colon : Built P colon := by
  refine .bind peekToken fun b => ?_
  cases b with
  | none => exact .failAhead _ rfl
  | some b => exact .ite .discard (.failAhead _ rfl)

theorem duplicate {key : String} (h : W key) :
    Built (Cause.Speaks W) (duplicate key : Read α) := by
  have hclose : Built (Cause.Speaks W) tryCloseObject :=
    .bind peekToken fun _ => .ite .discard (.pure ())
  exact .bind hclose fun _ => .failTelling _ h

end Built

namespace Value

variable {α σ : Type} {W : String → Prop}

/-- The reader of a value is put together from readers on a cursor, and tells of expectations and
keys only in the given words. -/
abbrev IsBuilt (W : String → Prop) (v : Value α) : Prop := Built (Cause.Speaks W) v.read

theorem isBuilt_text (h : W "a string") : text.IsBuilt W :=
  .bind (.opening _ h) fun _ => .text

theorem IsBuilt.list {item : Value α} (h : item.IsBuilt W) (hlist : W "a sequence") :
    item.list.IsBuilt W := by
  have hturn (s : ListState α) : Built (Cause.Speaks W) ((elementStep item).turn s) :=
    .bind (.hasElement _) fun _ => .ite (.bind h fun _ => .pure _) (.pure _)
  exact .bind (.opening _ hlist) fun _ => .bind (.iterate hturn _) fun _ =>
    .bind .discard fun _ => .pure _

theorem IsBuilt.orNull {v : Value α} (h : v.IsBuilt W) (set : α → σ → σ) :
    (v.orNull set).IsBuilt W := by
  refine .bind .peekToken fun _ => .ite ?_ (.bind h fun _ => .pure _)
  exact .bind (.nextIn .value) fun _ => .bind (.word _) fun _ => .pure id

/-- The key of a field is one of the words, and so are those that its value is told of with. -/
abbrev FieldIsBuilt (W : String → Prop) (f : Field σ) : Prop := W f.key ∧ f.value.IsBuilt W

variable {fields : List (Field σ)}

theorem built_positional (h : ∀ f ∈ fields, FieldIsBuilt W f) (first : Bool) (s : σ) :
    Built (Cause.Speaks W) (positional fields first s) := by
  induction fields generalizing first s with
  | nil => exact .pure s
  | cons f fields ih =>
    obtain ⟨hf, hfields⟩ := List.forall_mem_cons.1 h
    exact .bind (.hasElement first) fun _ =>
      .ite (.bind hf.2 fun change => ih hfields false (change s)) (.pure s)

theorem built_member (h : ∀ f ∈ fields, FieldIsBuilt W f) (s : ObjectState σ) (key : String) :
    Built (Cause.Speaks W) (member fields s key) := by
  unfold member
  cases hfind : fields.find? (·.key == key) with
  | none => exact .bind .colon fun _ => .bind .skipValue fun _ => .pure _
  | some f =>
    obtain ⟨hword, hf⟩ := h f (List.mem_of_find?_eq_some hfind)
    have hkey : f.key = key := by simpa using List.find?_some hfind
    rw [hkey] at hword
    exact .ite (.duplicate hword) (.bind .colon fun _ => .bind hf fun _ => .pure _)

theorem IsBuilt.record {shape : Shape σ} (hphrase : W shape.phrase)
    (h : ∀ f ∈ shape.fields, FieldIsBuilt W f) : (record shape).IsBuilt W := by
  have hturn (s : ObjectState σ) : Built (Cause.Speaks W) ((memberStep shape.fields).turn s) := by
    refine .bind (.hasMember _) fun _ => .ite (.bind (.nextIn .string) fun _ => ?_) (.pure _)
    exact .bind .text fun key => .bind (built_member h s key) fun _ => .pure _
  refine .bind (.opening _ hphrase) fun b => .ite ?_ ?_
  · exact .bind (built_positional h true _) fun _ => .bind .closeArray fun _ => .pure _
  · exact .bind (.iterate hturn _) fun _ => .bind .discard fun _ => .pure _

/-- The reader of a whole document. -/
def whole (v : Value α) : Read α := do
  let a ← v.read
  if (← Read.peekToken).isSome then Read.failAhead .trailingCharacters else return a

theorem document_eq_error_iff {v : Value α} {bytes : List UInt8} {f : Fault} :
    v.document bytes = .error f ↔ v.whole.run (.start bytes) = .error f := by
  change (v.whole.run (.start bytes)).map (·.1) = .error f ↔ _
  cases v.whole.run (.start bytes) with
  | ok r => exact ⟨nofun, nofun⟩
  | error f' => simp [Except.map]

theorem IsBuilt.whole {v : Value α} (h : v.IsBuilt W) : Built (Cause.Speaks W) v.whole :=
  .bind h fun _ => .bind .peekToken fun _ => .ite (.failAhead _ rfl) (.pure _)

end Value

end DeletionGuard.Json
