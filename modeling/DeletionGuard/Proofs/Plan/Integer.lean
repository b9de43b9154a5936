import DeletionGuard.Proofs.Json.Built
import DeletionGuard.Proofs.Json.Due
import DeletionGuard.Proofs.Json.Integer
import DeletionGuard.Proofs.Plan.Tree

/-!
# Integers in place of parts of a plan

No part of a plan is a number. An integer that stands where one is due is told as it is written if
64 bits hold it, and no integer is ever told as another one.
-/

namespace DeletionGuard

open Json

namespace Json.Places

variable {α : Type} {places within : Places}

/-- No name of what is due at a place has the mark in it that numbers are quoted with. -/
def AreNamed (places : Places) : Prop :=
  ∀ before due, places before due → '`' ∉ due.toList

theorem AreNamed.none : Places.none.AreNamed :=
  fun _ _ h => h.elim

theorem AreNamed.of {due : String} (hdue : '`' ∉ due.toList) (h : within.AreNamed) :
    (Places.of due within).AreNamed := by
  rintro before due' (⟨-, rfl⟩ | hplace)
  · exact hdue
  · exact h before due' hplace

theorem AreNamed.list {item? : Node → Option α} (h : places.AreNamed) :
    (Places.list item? places).AreNamed := by
  rintro before due ⟨_, _, _, hplace⟩
  exact h _ due hplace

theorem AreNamed.record {read? : Node → Option α} {fields : List (String × Places)}
    (h : ∀ field ∈ fields, field.2.AreNamed) : (Places.record read? fields).AreNamed := by
  intro before due hplace
  cases hplace with
  | element _ _ _ hnext hplace => exact h _ (List.mem_of_getElem? hnext) _ due hplace
  | member _ _ _ _ hknown _ _ hplace => exact h _ hknown _ due hplace

end Json.Places

namespace Plan

/-! ### The places of a plan -/

/-- An address or an action. -/
def textPlaces : Places :=
  .of "a string" .none

def actionsPlaces : Places :=
  .of "a sequence" (.list Node.string? textPlaces)

def blockPlaces : Places :=
  .of "struct Change" (.record Node.actions? [("actions", actionsPlaces)])

def changePlaces : Places :=
  .of "struct ResourceChange"
    (.record Node.change? [("address", textPlaces), ("change", blockPlaces)])

def changesPlaces : Places :=
  .of "a sequence" (.list Node.change? changePlaces)

def places : Places :=
  .of "struct ChangePlan" (.record Node.plan? [("resource_changes", changesPlaces)])

theorem failsAt_actions : (Value.list Value.text).FailsAt actionsPlaces :=
  .list .text Value.means_text

theorem failsAt_block : (Value.record actionsShape).FailsAt blockPlaces := by
  apply Value.FailsAt.record settles_actions actions?_eq rfl
  rw [actionsShape, List.forall_mem_singleton, List.forall_mem_singleton]
  intro _
  exact failsAt_actions.orNull _

theorem failsAt_change : (Value.record changeShape).FailsAt changePlaces := by
  apply Value.FailsAt.record settles_change change?_eq rfl
  rw [changeShape, List.forall_mem_cons, List.forall_mem_singleton, List.forall_mem_cons,
    List.forall_mem_singleton, List.forall_mem_cons, List.forall_mem_singleton]
  refine ⟨⟨fun _ => ?_, fun hname => ?_⟩, fun hname => ?_, fun _ => ?_⟩
  · exact Value.FailsAt.text.orNull _
  · exact absurd hname (by decide)
  · exact absurd hname (by decide)
  · exact failsAt_block.orNull _

theorem failsAt_plan : (Value.record planShape).FailsAt places := by
  apply Value.FailsAt.record settles_plan plan?_eq rfl
  rw [planShape, List.forall_mem_singleton, List.forall_mem_singleton]
  intro _
  exact (failsAt_change.list means_change).orNull _

theorem areNamed_places : places.AreNamed := by
  have htext : textPlaces.AreNamed := .of (by decide) .none
  have hactions : actionsPlaces.AreNamed := .of (by decide) (.list htext)
  have hblock : blockPlaces.AreNamed := by
    apply Places.AreNamed.of (by decide)
    apply Places.AreNamed.record
    rw [List.forall_mem_singleton]
    exact hactions
  have hchange : changePlaces.AreNamed := by
    apply Places.AreNamed.of (by decide)
    apply Places.AreNamed.record
    rw [List.forall_mem_cons, List.forall_mem_singleton]
    exact ⟨htext, hblock⟩
  apply Places.AreNamed.of (by decide)
  apply Places.AreNamed.record
  rw [List.forall_mem_singleton]
  exact .of (by decide) (.list hchange)

/-! ### What is said of an integer -/

theorem exists_parse_error {cs : List Char} {cause : Cause}
    (h : Read.RefusesFor (Value.record planShape).read cs cause) :
    ∃ f, parse (String.ofList cs) = .error f ∧ f.cause = cause := by
  have hbytes : (Cursor.start (Utf8.ofString (String.ofList cs))).rest = Utf8.encode cs := by
    simp [Cursor.start, Utf8.ofString]
  obtain ⟨fault, hrun, hcause⟩ := h _ hbytes
  refine ⟨fault.locate .memory (Utf8.ofString (String.ofList cs)), ?_, hcause⟩
  rw [parse, ofBytes, Value.document_eq_error_iff.2 (Reader.run_bind_of_error hrun _)]
  rfl

/-- An integer where a part of a plan is due is told digit by digit if 64 bits hold it, and never as
another one. -/
theorem parse_integer {before : List Char} {due : String} (hplace : places before due) (ws : Blanks)
    {n : Numeral} (hn : n.IsInteger) {rest : List Char} (hrest : Delimited rest) :
    ∃ f, parse (String.ofList (ws.chars ++ (before ++ (n.text ++ rest)))) = .error f ∧
      (f.cause.message = integerMessage (String.ofList n.text) due ↔ n.FitsWord) ∧
      (¬ n.FitsWord → (∃ x, f.cause.message = realMessage (Found.layout.text n.negative x) due) ∨
        f.cause.message = "number out of range") ∧
      ∀ digits due', f.cause.message = integerMessage digits due' →
        digits = String.ofList n.text ∧ due' = due := by
  obtain ⟨cause, hcause, hmismatch⟩ :=
    Read.exists_refusesFor_mismatch (α := UInt8) hn hrest due
  obtain ⟨f, hparse, rfl⟩ := exists_parse_error (failsAt_plan.fails hplace (n.isNumberAhead rest)
    hmismatch ws)
  have hmessage := hcause.message_eq_iff hn (areNamed_places before due hplace)
  refine ⟨f, hparse, ?_, hcause.message_of_not_fitsWord, ?_⟩
  · rw [hmessage]
    simp
  · intro digits due' heq
    exact ((hmessage digits due').1 heq).2

theorem parse_integer_least :
    ∃ f, parse "[[[],\x7b\"address\": -9223372036854775808, oops" = .error f ∧
      f.cause.message = "invalid type: integer `-9223372036854775808`, expected a string" := by
  let least : Numeral := ⟨true, ⟨"9223372036854775808".toList, by simp,
    List.all_eq_true.1 (by decide)⟩, by decide, none, none⟩
  let empty : Padded Node := ⟨.none, .list (.blank .none), .none⟩
  let key : Padded Literal :=
    ⟨.none, ⟨"address".toList.pmap .raw (List.all_eq_true.1 (by decide))⟩, .none⟩
  have haddress : textPlaces [] "a string" := .inl ⟨rfl, rfl⟩
  have hchange : changePlaces _ "a string" := .inr (.member (.blank .none) key
    ⟨[' '], by simp [isBlankChar]⟩ (by decide) List.mem_cons_self (by decide) nofun haddress)
  have hchanges : changesPlaces _ "a string" :=
    .inr (.element (.filled empty []) .none (by decide) hchange)
  have hplan : places _ "a string" :=
    .inr (.element (.blank .none) .none (by decide) rfl hchanges)
  have hrest : Delimited ", oops".toList := delimited_cons (by decide) _
  obtain ⟨f, hparse, hmessage, -⟩ := parse_integer hplan .none (n := least) ⟨rfl, rfl⟩ hrest
  refine ⟨f, ?_, ?_⟩
  · rw [← hparse]
    decide +kernel
  · rw [hmessage.2 (by decide)]
    decide +kernel

end Plan

end DeletionGuard
