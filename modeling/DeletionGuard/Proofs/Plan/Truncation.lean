import DeletionGuard.Proofs.Json.Truncation.Shape
import DeletionGuard.Session

/-!
# Plans that are cut short

A plan file that was not written to its end is not taken for a smaller plan.
-/

namespace DeletionGuard.Plan

open Json

theorem isTruncated_fields : ∀ f ∈ planShape.fields, f.value.IsTruncated := by
  have hactions : (Value.record actionsShape).IsTruncated := by
    apply Value.IsTruncated.record
    rw [actionsShape, List.forall_mem_singleton]
    exact .orNull (.list Value.isTruncated_text) _
  have hchange : (Value.record changeShape).IsTruncated := by
    apply Value.IsTruncated.record
    rw [changeShape, List.forall_mem_cons, List.forall_mem_singleton]
    exact ⟨.orNull Value.isTruncated_text _, .orNull hactions _⟩
  rw [planShape, List.forall_mem_singleton]
  exact .orNull (.list hchange) _

theorem load_eq_error {files : String → Lookup} {path : String} {bytes : List UInt8} {f : Fault}
    (hfile : files path = .regular bytes)
    (h : (Value.record planShape).document bytes = .error f) :
    load files path = .error (.malformed path (.document (f.locate .stream bytes))) := by
  rw [load, hfile]
  change (ofBytes .stream bytes).mapError (PlanError.malformed path <| .document ·) = _
  rw [ofBytes, h]
  rfl

theorem document_eq_ok {files : String → Lookup} {path : String} {bytes : List UInt8} {plan : Plan}
    (hfile : files path = .regular bytes) (h : load files path = .ok plan) :
    (Value.record planShape).document bytes = .ok plan := by
  cases hdocument : (Value.record planShape).document bytes with
  | error f =>
    rw [load_eq_error hfile hdocument] at h
    cases h
  | ok plan' =>
    rw [load, hfile] at h
    change (ofBytes .stream bytes).mapError (PlanError.malformed path <| .document ·) = _ at h
    rw [ofBytes, hdocument] at h
    cases h
    rfl

/-- A plan file that is cut before its closing bracket is malformed. Unless the cut falls inside a
number, the document has ended. -/
theorem load_take {files : String → Lookup} {path : String} {bytes : List UInt8} {plan : Plan}
    (hfile : files path = .regular bytes) (hload : load files path = .ok plan) :
    ∃ body close blanks, bytes = body ++ close :: blanks ∧
      (close = byte ']' ∨ close = byte '}') ∧ (∀ b ∈ blanks, isBlank b = true) ∧
      ∀ k ≤ body.length, ∀ (files' : String → Lookup) (path' : String),
        files' path' = .regular (bytes.take k) →
        ∃ fault, load files' path' = .error (.malformed path' (.document fault)) ∧
          (∀ start, Session.statusOf files' path' start = .inputError) ∧
          ((∃ inside, fault.cause = .endOfInput inside) ∨
            CutsNumber .outside (bytes.take k) (bytes.drop k)) := by
  obtain ⟨body, close, blanks, hbytes, hclose, hblanks, htake⟩ :=
    Value.document_take isTruncated_fields (document_eq_ok hfile hload)
  refine ⟨body, close, blanks, hbytes, hclose, hblanks, fun k hk files' path' hfile' => ?_⟩
  obtain ⟨f, hf, hcause⟩ := htake k hk
  have herror := load_eq_error hfile' hf
  refine ⟨_, herror, fun start => ?_, hcause⟩
  rw [Session.statusOf, herror]

/-- Where a number is cut, what is left of it is a number too, but the plan is not taken for one. -/
theorem load_take_number :
    load (fun _ => .regular (Utf8.ofString "\x7b\"v\":[12]\x7d")) "plan.json" = .ok ⟨[]⟩ ∧
      (∀ start, Session.statusOf (fun _ => .regular (Utf8.ofString "\x7b\"v\":[1")) "cut.json" start =
        .inputError) := by
  let bytes := Utf8.ofString "\x7b\"v\":[12]\x7d"
  have hload : load (fun _ => .regular bytes) "plan.json" = .ok ⟨[]⟩ := by
    decide +kernel
  refine ⟨hload, ?_⟩
  obtain ⟨body, close, blanks, hbytes, -, hblanks, htake⟩ :=
    @load_take (fun _ => .regular bytes) "plan.json" bytes _ rfl hload
  have hk : 7 ≤ body.length := by
    rcases List.eq_nil_or_concat blanks with rfl | ⟨init, b, rfl⟩
    · have hlength := congrArg List.length hbytes
      have hten : bytes.length = 10 := by decide
      simp only [List.length_append, List.length_cons, List.length_nil] at hlength
      omega
    · have hlast := congrArg List.getLast? hbytes
      have hbracket : bytes.getLast? = some (byte '}') := by decide
      have hb : b = byte '}' := by
        rw [hbracket, List.concat_eq_append, ← List.cons_append, ← List.append_assoc, List.getLast?_concat] at hlast
        exact (Option.some.inj hlast).symm
      exact absurd (hblanks b (by simp)) (by rw [hb]; decide)
  obtain ⟨fault, -, hstatus, -⟩ := htake 7 hk (fun _ => .regular (bytes.take 7)) "cut.json" rfl
  exact hstatus

end DeletionGuard.Plan
