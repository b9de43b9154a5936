import DeletionGuard.Proofs.Json.Message
import DeletionGuard.Proofs.Plan.Medium
import DeletionGuard.Proofs.Report
import DeletionGuard.Proofs.Writing

/-!
# The line about a plan that cannot be used

What is wrong with a plan is told on one line. Nothing in the file can end that line, whether or not
it is text; only the path could, which stands there as it is.
-/

namespace DeletionGuard

open Text (Lacks IsControl)

namespace Plan

theorem lacks_words {c : Char} (hc : IsControl c) : ∀ w ∈ words, Lacks c w := by
  have hle : ∀ w ∈ words, w.toList.all (0x20 ≤ ·.toNat) := by decide
  exact fun w hw => .of_all hc (hle w hw)

/-- A message about a plan has no control characters but those of the path. -/
theorem lacks_message_of_load {files : String → Lookup} {path : String} {e : PlanError}
    (h : load files path = .error e) {c : Char} (hc : IsControl c) (hpath : Lacks c path) :
    Lacks c e.message := by
  have hmalformed {fault : PlanFault} (hfault : Lacks c fault.message) :
      Lacks c (PlanError.malformed path fault).message :=
    .append (.append (.append (.of_all hc (by decide)) hpath) (.of_all hc (by decide))) hfault
  rcases load_eq_error_cases h with rfl | ⟨fault, -, rfl⟩ | ⟨bytes, f, -, hdocument, rfl⟩
  · exact .append (.of_all hc (by decide)) hpath
  · apply hmalformed
    cases fault <;> exact .of_all hc (by decide)
  · have hcause := Json.Cause.lacks_message hc (lacks_words hc)
      (isBuilt_plan.speaks_of_error hdocument)
    exact hmalformed (Json.LocatedFault.lacks_message hc hcause)

theorem exists_message_of_load {files : String → Lookup} {path : String} {e : PlanError}
    (h : load files path = .error e) : ∃ before after, e.message = before ++ path ++ after := by
  cases e with
  | notFound path' =>
    obtain rfl : path' = path := path_of_load_eq_error h
    exact ⟨"plan file not found: ", "", String.append_empty.symm⟩
  | malformed path' fault =>
    obtain rfl : path' = path := path_of_load_eq_error h
    exact ⟨"failed to parse plan file ", ": " ++ fault.message, String.append_assoc⟩

end Plan

namespace Report

/-- Without a plan, what is written is one line that begins with `ERROR:` and names the path. -/
theorem written_inputError_of_load {files : String → Lookup} {path : String} {e : PlanError}
    (hpath : '\n' ∉ path.toList) (h : Plan.load files path = .error e) :
    ∃ line, Written.ofWriting (writeInputError e) none = ⟨line ++ [0x0A], false⟩ ∧ 0x0A ∉ line ∧
      Utf8.ofString "ERROR: " <+: line ∧ Utf8.ofString path <:+: line := by
  obtain ⟨before, after, hmessage⟩ := Plan.exists_message_of_load h
  have hlacks : Lacks '\n' ("ERROR: " ++ e.message) :=
    .append (by decide) (Plan.lacks_message_of_load h (by decide) hpath)
  have hpieces : (inputError e).flatMap String.toList =
      ("ERROR: " ++ e.message).toList ++ ['\n'] := by
    rw [String.toList_append, List.append_assoc]
    rfl
  refine ⟨Utf8.ofString ("ERROR: " ++ e.message), ?_, ?_, ?_, ?_⟩
  · rw [ofWriting_writeInputError, writePieces_none, hpieces, Utf8.encode_append]
    rfl
  · exact fun hmem => hlacks (Utf8.mem_of_mem_encode (by decide) hmem)
  · rw [Utf8.ofString_append]
    apply List.prefix_append
  · rw [hmessage]
    simp only [Utf8.ofString_append]
    rw [List.append_assoc, ← List.append_assoc]
    exact List.infix_append' _ _ _

/-- A text that stands where the changes are due is quoted in the message, with its line end
escaped. -/
theorem written_inputError_of_text :
    ∃ e line, Plan.load (fun _ => .regular (Utf8.ofString "\x7b\"resource_changes\":\"a\\nb\"\x7d"))
        "plan.json" = .error e ∧
      Written.ofWriting (writeInputError e) none = ⟨line ++ [0x0A], false⟩ ∧ 0x0A ∉ line ∧
      Utf8.ofString "plan.json" <:+: line := by
  let files : String → Lookup := fun _ =>
    .regular (Utf8.ofString "\x7b\"resource_changes\":\"a\\nb\"\x7d")
  have hload : Plan.load files "plan.json" = .error (.malformed "plan.json"
      (.document ⟨.invalidType (.text "a\nb") "a sequence", ⟨1, 26⟩⟩)) := by
    decide +kernel
  obtain ⟨line, hwritten, hline, -, hpath⟩ := written_inputError_of_load (by decide) hload
  exact ⟨_, line, hload, hwritten, hline, hpath⟩

end Report

end DeletionGuard
