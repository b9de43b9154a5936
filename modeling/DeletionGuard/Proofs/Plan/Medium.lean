import DeletionGuard.Plan.Document
import DeletionGuard.Proofs.Json.Place
import DeletionGuard.Proofs.Text.Position

/-!
# Plans in files and plans in memory

A plan is read from a file as from a text in memory, and refused for the same cause. Only the place
that is named for it can differ, by the one byte that a stream has taken and not passed.
-/

namespace DeletionGuard.Plan

open Json

/-- The words in which faults tell what is expected of a plan, and the keys of its fields. -/
def words : List String :=
  ["a string", "a sequence", actionsShape.phrase, changeShape.phrase, planShape.phrase, "actions",
    "address", "change", "resource_changes"]

theorem isBuilt_plan : (Value.record planShape).IsBuilt (· ∈ words) := by
  have htext : Value.text.IsBuilt (· ∈ words) := Value.isBuilt_text (by decide)
  have hactions : (Value.record actionsShape).IsBuilt (· ∈ words) := by
    apply Value.IsBuilt.record (by decide)
    rw [actionsShape, List.forall_mem_singleton]
    exact ⟨by decide, .orNull (.list htext (by decide)) _⟩
  have hchange : (Value.record changeShape).IsBuilt (· ∈ words) := by
    apply Value.IsBuilt.record (by decide)
    rw [changeShape, List.forall_mem_cons, List.forall_mem_singleton]
    exact ⟨⟨by decide, .orNull htext _⟩, by decide, .orNull hactions _⟩
  apply Value.IsBuilt.record (by decide)
  rw [planShape, List.forall_mem_singleton]
  exact ⟨by decide, .orNull (.list hchange (by decide)) _⟩

/-- There is no plan without a regular file that can be read, or where the reader of plans fails. -/
theorem load_eq_error_cases {files : String → Lookup} {path : String} {e : PlanError}
    (h : load files path = .error e) : e = .notFound path ∨
      (∃ fault, files path = .unreadable fault ∧ e = .malformed path (.unreadable fault)) ∨
      ∃ bytes f, files path = .regular bytes ∧
        (Value.record planShape).document bytes = .error f ∧
        e = .malformed path (.document (f.locate .stream bytes)) := by
  rw [load] at h
  split at h
  · next bytes hfile =>
    right
    right
    rw [ofBytes] at h
    cases hdocument : (Value.record planShape).document bytes with
    | ok plan =>
      rw [hdocument] at h
      cases h
    | error f =>
      rw [hdocument] at h
      cases h
      exact ⟨bytes, f, hfile, hdocument, rfl⟩
  · next fault hfile =>
    cases h
    exact .inr (.inl ⟨fault, hfile, rfl⟩)
  · left
    cases h
    rfl

theorem path_of_load_eq_error {files : String → Lookup} {path : String} {e : PlanError}
    (h : load files path = .error e) : e.path = path := by
  rcases load_eq_error_cases h with rfl | ⟨fault, -, rfl⟩ | ⟨bytes, f, -, -, rfl⟩
  all_goals rfl

/-- Where a stream puts a fault that memory puts at the index `i`. -/
theorem isAt_inStream {f : Fault} (hf : f.IsNear) {bytes : List UInt8} {i : Nat}
    (hi : i ≤ bytes.length) (h : (f.locate .memory bytes).position.IsAt bytes i) :
    (f.locate .stream bytes).position.IsAt bytes i ∨
      i < bytes.length ∧ (f.locate .stream bytes).position.IsAt bytes (i + 1) := by
  change (Position.ofIndex bytes f.inMemory).IsAt bytes i at h
  change (Position.ofIndex bytes f.inStream).IsAt bytes i ∨
    i < bytes.length ∧ (Position.ofIndex bytes f.inStream).IsAt bytes (i + 1)
  have hmin := Position.isAt_ofIndex bytes (min f.inMemory bytes.length)
  rw [Position.ofIndex_min] at hmin
  have hindex : i = min f.inMemory bytes.length :=
    Position.isAt_unique h hmin hi (Nat.min_le_right ..)
  obtain ⟨hle, hle'⟩ := hf
  rcases Nat.lt_or_ge f.inMemory bytes.length with hlt | hge
  · have hmemory : f.inMemory = i := by omega
    rcases Nat.lt_or_ge f.inMemory f.inStream with hnext | hsame
    · have hstream : f.inStream = i + 1 := by omega
      rw [hstream]
      exact .inr ⟨by omega, Position.isAt_ofIndex bytes (i + 1)⟩
    · have hstream : f.inStream = i := by omega
      rw [hstream]
      exact .inl (Position.isAt_ofIndex bytes i)
  · have hstream : min f.inStream bytes.length = i := by omega
    rw [← Position.ofIndex_min, hstream]
    exact .inl (Position.isAt_ofIndex bytes i)

/-- A text is read from a file as it is from memory, but a fault may be placed one index later. -/
theorem load_agrees_parse {files : String → Lookup} {path text : String}
    (h : files path = .regular (Utf8.ofString text)) :
    (∀ plan, load files path = .ok plan ↔ parse text = .ok plan) ∧
    ∀ fault, parse text = .error fault →
      ∃ fault', load files path = .error (.malformed path (.document fault')) ∧
        fault'.cause = fault.cause ∧
        (∃ i ≤ (Utf8.ofString text).length, fault.position.IsAt (Utf8.ofString text) i) ∧
        ∀ i ≤ (Utf8.ofString text).length, fault.position.IsAt (Utf8.ofString text) i →
          fault'.position.IsAt (Utf8.ofString text) i ∨
            i < (Utf8.ofString text).length ∧
              fault'.position.IsAt (Utf8.ofString text) (i + 1) := by
  let bytes := Utf8.ofString text
  have hload : load files path =
      ((Value.record planShape).document bytes).mapError
        fun f => PlanError.malformed path (.document (f.locate .stream bytes)) := by
    rw [load, h]
    change (ofBytes .stream bytes).mapError (PlanError.malformed path <| .document ·) = _
    rw [ofBytes]
    cases (Value.record planShape).document bytes <;> rfl
  have hparse : parse text =
      ((Value.record planShape).document bytes).mapError (·.locate .memory bytes) := rfl
  rw [hload, hparse]
  cases hdocument : (Value.record planShape).document bytes with
  | ok plan => simp [Except.mapError]
  | error f =>
    refine ⟨by simp [Except.mapError], ?_⟩
    intro fault hfault
    obtain rfl : f.locate .memory bytes = fault := Except.error.inj hfault
    refine ⟨_, rfl, rfl, ?_, fun i hi hplace => ?_⟩
    · refine ⟨min f.inMemory bytes.length, Nat.min_le_right .., ?_⟩
      have hmin := Position.isAt_ofIndex bytes (min f.inMemory bytes.length)
      rwa [Position.ofIndex_min] at hmin
    · exact isAt_inStream (isBuilt_plan.isNear_fault hdocument) hi hplace

/-- A line end behind a number is taken by a stream, so the places are on two lines. -/
theorem load_agrees_parse_number :
    parse "4\n" = .error ⟨.invalidType (.number (.integer 4)) "struct ChangePlan", ⟨1, 1⟩⟩ ∧
      ∃ fault', load (fun _ => .regular (Utf8.ofString "4\n")) "plan.json" =
          .error (.malformed "plan.json" (.document fault')) ∧
        fault'.cause = .invalidType (.number (.integer 4)) "struct ChangePlan" ∧
        fault'.position = ⟨2, 0⟩ := by
  let files : String → Lookup := fun _ => .regular (Utf8.ofString "4\n")
  have hparse : parse "4\n" =
      .error ⟨.invalidType (.number (.integer 4)) "struct ChangePlan", ⟨1, 1⟩⟩ := by
    decide +kernel
  refine ⟨hparse, ?_⟩
  obtain ⟨fault', hload, hcause, -, -⟩ :=
    (@load_agrees_parse files "plan.json" "4\n" rfl).2 _ hparse
  refine ⟨fault', hload, hcause, ?_⟩
  have hstream : load files "plan.json" = .error (.malformed "plan.json"
      (.document ⟨.invalidType (.number (.integer 4)) "struct ChangePlan", ⟨2, 0⟩⟩)) := by
    decide +kernel
  rw [hstream] at hload
  cases hload
  rfl

end DeletionGuard.Plan
