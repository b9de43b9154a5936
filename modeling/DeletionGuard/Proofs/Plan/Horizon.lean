import DeletionGuard.Proofs.Json.Decoding
import DeletionGuard.Proofs.Json.Horizon
import DeletionGuard.Proofs.Plan.Medium

/-!
# What a plan is refused for

The place that a fault of a plan names tells how much of the file it depends on. A file that begins
in the same way, up to that place, is refused in the same way, whatever comes behind it.
-/

namespace DeletionGuard.Plan

open Json

theorem isSpared_plan (cs : List Char) : (Value.record planShape).IsSpared cs := by
  have hactions : (Value.record actionsShape).IsSpared cs := by
    apply Value.IsSpared.record
    rw [actionsShape, List.forall_mem_singleton]
    exact .orNull (.list Value.isSpared_text) _
  have hchange : (Value.record changeShape).IsSpared cs := by
    apply Value.IsSpared.record
    rw [changeShape, List.forall_mem_cons, List.forall_mem_singleton]
    exact ⟨.orNull Value.isSpared_text _, .orNull hactions _⟩
  apply Value.IsSpared.record
  rw [planShape, List.forall_mem_singleton]
  exact .orNull (.list hchange) _

/-- The first `i` bytes of a text decide its fault: every file that begins with them and goes on has
it at the same place. -/
theorem load_error_settled {files : String → Lookup} {path text : String} {fault : LocatedFault}
    (hfile : files path = .regular (Utf8.ofString text))
    (h : load files path = .error (.malformed path (.document fault))) :
    ∃ i ≤ (Utf8.ofString text).length, fault.position.IsAt (Utf8.ofString text) i ∧
      (i < (Utf8.ofString text).length → ∀ (files' : String → Lookup) (path' : String)
        (bytes' : List UInt8), bytes'.take i = (Utf8.ofString text).take i →
          files' path' = .regular bytes' →
            load files' path' = .error (.malformed path' (.document fault))) := by
  obtain ⟨bytes, f, hbytes, hdocument, hfault⟩ :=
    ((load_eq_error_cases h).resolve_left nofun).resolve_left nofun
  obtain rfl : Utf8.ofString text = bytes := Lookup.regular.inj (hfile.symm.trans hbytes)
  obtain rfl : fault = f.locate .stream (Utf8.ofString text) :=
    PlanFault.document.inj (PlanError.malformed.inj hfault).2
  have hcause := (isSpared_plan text.toList).cause_ne hdocument
  refine ⟨min f.inStream (Utf8.ofString text).length, Nat.min_le_right .., ?_, ?_⟩
  · have hplace := Position.isAt_ofIndex (Utf8.ofString text)
      (min f.inStream (Utf8.ofString text).length)
    rwa [Position.ofIndex_min] at hplace
  · intro hlt files' path' bytes' htake hfile'
    have hindex : min f.inStream (Utf8.ofString text).length = f.inStream := by omega
    rw [hindex] at hlt htake
    have hmore : (Utf8.ofString text).drop f.inStream ≠ [] := by
      rw [Ne, List.drop_eq_nil_iff]
      omega
    have hknown : f.inStream ≤ ((Utf8.ofString text).take f.inStream).length := by
      rw [List.length_take]
      omega
    rw [← List.take_append_drop f.inStream (Utf8.ofString text)] at hdocument
    have hother := isBuilt_plan.document_settled hdocument hmore hcause hknown
      (bytes'.drop f.inStream)
    rw [← htake, List.take_append_drop] at hother
    have hlocate : f.locate .stream bytes' = f.locate .stream (Utf8.ofString text) := by
      rw [Fault.locate, Fault.locate, Position.ofIndex, Position.ofIndex]
      exact congrArg
        (fun known => LocatedFault.mk f.cause (known.foldl Position.after .start)) htake
    rw [load, hfile']
    change (ofBytes .stream bytes').mapError (PlanError.malformed path' <| .document ·) = _
    rw [ofBytes, hother, ← hlocate]
    rfl

/-- A missing colon is found as soon as another byte stands in its place, and what follows does not
make up for it. -/
theorem load_error_settled_colon :
    load (fun _ => .regular (Utf8.ofString "\x7b\"a\" 1\x7d")) "plan.json" =
        .error (.malformed "plan.json" (.document ⟨.expectedColon, ⟨1, 6⟩⟩)) ∧
      load (fun _ => .regular (Utf8.ofString "\x7b\"a\" 1,\"resource_changes\":[]\x7d"))
          "plan.json" =
        .error (.malformed "plan.json" (.document ⟨.expectedColon, ⟨1, 6⟩⟩)) := by
  let bytes := Utf8.ofString "\x7b\"a\" 1\x7d"
  have hload : load (fun _ => .regular bytes) "plan.json" =
      .error (.malformed "plan.json" (.document ⟨.expectedColon, ⟨1, 6⟩⟩)) := by
    decide +kernel
  obtain ⟨i, hi, hplace, hsettled⟩ := load_error_settled rfl hload
  have hsix : Position.IsAt ⟨1, 6⟩ bytes 6 := by
    rw [Position.IsAt]
    decide
  obtain rfl : i = 6 := Position.isAt_unique hplace hsix hi (by decide)
  exact ⟨hload, hsettled (by decide) _ _ _ (by decide) rfl⟩

end DeletionGuard.Plan
