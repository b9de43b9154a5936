import DeletionGuard.Proofs.Json.ReadBack
import DeletionGuard.Proofs.Sink
import DeletionGuard.Report

/-!
# Reports as JSON

A report in JSON is one line, and whoever reads it knows the verdict and what is protected.
-/

namespace DeletionGuard.Report

open Json

variable {r : Report}

theorem bytes_json (h : r.format = .json) (v : Verdict) :
    writePieces none (r.pieces v) = ⟨Utf8.encode (r.tree v).chars ++ [0x0A], false⟩ := by
  rw [writePieces_none, pieces, h, List.flatMap_append, Utf8.encode_append]
  rfl

theorem changeTree_injective : Function.Injective changeTree := by
  rintro ⟨address, actions⟩ ⟨address', actions'⟩ h
  simp only [changeTree, Tree.object.injEq, List.cons.injEq, Prod.mk.injEq, true_and, and_true,
    Tree.text.injEq, Tree.list.injEq] at h
  obtain ⟨rfl, hactions⟩ := h
  have htext : Function.Injective Tree.text := fun _ _ => Tree.text.inj
  rw [List.map_injective_iff.2 htext hactions]

theorem eq_of_tree_eq {r' : Report} {v v' : Verdict} (h : r'.tree v' = r.tree v) :
    r'.addressStart = r.addressStart ∧ v' = v := by
  simp only [tree, Tree.object.injEq, List.cons.injEq, Prod.mk.injEq, true_and, and_true,
    Tree.text.injEq, Tree.list.injEq] at h
  obtain ⟨hstatus, hstart, hchanges⟩ := h
  refine ⟨hstart, ?_⟩
  have hlist : v'.changes = v.changes := List.map_injective_iff.2 changeTree_injective hchanges
  cases v with
  | success =>
    cases v' with
    | success => rfl
    | violations changes' => exact absurd hstatus (by decide : "violations" ≠ "ok")
  | violations changes =>
    cases v' with
    | success => exact absurd hstatus (by decide : "ok" ≠ "violations")
    | violations changes' => exact congrArg Verdict.violations hlist

theorem le_of_mem_encode {cs : List Char} (h : ∀ c ∈ cs, 0x20 ≤ c.toNat) {b : UInt8}
    (hb : b ∈ Utf8.encode cs) : 0x20 ≤ b := by
  obtain ⟨c, hc, hb⟩ := List.mem_flatMap.1 hb
  rw [UInt8.le_iff_toNat_le]
  rcases Nat.lt_or_ge c.toNat 0x80 with hlt | hge
  · rw [Utf8.encodeChar_of_lt hlt, List.mem_singleton] at hb
    have hbyte : b.toNat = c.toNat := by
      rw [hb]
      exact toNat_byte hlt
    rw [hbyte]
    exact h c hc
  · have hle := UInt8.le_iff_toNat_le.1 (Utf8.le_of_mem_encodeChar hge hb)
    exact Nat.le_trans (by decide) hle

/-- A report in JSON is a line that holds the status, the protected beginning and the violations, so
no two reports are the same. -/
theorem json_lossless (h : r.format = .json) (v : Verdict) :
    ∃ body, writePieces none (r.pieces v) = ⟨body ++ [0x0A], false⟩ ∧ (∀ b ∈ body, 0x20 ≤ b) ∧
      (∃ d : Document, Utf8.ofString d.text = body) ∧
      (∀ d : Document, Utf8.ofString d.text = body → d.value.tree? = some (.object [
        ("status", .text (match v with | .success => "ok" | .violations _ => "violations")),
        ("prefix", .text r.addressStart),
        ("violations", .list (v.changes.map fun rc => .object [
          ("address", .text rc.address), ("actions", .list (rc.actions.map .text))]))])) ∧
      ∀ (r' : Report) (v' : Verdict), r'.format = .json →
        (writePieces none (r'.pieces v')).bytes = (writePieces none (r.pieces v)).bytes →
          r'.addressStart = r.addressStart ∧ v' = v := by
  have hdocument {d : Document} :
      Utf8.ofString d.text = Utf8.encode (r.tree v).chars ↔
        d.render Node.text = (r.tree v).chars := by
    rw [Document.text, Utf8.ofString, String.toList_ofList]
    exact ⟨Utf8.encode_injective, congrArg Utf8.encode⟩
  refine ⟨Utf8.encode (r.tree v).chars, bytes_json h v, ?_, ?_, ?_, ?_⟩
  · exact fun b => le_of_mem_encode (r.tree v).le_toNat
  · obtain ⟨n, hn⟩ := (r.tree v).exists_node
    exact ⟨bare n, hdocument.2 (by simp [Padded.render, bare, hn])⟩
  · exact fun d hd => Tree.tree?_of_document (hdocument.1 hd)
  · intro r' v' h' hbytes
    rw [bytes_json h, bytes_json h'] at hbytes
    have hchars := Utf8.encode_injective (List.append_cancel_right hbytes)
    obtain ⟨n, hn⟩ := (r.tree v).exists_node
    have hn' : (bare n).render Node.text = (r.tree v).chars := by simp [Padded.render, bare, hn]
    have htree := Tree.tree?_of_document hn'
    rw [Tree.tree?_of_document (hn'.trans hchars.symm)] at htree
    exact eq_of_tree_eq (Option.some.inj htree)

/-- A quote in the protected beginning and a line end in an address are told apart from the marks
of the report. -/
theorem json_lossless_escaped :
    ∃ body, writePieces none (pieces ⟨"a\"", .json, false, false⟩
        (.violations [⟨"b\n", ["delete"]⟩])) = ⟨body ++ [0x0A], false⟩ ∧ 0x0A ∉ body ∧
      ∃ d : Document, Utf8.ofString d.text = body ∧ d.value.tree? = some (.object [
        ("status", .text "violations"), ("prefix", .text "a\""),
        ("violations", .list [
          .object [("address", .text "b\n"), ("actions", .list [.text "delete"])]])]) := by
  obtain ⟨body, hbytes, hplain, ⟨d, hd⟩, htree, -⟩ :=
    @json_lossless ⟨"a\"", .json, false, false⟩ rfl (.violations [⟨"b\n", ["delete"]⟩])
  refine ⟨body, hbytes, fun h => ?_, d, hd, htree d hd⟩
  exact absurd (hplain _ h) (by decide)

end DeletionGuard.Report
