import DeletionGuard.Proofs.Text.Utf8
import DeletionGuard.Sink

/-!
# What a sink without end takes

A sink that has room for everything takes the pieces one after the other, so it comes to the same
whether a text is written whole or in pieces.
-/

namespace DeletionGuard

namespace Sink

theorem foldl_write (pieces : List String) (taken : List UInt8) :
    pieces.foldl write ⟨none, taken, false⟩ =
      ⟨none, (pieces.flatMap Utf8.ofString).reverse ++ taken, false⟩ := by
  induction pieces generalizing taken with
  | nil => rfl
  | cons piece pieces ih =>
    have hwrite : write ⟨none, taken, false⟩ piece =
        ⟨none, (Utf8.ofString piece).reverse ++ taken, false⟩ := rfl
    rw [List.foldl_cons, hwrite, ih, List.flatMap_cons, List.reverse_append, List.append_assoc]

end Sink

theorem flatMap_ofString (pieces : List String) :
    pieces.flatMap Utf8.ofString = Utf8.encode (pieces.flatMap String.toList) := by
  induction pieces with
  | nil => rfl
  | cons piece pieces ih =>
    rw [List.flatMap_cons, List.flatMap_cons, Utf8.encode_append, ih]
    rfl

theorem writePieces_none (pieces : List String) :
    writePieces none pieces = ⟨Utf8.encode (pieces.flatMap String.toList), false⟩ := by
  rw [writePieces, Sink.ofRoom, Sink.foldl_write, flatMap_ofString, List.append_nil,
    List.reverse_reverse]

theorem text_writePieces_none (pieces : List String) :
    (writePieces none pieces).text = String.join pieces := by
  rw [writePieces_none, Written.text, Utf8.decode_encode, ← String.toList_inj,
    String.toList_ofList, String.toList_join]

end DeletionGuard
