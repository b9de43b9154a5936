import DeletionGuard.Proofs.Sink
import DeletionGuard.Writing

/-!
# What is lost when writing fails

However an output is cut into pieces, an outlet takes the bytes in front that it has room for. The
writing fails only if there are more, and always with the fault of the outlet itself, also where
the fault has passed through the writer of JSON.
-/

namespace DeletionGuard

namespace Outlet

/-- The outlet once it has been offered these bytes, and has taken those that it has room for. -/
def fill (o : Outlet) (bytes : List UInt8) : Outlet :=
  match o.left with
  | none => ⟨none, bytes.reverse ++ o.taken⟩
  | some n => ⟨some (n - bytes.length), (bytes.take n).reverse ++ o.taken⟩

/-- Whether there is room for these bytes. -/
def Fits (o : Outlet) (bytes : List UInt8) : Prop :=
  ∀ n ∈ o.left, bytes.length ≤ n

instance (o : Outlet) (bytes : List UInt8) : Decidable (o.Fits bytes) :=
  inferInstanceAs (Decidable (∀ n ∈ o.left, bytes.length ≤ n))

variable {o : Outlet} {bytes more : List UInt8}

@[simp]
theorem fill_none (taken bytes : List UInt8) :
    fill ⟨none, taken⟩ bytes = ⟨none, bytes.reverse ++ taken⟩ :=
  rfl

@[simp]
theorem fill_some (n : Nat) (taken bytes : List UInt8) :
    fill ⟨some n, taken⟩ bytes = ⟨some (n - bytes.length), (bytes.take n).reverse ++ taken⟩ :=
  rfl

@[simp]
theorem fits_none (taken bytes : List UInt8) : Fits ⟨none, taken⟩ bytes :=
  fun n hn => absurd hn (Option.not_mem_none n)

@[simp]
theorem fits_some (n : Nat) (taken bytes : List UInt8) :
    Fits ⟨some n, taken⟩ bytes ↔ bytes.length ≤ n := by
  simp [Fits]

theorem fill_nil (o : Outlet) : o.fill [] = o := by
  obtain ⟨left, taken⟩ := o
  cases left <;> simp

theorem fits_nil (o : Outlet) : o.Fits [] := fun n _ => n.zero_le

theorem fill_fill (o : Outlet) (bytes more : List UInt8) :
    (o.fill bytes).fill more = o.fill (bytes ++ more) := by
  obtain ⟨left, taken⟩ := o
  cases left with
  | none => simp
  | some n => simp [List.take_append, Nat.sub_add_eq]

theorem fits_append : o.Fits (bytes ++ more) ↔ o.Fits bytes ∧ (o.fill bytes).Fits more := by
  obtain ⟨left, taken⟩ := o
  cases left with
  | none => simp
  | some n =>
    simp only [fill_some, fits_some, List.length_append]
    omega

/-- An outlet without room for these bytes is the same with whatever stands behind them. -/
theorem fill_append_of_not_fits (h : ¬o.Fits bytes) : o.fill (bytes ++ more) = o.fill bytes := by
  obtain ⟨left, taken⟩ := o
  cases left with
  | none => exact absurd (fits_none taken bytes) h
  | some n =>
    rw [fits_some, Nat.not_le] at h
    have hbytes : n - bytes.length = 0 := by omega
    simp [List.take_append, hbytes, Nat.sub_add_eq]

end Outlet

/-- Writing that comes to these bytes. An outlet takes what it has room for, and tells with `fault`
that there is more. -/
structure Writes {ε : Type} (w : Writing ε Unit) (fault : ε) (bytes : List UInt8) : Prop where
  of_fits : ∀ o : Outlet, o.Fits bytes → w o = (.ok (), o.fill bytes)
  of_not_fits : ∀ o : Outlet, ¬o.Fits bytes → w o = (.error fault, o.fill bytes)

namespace Writes

section

variable {ε ε' : Type} {fault : ε}

theorem nil (fault : ε) : Writes (pure ()) fault [] := by
  constructor
  · intro o _
    rw [o.fill_nil]
    rfl
  · intro o h
    exact absurd o.fits_nil h

theorem run_bind_of_ok {α β : Type} {w : Writing ε α} {k : α → Writing ε β} {o o' : Outlet} {a : α}
    (h : w o = (.ok a, o')) : (w >>= k) o = k a o' := by
  change ExceptT.bindCont k (w o).1 (w o).2 = _
  rw [h]
  rfl

theorem run_bind_of_error {α β : Type} {w : Writing ε α} {k : α → Writing ε β} {o o' : Outlet}
    {f : ε} (h : w o = (.error f, o')) : (w >>= k) o = (.error f, o') := by
  change ExceptT.bindCont k (w o).1 (w o).2 = _
  rw [h]
  rfl

theorem bind {w w' : Writing ε Unit} {bytes bytes' : List UInt8} (h : Writes w fault bytes)
    (h' : Writes w' fault bytes') : Writes (w >>= fun _ => w') fault (bytes ++ bytes') := by
  constructor
  · intro o hfits
    obtain ⟨hbytes, hbytes'⟩ := Outlet.fits_append.1 hfits
    rw [run_bind_of_ok (h.of_fits o hbytes), h'.of_fits _ hbytes', Outlet.fill_fill]
  · intro o hnot
    by_cases hbytes : o.Fits bytes
    · have hbytes' : ¬(o.fill bytes).Fits bytes' := fun hbytes' =>
        hnot (Outlet.fits_append.2 ⟨hbytes, hbytes'⟩)
      rw [run_bind_of_ok (h.of_fits o hbytes), h'.of_not_fits _ hbytes', Outlet.fill_fill]
    · rw [run_bind_of_error (h.of_not_fits o hbytes), Outlet.fill_append_of_not_fits hbytes]

theorem adapt {w : Writing ε Unit} {bytes : List UInt8} (h : Writes w fault bytes) (g : ε → ε') :
    Writes (w.adapt g) (g fault) bytes := by
  have hadapt (o : Outlet) : (w.adapt g) o = ((w o).1.mapError g, (w o).2) := rfl
  constructor
  · intro o hfits
    rw [hadapt, h.of_fits o hfits]
    rfl
  · intro o hnot
    rw [hadapt, h.of_not_fits o hnot]
    rfl

theorem forM {α : Type} {f : α → Writing ε Unit} {bytesOf : α → List UInt8}
    (h : ∀ a, Writes (f a) fault (bytesOf a)) (as : List α) :
    Writes (as.forM f) fault (as.flatMap bytesOf) := by
  induction as with
  | nil => exact nil fault
  | cons a as ih =>
    rw [List.flatMap_cons]
    exact (h a).bind ih

end

/-- An outlet is full, or takes some of the bytes in front that it has room for. -/
theorem offer_cases (o : Outlet) {bytes : List UInt8} (hne : bytes ≠ []) :
    (¬o.Fits bytes ∧ Outlet.offer bytes o = (.error .brokenPipe, o.fill bytes)) ∨
    ∃ n, o.Fits (bytes.take (n + 1)) ∧
      Outlet.offer bytes o = (.ok (n + 1), o.fill (bytes.take (n + 1))) := by
  have hlength : 0 < bytes.length := List.length_pos_of_ne_nil hne
  obtain ⟨left, taken⟩ := o
  match left with
  | none =>
    right
    refine ⟨bytes.length - 1, Outlet.fits_none _ _, ?_⟩
    rw [Nat.sub_add_cancel hlength, List.take_length]
    rfl
  | some 0 =>
    left
    constructor
    · rw [Outlet.fits_some]
      omega
    · cases bytes with
      | nil => exact absurd rfl hne
      | cons b bs =>
        change (_, Outlet.mk (some 0) taken) = (_, Outlet.mk (some (0 - _)) taken)
        rw [Nat.zero_sub]
  | some (room + 1) =>
    right
    have hpart : bytes.take (min room (bytes.length - 1) + 1) = bytes.take (room + 1) := by
      rw [List.take_eq_take_iff]
      omega
    have hcount : (bytes.take (room + 1)).length = min room (bytes.length - 1) + 1 := by
      rw [List.length_take]
      omega
    refine ⟨min room (bytes.length - 1), ?_, ?_⟩
    · rw [Outlet.fits_some, List.length_take]
      omega
    · rw [hpart, ← hcount]
      have htake : (bytes.take (room + 1)).take (room + 1) = bytes.take (room + 1) := by
        rw [List.take_take, Nat.min_self]
      simp only [Outlet.fill, htake]
      rfl

theorem writeAll (bytes : List UInt8) : Writes (Outlet.writeAll bytes) .brokenPipe bytes := by
  induction hlength : bytes.length using Nat.strongRecOn generalizing bytes with
  | ind length ih =>
    cases bytes with
    | nil =>
      rw [Outlet.writeAll]
      exact nil _
    | cons b bs =>
      have hrest (n : Nat) : Writes (Outlet.writeAll (bs.drop n)) .brokenPipe (bs.drop n) := by
        refine ih _ ?_ _ rfl
        rw [← hlength, List.length_drop, List.length_cons]
        omega
      have hsplit (n : Nat) : b :: bs = (b :: bs).take (n + 1) ++ bs.drop n :=
        (List.take_append_drop (n + 1) (b :: bs)).symm
      have hfill (o : Outlet) (n : Nat) :
          o.fill (b :: bs) = (o.fill ((b :: bs).take (n + 1))).fill (bs.drop n) := by
        rw [Outlet.fill_fill, ← hsplit]
      rw [Outlet.writeAll]
      constructor
      · intro o hfits
        rcases offer_cases o (List.cons_ne_nil b bs) with ⟨hnot, -⟩ | ⟨n, -, hoffer⟩
        · exact absurd hfits hnot
        · rw [hsplit n, Outlet.fits_append] at hfits
          rw [run_bind_of_ok hoffer, hfill o n]
          exact (hrest n).of_fits _ hfits.2
      · intro o hnot
        rcases offer_cases o (List.cons_ne_nil b bs) with ⟨-, hoffer⟩ | ⟨n, hpart, hoffer⟩
        · exact run_bind_of_error hoffer
        · rw [hsplit n, Outlet.fits_append, not_and] at hnot
          rw [run_bind_of_ok hoffer, hfill o n]
          exact (hrest n).of_not_fits _ (hnot hpart)

theorem writeLine (pieces : List String) :
    Writes (DeletionGuard.writeLine pieces) .brokenPipe (pieces.flatMap Utf8.ofString) :=
  forM (fun piece => writeAll (Utf8.ofString piece)) pieces

theorem serialize (t : Json.Tree) :
    Writes t.serialize (.outlet .brokenPipe) (t.pieces.flatMap Utf8.ofString) :=
  forM (fun piece => (writeAll (Utf8.ofString piece)).adapt Json.WriteError.outlet) t.pieces

theorem write (r : Report) (v : Verdict) :
    Writes (r.write v) .brokenPipe ((r.pieces v).flatMap Utf8.ofString) := by
  rw [Report.write, Report.pieces]
  cases r.format with
  | text =>
    cases v with
    | success => exact writeLine r.successLine
    | violations changes =>
      have hchanges := forM (fun rc => writeLine (Report.changeLine rc)) changes
      rw [← List.flatMap_assoc] at hchanges
      have hall := (writeLine r.violationsHead).bind (hchanges.bind (writeLine r.hintLine))
      rw [← List.flatMap_append, ← List.flatMap_append, ← List.append_assoc] at hall
      exact hall
  | json =>
    rw [List.flatMap_append]
    exact ((serialize (r.tree v)).adapt Json.WriteError.fault).bind (writeLine ["\n"])

end Writes

/-! ### Limited room -/

namespace Sink

theorem foldl_write_of_failed (pieces : List String) (left : Room) (taken : List UInt8) :
    pieces.foldl write ⟨left, taken, true⟩ = ⟨left, taken, true⟩ := by
  induction pieces with
  | nil => rfl
  | cons piece pieces ih => exact ih

theorem write_eq_fill (o : Outlet) (piece : String) :
    write ⟨o.left, o.taken, false⟩ piece = ⟨(o.fill (Utf8.ofString piece)).left,
      (o.fill (Utf8.ofString piece)).taken, !decide (o.Fits (Utf8.ofString piece))⟩ := by
  obtain ⟨left, taken⟩ := o
  cases left with
  | none => simp [write]
  | some n =>
    have hfailed (m : Nat) : decide (n < m) = !decide (m ≤ n) := by
      rw [← decide_not]
      exact decide_eq_decide.2 Nat.not_le.symm
    simp [write, hfailed]

/-- A sink takes of the pieces what an outlet takes of all their bytes. -/
theorem foldl_write_eq_fill (pieces : List String) (o : Outlet) :
    pieces.foldl write ⟨o.left, o.taken, false⟩ = ⟨(o.fill (pieces.flatMap Utf8.ofString)).left,
      (o.fill (pieces.flatMap Utf8.ofString)).taken,
      !decide (o.Fits (pieces.flatMap Utf8.ofString))⟩ := by
  induction pieces generalizing o with
  | nil =>
    rw [List.flatMap_nil, o.fill_nil, decide_eq_true o.fits_nil]
    rfl
  | cons piece pieces ih =>
    rw [List.foldl_cons, write_eq_fill, List.flatMap_cons]
    by_cases hpiece : o.Fits (Utf8.ofString piece)
    · simp only [hpiece, decide_true, Bool.not_true, ih, Outlet.fill_fill, Outlet.fits_append,
        true_and]
    · simp only [hpiece, decide_false, Bool.not_false, foldl_write_of_failed, Outlet.fits_append,
        Outlet.fill_append_of_not_fits hpiece, false_and]

end Sink

namespace Writing

/-- All that is written where there is room for it. -/
def output (w : Writing WriteFault Unit) : List UInt8 :=
  (w (.ofRoom none)).2.bytes

/-- Whether nothing is lost but what there is no room for, and this is always told. -/
def LosesOnlyTheRest (w : Writing WriteFault Unit) : Prop :=
  (w (.ofRoom none)).1 = .ok () ∧
  ∀ k, (w (.ofRoom (some k))).2.bytes = w.output.take (min k w.output.length) ∧
    ((w (.ofRoom (some k))).1 = .ok () ↔ w.output.length ≤ k) ∧
    (k < w.output.length → (w (.ofRoom (some k))).1 = .error .brokenPipe)

end Writing

namespace Writes

variable {w : Writing WriteFault Unit} {bytes : List UInt8}

theorem run_none (h : Writes w .brokenPipe bytes) :
    w (.ofRoom none) = (.ok (), ⟨none, bytes.reverse⟩) := by
  rw [Outlet.ofRoom, h.of_fits ⟨none, []⟩ (Outlet.fits_none _ _), Outlet.fill_none,
    List.append_nil]

theorem run_some (h : Writes w .brokenPipe bytes) (k : Nat) :
    w (.ofRoom (some k)) = (if bytes.length ≤ k then .ok () else .error .brokenPipe,
      ⟨some (k - bytes.length), (bytes.take k).reverse⟩) := by
  have hfill : Outlet.fill ⟨some k, []⟩ bytes =
      ⟨some (k - bytes.length), (bytes.take k).reverse⟩ := by
    rw [Outlet.fill_some, List.append_nil]
  rw [Outlet.ofRoom, ← hfill]
  by_cases hroom : bytes.length ≤ k
  · rw [if_pos hroom]
    exact h.of_fits _ ((Outlet.fits_some k [] bytes).2 hroom)
  · rw [if_neg hroom]
    exact h.of_not_fits _ (mt (Outlet.fits_some k [] bytes).1 hroom)

/-- Writing to an outlet comes to the same as handing the pieces to a sink. -/
theorem ofWriting_eq {pieces : List String}
    (h : Writes w .brokenPipe (pieces.flatMap Utf8.ofString)) (room : Room) :
    Written.ofWriting w room = writePieces room pieces := by
  have hsink := Sink.foldl_write_eq_fill pieces (.ofRoom room)
  rw [writePieces, show Sink.ofRoom room = ⟨room, [], false⟩ from rfl]
  rw [Outlet.ofRoom] at hsink
  rw [hsink, Written.ofWriting]
  by_cases hfits : (Outlet.ofRoom room).Fits (pieces.flatMap Utf8.ofString)
  · rw [h.of_fits _ hfits]
    rw [Outlet.ofRoom] at hfits
    rw [decide_eq_true hfits]
    rfl
  · rw [h.of_not_fits _ hfits]
    rw [Outlet.ofRoom] at hfits
    rw [decide_eq_false hfits]
    rfl

theorem output_eq (h : Writes w .brokenPipe bytes) : w.output = bytes := by
  rw [Writing.output, h.run_none, Outlet.bytes, List.reverse_reverse]

theorem losesOnlyTheRest (h : Writes w .brokenPipe bytes) : w.LosesOnlyTheRest := by
  rw [Writing.LosesOnlyTheRest, h.output_eq, h.run_none]
  refine ⟨rfl, fun k => ?_⟩
  rw [h.run_some, Outlet.bytes, List.reverse_reverse, ← List.take_eq_take_min]
  refine ⟨rfl, ?_, fun hk => if_neg (Nat.not_le.2 hk)⟩
  by_cases hroom : bytes.length ≤ k
  · simp [hroom]
  · simp [hroom]

end Writes

namespace Report

theorem ofWriting_writeInputError (e : PlanError) (room : Room) :
    Written.ofWriting (writeInputError e) room = writePieces room (inputError e) :=
  (Writes.writeLine (inputError e)).ofWriting_eq room

/-- However little room there is, what is taken is the output up to there, and nothing is lost
without a fault. -/
theorem writing_losesOnlyTheRest (r : Report) (v : Verdict) (message : String) (e : PlanError) :
    ((r.write v).LosesOnlyTheRest ∧
      (r.write v).output = (writePieces none (r.pieces v)).bytes) ∧
    ((writeErrorLine message).LosesOnlyTheRest ∧
      (writeErrorLine message).output = Utf8.ofString ("ERROR: " ++ message ++ "\n")) ∧
    ((writeInputError e).LosesOnlyTheRest ∧
      (writeInputError e).output = Utf8.ofString ("ERROR: " ++ e.message ++ "\n")) := by
  have hline (message : String) : (writeErrorLine message).LosesOnlyTheRest ∧
      (writeErrorLine message).output = Utf8.ofString ("ERROR: " ++ message ++ "\n") := by
    have hwrites := Writes.writeLine (errorLine message)
    refine ⟨hwrites.losesOnlyTheRest, hwrites.output_eq.trans ?_⟩
    rw [flatMap_ofString, Utf8.ofString]
    simp [errorLine]
  refine ⟨⟨(Writes.write r v).losesOnlyTheRest, ?_⟩, hline message, hline e.message⟩
  rw [(Writes.write r v).output_eq, writePieces_none, flatMap_ofString]

end Report

end DeletionGuard
