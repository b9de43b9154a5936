import DeletionGuard.Proofs.Json.Skip
import DeletionGuard.Proofs.Json.Truncation.Basic

/-!
# Numbers that are cut short

A number has no closing mark, so a cut can leave a shorter number. `Numeric` is what holds of the
readers that a number is skipped with: what they pass of a document they also pass where it is cut
behind it, and where it is cut within it they fail or pass all that is left.
-/

namespace DeletionGuard.Json

open Utf8 (encode)

/-- What `r` comes to before `d` if it passes `passed` and gives `a` where more follows. -/
inductive Shortened {α : Type} (r : Read α) (d : Cursor) (passed : List UInt8) (a : α) : Prop
  | whole {d' : Cursor} (run : r.run d = .ok (a, d')) (split : d.rest = passed ++ d'.rest)
  | cut (v : List UInt8) (ne_nil : v ≠ []) (split : passed = d.rest ++ v)
      (left : ∀ a' d', r.run d = .ok (a', d') → d'.rest = [])

/-- `r` passes ASCII only, and loses nothing but what is cut off. -/
def Numeric {α : Type} (r : Read α) : Prop :=
  ∀ (c d : Cursor) (right : List UInt8), c.rest = d.rest ++ right →
    ∀ a c', r.run c = .ok (a, c') →
      ∃ passed, (∀ b ∈ passed, b < 0x80) ∧ c.rest = passed ++ c'.rest ∧ Shortened r d passed a

namespace Shortened

variable {α : Type} {r r' : Read α} {d d₁ : Cursor} {passed : List UInt8} {a : α}

/-- At the end nothing can be passed. -/
theorem nil (hd : d.rest = []) (hpassed : passed ≠ []) : Shortened r d passed a := by
  refine .cut passed hpassed (by rw [hd, List.nil_append]) fun a' d' hrun => ?_
  have hle : d'.rest.length ≤ d.rest.length := r.forward d a' d' hrun
  rw [hd] at hle
  exact List.eq_nil_of_length_eq_zero (Nat.le_zero.1 hle)

/-- Once a byte has been passed, the rest of the run counts. -/
theorem push {b : UInt8} (hd : d.rest = b :: d₁.rest) (hrun : r.run d = r'.run d₁)
    (h : Shortened r' d₁ passed a) : Shortened r d (b :: passed) a := by
  rcases h with ⟨hd', hsplit⟩ | ⟨v, hv, hsplit, hleft⟩
  · exact .whole (hrun.trans hd') (by rw [hd, hsplit, List.cons_append])
  · refine .cut v hv (by rw [hd, hsplit, List.cons_append]) fun a' d' h => ?_
    exact hleft a' d' (hrun.symm.trans h)

end Shortened

namespace Numeric

variable {α β : Type} {r r' : Read α}

theorem pure (a : α) : Numeric (pure a : Read α) := by
  intro c d right _ a' c' hrun
  cases hrun
  exact ⟨[], by simp, rfl, .whole rfl rfl⟩

theorem fails (h : Read.Fails r) : Numeric r := by
  intro c d right _ a c' hrun
  obtain ⟨f, hf⟩ := h c
  rw [hf] at hrun
  cases hrun

theorem ite {C : Prop} [Decidable C] (h : Numeric r) (h' : Numeric r') :
    Numeric (if C then r else r') := by
  split
  · exact h
  · exact h'

theorem bind {p : Read α} {q : α → Read β} (hp : Numeric p) (hq : ∀ a, Numeric (q a)) :
    Numeric (p >>= q) := by
  intro c d right hc b c' hrun
  obtain ⟨a, c₁, hrun₁, hrun₂⟩ := Reader.run_bind_eq_ok.1 hrun
  obtain ⟨passed, hascii, hsplit, hshort⟩ := hp c d right hc a c₁ hrun₁
  rcases hshort with @⟨d₁, hd₁, hsplitd⟩ | ⟨v, hv, hsplitd, hleft⟩
  · have hc₁ : c₁.rest = d₁.rest ++ right := by
      rw [hc, hsplitd, List.append_assoc] at hsplit
      exact (List.append_cancel_left hsplit).symm
    obtain ⟨passed', hascii', hsplit', hshort'⟩ := hq a c₁ d₁ right hc₁ b c' hrun₂
    have hbind : (p >>= q).run d = (q a).run d₁ := by rw [Reader.run_bind, hd₁]
    refine ⟨passed ++ passed', ?_, by rw [hsplit, hsplit', List.append_assoc], ?_⟩
    · exact fun b hb => (List.mem_append.1 hb).elim (hascii b) (hascii' b)
    · rcases hshort' with ⟨hd', hsplitd'⟩ | ⟨v, hv, hsplitd', hleft⟩
      · exact .whole (hbind.trans hd') (by rw [hsplitd, hsplitd', List.append_assoc])
      · refine .cut v hv (by rw [hsplitd, hsplitd', List.append_assoc]) fun b' d' h => ?_
        exact hleft b' d' (hbind.symm.trans h)
  · obtain ⟨passed', hascii', hsplit', -⟩ := hq a c₁ c₁ [] (List.append_nil _).symm b c' hrun₂
    refine ⟨passed ++ passed', ?_, by rw [hsplit, hsplit', List.append_assoc], ?_⟩
    · exact fun b hb => (List.mem_append.1 hb).elim (hascii b) (hascii' b)
    · refine .cut (v ++ passed') (List.append_ne_nil_of_left_ne_nil hv _) ?_ fun b' d' h => ?_
      · rw [hsplitd, List.append_assoc]
      · obtain ⟨a', d₁, hd₁, hd'⟩ := Reader.run_bind_eq_ok.1 h
        have hle : d'.rest.length ≤ d₁.rest.length := (q a').forward d₁ b' d' hd'
        rw [hleft a' d₁ hd₁] at hle
        exact List.eq_nil_of_length_eq_zero (Nat.le_zero.1 hle)

/-! ### The bytes of a number -/

theorem takeWhile {p : UInt8 → Bool} (hp : ∀ b, p b = true → b < 0x80) :
    Numeric (Read.takeWhile p) := by
  have hrest (c : Cursor) : (c.pass (c.rest.takeWhile p).length).look.rest = c.rest.dropWhile p := by
    rw [Cursor.rest_look]
    change c.rest.drop (c.rest.takeWhile p).length = _
    nth_rewrite 2 [← List.takeWhile_append_dropWhile (p := p) (l := c.rest)]
    exact List.drop_left
  intro c d right hc a c' hrun
  cases hrun
  refine ⟨c.rest.takeWhile p, fun b hb => hp b (List.mem_takeWhile_imp hb), ?_, ?_⟩
  · rw [hrest, List.takeWhile_append_dropWhile]
  · have hwhole (h : c.rest.takeWhile p = d.rest.takeWhile p) :
        Shortened (Read.takeWhile p) d (c.rest.takeWhile p) (c.rest.takeWhile p) := by
      rw [h]
      exact .whole rfl (by rw [hrest, List.takeWhile_append_dropWhile])
    by_cases hall : (d.rest.takeWhile p).length = d.rest.length
    · have htake : c.rest.takeWhile p = d.rest ++ right.takeWhile p := by
        rw [hc, List.takeWhile_append, if_pos hall]
      have hleft : d.rest.takeWhile p = d.rest := (List.takeWhile_prefix p).eq_of_length hall
      by_cases hright : right.takeWhile p = []
      · exact hwhole (by rw [htake, hright, List.append_nil, hleft])
      · refine .cut _ hright htake fun a' d' h => ?_
        cases h
        rw [hrest]
        exact List.dropWhile_eq_nil_iff.2 fun b hb => List.mem_takeWhile_imp (hleft.symm ▸ hb)
    · exact hwhole (by rw [hc, List.takeWhile_append, if_neg hall])

/-- Where a reader passes a byte first, it is what it does then that counts. -/
theorem afterByte {b : UInt8} (hb : b < 0x80) (hr : Numeric r')
    (hstep : ∀ (c : Cursor) bs, c.rest = b :: bs →
      ∃ c₁ : Cursor, c.rest = b :: c₁.rest ∧ r.run c = r'.run c₁)
    {c d c' : Cursor} {bs right : List UInt8} {a : α} (hc : c.rest = d.rest ++ right)
    (hbytes : c.rest = b :: bs) (hrun : r.run c = .ok (a, c')) :
    ∃ passed, (∀ b ∈ passed, b < 0x80) ∧ c.rest = passed ++ c'.rest ∧ Shortened r d passed a := by
  obtain ⟨c₁, hc₁, hrun₁⟩ := hstep c bs hbytes
  rw [hrun₁] at hrun
  cases hdbytes : d.rest with
  | nil =>
    obtain ⟨passed, hascii, hsplit, -⟩ := hr c₁ c₁ [] (List.append_nil _).symm a c' hrun
    refine ⟨b :: passed, List.forall_mem_cons.2 ⟨hb, hascii⟩, ?_, .nil hdbytes (by simp)⟩
    rw [hc₁, hsplit, List.cons_append]
  | cons b' ds =>
    obtain rfl : b' = b := by
      rw [hc, hdbytes, List.cons_append] at hbytes
      exact (List.cons.inj hbytes).1
    obtain ⟨d₁, hd₁, hdrun⟩ := hstep d ds hdbytes
    have hrest : c₁.rest = d₁.rest ++ right := by
      rw [hc₁, hd₁, List.cons_append] at hc
      exact (List.cons.inj hc).2
    obtain ⟨passed, hascii, hsplit, hshort⟩ := hr c₁ d₁ right hrest a c' hrun
    refine ⟨b' :: passed, List.forall_mem_cons.2 ⟨hb, hascii⟩, ?_, hshort.push hd₁ hdrun⟩
    rw [hc₁, hsplit, List.cons_append]

theorem run_peek_bind (f : Option UInt8 → Read α) (c : Cursor) :
    (Read.peek >>= f).run c = (f c.rest.head?).run c.look := rfl

/-- Where the byte that is looked at makes no difference, it is left to what comes behind it. -/
theorem peek_of_eq {f : Option UInt8 → Read α} (hnone : Numeric (f none)) {c d c' : Cursor}
    {right : List UInt8} {a : α} (hc : c.rest = d.rest ++ right)
    (hhead : f c.rest.head? = f none) (hhead' : f d.rest.head? = f none)
    (hrun : (Read.peek >>= f).run c = .ok (a, c')) :
    ∃ passed, (∀ b ∈ passed, b < 0x80) ∧ c.rest = passed ++ c'.rest ∧
      Shortened (Read.peek >>= f) d passed a := by
  have hpeek' : (Read.peek >>= f).run d = (f none).run d.look := by rw [run_peek_bind, hhead']
  rw [run_peek_bind, hhead] at hrun
  obtain ⟨passed, hascii, hsplit, hshort⟩ := hnone c.look d.look right
    (by rw [Cursor.rest_look, Cursor.rest_look, hc]) a c' hrun
  rw [Cursor.rest_look] at hsplit
  refine ⟨passed, hascii, hsplit, ?_⟩
  rcases hshort with ⟨hd', hsplitd⟩ | ⟨v, hv, hsplitd, hleft⟩
  · exact .whole (hpeek'.trans hd') (by rw [← Cursor.rest_look d, hsplitd])
  · refine .cut v hv (by rw [hsplitd, Cursor.rest_look]) fun a' d' h => ?_
    exact hleft a' d' (hpeek'.symm.trans h)

/-- A byte is looked at: what it leads to begins with it, or would be the same without it. -/
theorem peek {f : Option UInt8 → Read α} (hnone : Numeric (f none))
    (hsome : ∀ b, f (some b) = f none ∨ Read.Fails (f (some b)) ∨
      b < 0x80 ∧ ∃ r, f (some b) = (Read.discard >>= fun _ => r) ∧ Numeric r) :
    Numeric (Read.peek >>= f) := by
  intro c d right hc a c' hrun
  cases hbytes : c.rest with
  | nil =>
    have hd : d.rest = [] := (List.append_eq_nil_iff.1 (hc.symm.trans hbytes)).1
    rw [← hbytes]
    apply peek_of_eq hnone hc _ _ hrun
    · rw [hbytes, List.head?_nil]
    · rw [hd, List.head?_nil]
  | cons b bs =>
    rw [← hbytes]
    rcases hsome b with heq | hfails | ⟨hb, r, hr, hnumeric⟩
    · apply peek_of_eq hnone hc _ _ hrun
      · rw [hbytes, List.head?_cons, heq]
      · cases hdbytes : d.rest with
        | nil => rfl
        | cons b' ds =>
          rw [hc, hdbytes, List.cons_append] at hbytes
          obtain ⟨rfl, -⟩ := List.cons.inj hbytes
          exact heq
    · obtain ⟨fault, hfault⟩ := hfails c.look
      rw [run_peek_bind, hbytes, List.head?_cons, hfault] at hrun
      cases hrun
    · refine afterByte hb hnumeric (fun c bs h => ⟨c.look.pass 1, ?_, ?_⟩) hc hbytes hrun
      · simp [Cursor.pass, Cursor.rest_look, h]
      · rw [run_peek_bind, h, List.head?_cons, hr]
        rfl

theorem next {f : Option UInt8 → Read α} (hnone : Read.Fails (f none))
    (hsome : ∀ b, Read.Fails (f (some b)) ∨ b < 0x80 ∧ Numeric (f (some b))) :
    Numeric (Read.next >>= f) := by
  have hcons {c : Cursor} {b : UInt8} {bs : List UInt8} (h : c.rest = b :: bs) :
      (Read.next >>= f).run c = (f (some b)).run (c.pass 1) := by
    rw [Reader.run_bind]
    simp only [Read.next, h]
  intro c d right hc a c' hrun
  cases hbytes : c.rest with
  | nil =>
    obtain ⟨fault, hfault⟩ := hnone c
    rw [Reader.run_bind] at hrun
    simp only [Read.next, hbytes, hfault] at hrun
    cases hrun
  | cons b bs =>
    rw [← hbytes]
    rcases hsome b with hfails | ⟨hb, hnumeric⟩
    · obtain ⟨fault, hfault⟩ := hfails (c.pass 1)
      rw [hcons hbytes, hfault] at hrun
      cases hrun
    · refine afterByte hb hnumeric (fun c bs h => ⟨c.pass 1, ?_, hcons h⟩) hc hbytes hrun
      simp [Cursor.pass, h]

/-! ### The parts of a number -/

theorem lt_of_isDigit {b : UInt8} (h : isDigit b = true) : b < 0x80 := by
  refine UInt8.not_le.1 fun hle => ?_
  rw [Read.isDigit_eq_false_of_le hle] at h
  cases h

theorem digits : Numeric Read.digits :=
  takeWhile fun _ => lt_of_isDigit

/-- A byte that is one of `marks` is passed with what comes behind it; nothing else is. -/
theorem mark {C : Option UInt8 → Prop} [DecidablePred C] {marked : Read α} {a : α}
    (hnone : ¬ C none) (hascii : ∀ b, C (some b) → b < 0x80) (hmarked : Numeric marked) :
    Numeric (Read.peek >>= fun b =>
      if C b then Read.discard >>= fun _ => marked else Pure.pure a) := by
  refine peek ?_ fun b => ?_
  · rw [if_neg hnone]
    exact .pure a
  · by_cases hb : C (some b)
    · exact .inr (.inr ⟨hascii b hb, marked, if_pos hb, hmarked⟩)
    · exact .inl ((if_neg hb).trans (if_neg hnone).symm)

theorem skipFraction : Numeric Read.skipFraction := by
  refine mark (by simp) ?_ ?_
  · rintro b ⟨⟩
    decide
  · exact digits.bind fun ds => .ite (.fails (Read.fails_failWith _)) (.pure ())

theorem exponentSign : Numeric Read.exponentSign := by
  refine peek (.pure false) fun b => ?_
  by_cases hplus : b = byte '+'
  · subst hplus
    exact .inr (.inr ⟨by decide, Pure.pure false, rfl, .pure false⟩)
  · by_cases hminus : b = byte '-'
    · subst hminus
      exact .inr (.inr ⟨by decide, Pure.pure true, rfl, .pure true⟩)
    · exact .inl (by simp [hplus, hminus])

theorem skipSomeDigits : Numeric Read.skipSomeDigits := by
  refine next (Read.fails_failWith _) fun b => ?_
  by_cases hb : isDigit b = true
  · refine .inr ⟨lt_of_isDigit hb, .ite ?_ (.fails (Read.fails_failWith _))⟩
    exact digits.bind fun _ => .pure ()
  · refine .inl ?_
    rw [if_neg (by simpa using hb)]
    exact Read.fails_failWith _

theorem skipExponent : Numeric Read.skipExponent := by
  refine mark (by simp) ?_ (exponentSign.bind fun _ => skipSomeDigits)
  rintro b (⟨⟨⟩⟩ | ⟨⟨⟩⟩) <;> decide

theorem skipNumber (first : Option UInt8) : Numeric (Read.skipNumber first) := by
  have hend : Numeric (do Read.skipFraction; Read.skipExponent) :=
    skipFraction.bind fun _ => skipExponent
  refine .ite ?_ (.ite (digits.bind fun _ => hend) ?_)
  · refine peek hend fun b => ?_
    by_cases hb : isDigit b = true
    · refine .inr (.inl fun c => ?_)
      simp only [Option.any_some, hb, if_true]
      exact ⟨_, rfl⟩
    · exact .inl (by simp [hb])
  · exact (fails (Read.fails_failWith _)).bind fun _ => hend

end Numeric

/-! ### Numbers as values -/

theorem exists_byte_eq {b : UInt8} (h : b < 0x80) : ∃ c : Char, c.toNat < 0x80 ∧ byte c = b := by
  have hall : ∀ n < 0x80, (Char.ofNat n).toNat < 0x80 ∧ byte (Char.ofNat n) = UInt8.ofNat n := by
    decide +kernel
  obtain ⟨hlt, hbyte⟩ := hall b.toNat (UInt8.lt_iff_toNat_lt.1 h)
  exact ⟨Char.ofNat b.toNat, hlt, by rw [hbyte, UInt8.ofNat_toNat]⟩

theorem exists_encode_eq {bytes : List UInt8} (h : ∀ b ∈ bytes, b < 0x80) :
    ∃ cs, encode cs = bytes := by
  induction bytes with
  | nil => exact ⟨[], rfl⟩
  | cons b bytes ih =>
    obtain ⟨hb, hbytes⟩ := List.forall_mem_cons.1 h
    obtain ⟨c, hc, rfl⟩ := exists_byte_eq hb
    obtain ⟨cs, rfl⟩ := ih hbytes
    exact ⟨c :: cs, encode_cons_of_lt hc cs⟩

def StartsNumber (b : UInt8) : Prop :=
  b = byte '-' ∨ isDigit b = true

/-- What comes behind the first byte of a number. -/
def Read.skipNumeral (b : UInt8) : Read Unit :=
  if b = byte '-' then Read.next >>= Read.skipNumber else Read.skipNumber (some b)

theorem Numeric.skipNumeral (b : UInt8) : Numeric (Read.skipNumeral b) := by
  have hfails {first : Option UInt8} (h : first.any isDigit = false) :
      Read.Fails (Read.skipNumber first) := by
    cases first with
    | none => exact fun c => ⟨_, rfl⟩
    | some b => exact Read.fails_skipNumber h
  refine .ite (.next (hfails rfl) fun b => ?_) (.skipNumber (some b))
  by_cases hb : isDigit b = true
  · exact .inr ⟨lt_of_isDigit hb, .skipNumber (some b)⟩
  · exact .inl (hfails (by simpa using hb))

namespace StartsNumber

variable {b : UInt8} {outer : List Frame}

theorem lt (hb : StartsNumber b) : b < 0x80 := by
  rcases hb with rfl | hb
  · decide
  · exact Numeric.lt_of_isDigit hb

theorem run_skipFrom (hb : StartsNumber b) (outer : List Frame) (c : Cursor) :
    (Read.skipFrom outer b).run c =
      (Read.skipNumeral b >>= fun _ => pure (SkipState.after outer)).run c := by
  have hne {l : Char} (hminus : byte l ≠ byte '-') (hdigit : isDigit (byte l) = false) :
      b ≠ byte l := by
    rintro rfl
    rcases hb with hb | hb
    · exact hminus hb
    · rw [hdigit] at hb
      cases hb
  rw [Read.skipFrom, if_neg (hne (l := 'n') (by decide) (by decide)),
    if_neg (hne (l := 't') (by decide) (by decide)), if_neg (hne (l := 'f') (by decide) (by decide)),
    Read.skipNumeral]
  by_cases hminus : b = byte '-'
  · rw [if_pos hminus, if_pos hminus, Reader.run_bind, Reader.run_bind, Reader.run_bind]
    cases Read.next.run c <;> rfl
  · rw [if_neg hminus, if_neg hminus, if_pos (hb.resolve_left hminus)]

/-- What is passed as a number is one. -/
theorem exists_numeral (hb : StartsNumber b) {passed : List UInt8}
    (hascii : ∀ b ∈ passed, b < 0x80) {d d' : Cursor} (hd : d.rest = passed)
    (hrun : (Read.skipNumeral b).run d = .ok ((), d')) (hd' : d'.rest = []) :
    ∃ n : Numeral, encode n.text = b :: passed := by
  obtain ⟨c, hc, rfl⟩ := exists_byte_eq hb.lt
  obtain ⟨cs, rfl⟩ := exists_encode_eq hascii
  have hfirst : c = '-' ∨ c.isDigit = true := by
    rwa [StartsNumber, Read.byte_inj hc (by decide), Read.isDigit_byte hc] at hb
  have hstart : StartsValue c := by
    rcases hfirst with rfl | hdigit
    · exact ⟨by decide, by decide⟩
    · exact startsValue_of_isDigit hdigit
  have hrun' : (Read.skipFrom [] (byte c)).run d = .ok (.after [], d') := by
    rw [hb.run_skipFrom, Reader.run_bind, hrun]
    rfl
  obtain ⟨rest, hrest, hvalue⟩ := Read.yields_skipFrom [] hstart cs d hd _ _ hrun'
  obtain ⟨value, mid, htext, hmid⟩ := hvalue rest rfl
  obtain rfl : mid = rest := hmid
  have hbytes : encode value.text = byte c :: encode cs := by
    rw [← encode_cons_of_lt hc, htext, Utf8.encode_append, ← hrest, hd', List.append_nil]
  obtain ⟨c', cs', hvalue', hhead⟩ := value.exists_text
  obtain rfl : c = c' := by
    rw [hvalue', List.cons_append] at htext
    exact (List.cons.inj htext).1
  cases value with
  | number n => exact ⟨n, hbytes⟩
  | boolean b => cases b <;> cases hhead <;> exact absurd hfirst (by decide)
  | _ => cases hhead; exact absurd hfirst (by decide)

theorem exists_passed (hb : StartsNumber b) {c c' : Cursor}
    (hrun : (Read.skipNumeral b).run c = .ok ((), c')) :
    ∃ (n : Numeral) (passed : List UInt8), c.rest = passed ++ c'.rest ∧
      encode n.text = b :: passed := by
  obtain ⟨passed, hascii, hsplit, -⟩ :=
    Numeric.skipNumeral b c c [] (List.append_nil _).symm () c' hrun
  obtain ⟨passed', -, hsplit', hshort⟩ :=
    Numeric.skipNumeral b c ⟨0, 0, passed⟩ c'.rest hsplit () c' hrun
  obtain rfl : passed' = passed := List.append_cancel_right (hsplit'.symm.trans hsplit)
  rcases hshort with @⟨d, hd, hleft⟩ | ⟨v, hv, hcut, -⟩
  · have hnil : d.rest = [] :=
      (List.append_cancel_left ((List.append_nil passed').trans hleft)).symm
    obtain ⟨n, hn⟩ := hb.exists_numeral hascii rfl hd hnil
    exact ⟨n, passed', hsplit, hn⟩
  · exact absurd (List.append_cancel_left ((List.append_nil passed').trans hcut)).symm hv

end StartsNumber

/-! ### The characters of a number -/

def Numeral.marks : List Char := ['-', '+', '.', 'e', 'E']

theorem Numeral.isDigit_or_mem_marks {n : Numeral} {c : Char} (h : c ∈ n.text) :
    c.isDigit = true ∨ c ∈ marks := by
  have hdigits {ds : Digits} (h : c ∈ ds.chars) : c.isDigit = true ∨ c ∈ marks :=
    .inl (ds.digits c h)
  have hfraction : ∀ f, c ∈ fractionText f → c.isDigit = true ∨ c ∈ marks := by
    rintro (_ | ds) h
    · cases h
    · rcases List.mem_cons.1 h with rfl | h
      · exact .inr (by decide)
      · exact hdigits h
  have hexponent : ∀ e, c ∈ exponentText e → c.isDigit = true ∨ c ∈ marks := by
    rintro (_ | ⟨capital, sign, ds⟩) h
    · cases h
    · change c ∈ (if capital then 'E' else 'e') :: sign.text ++ ds.chars at h
      rcases List.mem_append.1 h with h | h
      · right
        revert h
        cases capital <;> cases sign <;> simp [ExponentSign.text, marks] <;> tauto
      · exact hdigits h
  have hmagnitude (h : c ∈ n.magnitude) : c.isDigit = true ∨ c ∈ marks := by
    rcases List.mem_append.1 h with h | h
    · exact hdigits h
    · exact (List.mem_append.1 h).elim (hfraction _) (hexponent _)
  rw [text] at h
  split at h
  · rcases List.mem_cons.1 h with rfl | h
    · exact .inr (by decide)
    · exact hmagnitude h
  · exact hmagnitude h

/-- The bytes of a number stand for its digits and marks. -/
theorem Numeral.ne_of_mem_encode {n : Numeral} {b : UInt8} (h : b ∈ encode n.text) {c : Char}
    (hc : c.toNat < 0x80) (hdigit : c.isDigit = false) (hmarks : c ∉ marks) : b ≠ byte c := by
  obtain ⟨c', hc', hb⟩ := List.mem_flatMap.1 h
  have hchar := isDigit_or_mem_marks hc'
  have hlt : c'.toNat < 0x80 := by
    rcases hchar with hdigit | hmark
    · exact toNat_lt_of_isDigit hdigit
    · simp only [marks, List.mem_cons, List.not_mem_nil, or_false] at hmark
      rcases hmark with rfl | rfl | rfl | rfl | rfl <;> decide
  rw [Utf8.encodeChar_of_lt hlt, List.mem_singleton] at hb
  rintro rfl
  obtain rfl := (Read.byte_inj hc hlt).1 hb
  rcases hchar with h | h
  · rw [hdigit] at h
    cases h
  · exact hmarks h

/-- A number that is skipped is cut at its end, or within it. -/
theorem Truncates.skipNumeral {b : UInt8} (hb : StartsNumber b) (outer : List Frame) :
    Truncates (.facing .outside b) (Read.nextIn .value >>= Read.skipFrom outer)
      fun _ => .within .outside := by
  have hstep {c : Cursor} {bs : List UInt8} (h : c.rest = b :: bs) :
      (Read.nextIn .value >>= Read.skipFrom outer).run c =
        (Read.skipNumeral b >>= fun _ => Pure.pure (SkipState.after outer)).run (c.pass 1) := by
    rw [Reader.run_bind, Read.run_nextIn_cons .value h]
    exact hb.run_skipFrom outer _
  have hpass {c : Cursor} {bs : List UInt8} (h : c.rest = b :: bs) : (c.pass 1).rest = bs := by
    simp [Cursor.pass, h]
  rintro _ c d right hc ⟨rfl, hhead⟩ a c' hrun
  obtain ⟨ds, hd⟩ := List.head?_eq_some_iff.1 hhead
  rw [hd, List.cons_append] at hc
  rw [hstep hc] at hrun
  obtain ⟨_, c₁, hrun₁, hrun₂⟩ := Reader.run_bind_eq_ok.1 hrun
  cases hrun₂
  obtain ⟨n, passed, hsplit, hn⟩ := hb.exists_passed hrun₁
  obtain ⟨passed', -, hsplit', hshort⟩ := Numeric.skipNumeral b (c.pass 1) (d.pass 1) right
    (by rw [hpass hc, hpass hd]) () c' hrun₁
  obtain rfl : passed' = passed := List.append_cancel_right (hsplit'.symm.trans hsplit)
  rw [hpass hc] at hsplit
  rcases hshort with @⟨d', hd', hleft⟩ | ⟨v, hv, hcut, hleft⟩
  · rw [hpass hd] at hleft
    have houtside : Quotation.outside.after (b :: passed') = .outside := by
      rw [← hn]
      exact Quotation.after_outside fun b hb =>
        Numeral.ne_of_mem_encode hb (by decide) (by decide) (by decide)
    have hrund : (Read.nextIn .value >>= Read.skipFrom outer).run d = .ok (.after outer, d') := by
      rw [hstep hd, Reader.run_bind, hd']
      rfl
    refine .before (b :: passed') hrund ?_ ?_ houtside
    · rw [hd, hleft, List.cons_append]
    · rw [hleft, List.append_assoc] at hsplit
      exact (List.append_cancel_left hsplit).symm
  · rw [hpass hd] at hcut
    have hright : right = v ++ c'.rest := by
      rw [hcut, List.append_assoc] at hsplit
      exact List.append_cancel_left hsplit
    refine .inNumber ⟨[], n, b :: ds, v, c'.rest, hd, hright, by simp, hv, ?_, rfl⟩ ?_
    · rw [hn, hcut, List.cons_append]
    · rw [hstep hd, Reader.run_bind]
      cases hrund : (Read.skipNumeral b).run (d.pass 1) with
      | error f => exact .inl ⟨f, rfl⟩
      | ok r => exact .inr ⟨.outside, r.2, rfl, hleft r.1 r.2 hrund, rfl⟩

end DeletionGuard.Json
