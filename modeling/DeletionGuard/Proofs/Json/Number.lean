import DeletionGuard.Json.Number
import DeletionGuard.Proofs.Json.Token

/-!
# Numbers that are skipped

What `skipNumber` passes is a number of the grammar, and it passes every number that ends where it
stands, whatever its size.
-/

namespace DeletionGuard.Json

/-- No character follows that could belong to a number. -/
def Delimited (cs : List Char) : Prop :=
  ∀ c ∈ cs.head?, c.isDigit = false ∧ c ≠ '.' ∧ c ≠ 'e' ∧ c ≠ 'E'

theorem delimited_nil : Delimited [] :=
  fun _ h => nomatch h

theorem delimited_cons {c : Char} (h : c.isDigit = false ∧ c ≠ '.' ∧ c ≠ 'e' ∧ c ≠ 'E')
    (cs : List Char) : Delimited (c :: cs) := by
  intro d hd
  cases hd
  exact h

theorem delimited_blanks_append (ws : Blanks) {cs : List Char} (h : Delimited cs) :
    Delimited (ws.chars ++ cs) := by
  cases hchars : ws.chars with
  | nil => exact h
  | cons c rest =>
    have hc := ws.blank c (hchars ▸ List.mem_cons_self ..)
    simp only [isBlankChar, Bool.or_eq_true, beq_iff_eq] at hc
    rcases hc with ((rfl | rfl) | rfl) | rfl <;> exact delimited_cons (by decide) _

/-- No digit follows. -/
def NoDigit (cs : List Char) : Prop :=
  ∀ c ∈ cs.head?, c.isDigit = false

theorem Delimited.noDigit {cs : List Char} (h : Delimited cs) : NoDigit cs :=
  fun c hc => (h c hc).1

namespace Read

variable {cs rest : List Char}

/-! ### Digits -/

theorem becomes_digits {ds : List Char} (hds : ∀ c ∈ ds, c.isDigit = true) (hrest : NoDigit rest) :
    Becomes digits (ds ++ rest) (pure (ds.map byte)) rest := by
  have hstop : rest.takeWhile Char.isDigit = [] ∧ rest.dropWhile Char.isDigit = rest := by
    cases rest with
    | nil => exact ⟨rfl, rfl⟩
    | cons c cs =>
      have hc := hrest c rfl
      simp [hc]
  have htake := becomes_takeWhile (fun _ => toNat_lt_of_isDigit) isDigit_leadByte (ds ++ rest)
  rwa [List.takeWhile_append_of_pos hds, List.dropWhile_append_of_pos hds, hstop.1, hstop.2,
    List.append_nil] at htake

theorem yields_digits (cs : List Char) :
    Yields digits cs fun bs rest =>
      ∃ ds, (∀ c ∈ ds, c.isDigit = true) ∧ bs = ds.map byte ∧ cs = ds ++ rest := by
  refine (becomes_takeWhile (fun _ => toNat_lt_of_isDigit) isDigit_leadByte cs).yields
    (Yields.pure ⟨_, fun _ h => List.mem_takeWhile_imp h, rfl, ?_⟩)
  exact (List.takeWhile_append_dropWhile ..).symm

theorem isDigit_byte {c : Char} (h : c.toNat < 0x80) : isDigit (byte c) = c.isDigit := by
  rw [← leadByte_of_lt h, isDigit_leadByte]

theorem isDigit_eq_false_of_le {b : UInt8} (h : 0x80 ≤ b) : isDigit b = false := by
  rw [UInt8.le_iff_toNat_le] at h
  rw [isDigit, Bool.and_eq_false_iff, decide_eq_false_iff_not, decide_eq_false_iff_not,
    UInt8.le_iff_toNat_le, UInt8.le_iff_toNat_le]
  right
  change ¬ b.toNat ≤ 57
  change 128 ≤ b.toNat at h
  omega

theorem becomes_skipSomeDigits (ds : Digits) (hrest : NoDigit rest) :
    Becomes skipSomeDigits (ds.chars ++ rest) (pure ()) rest := by
  obtain ⟨chars, hne, hdigits⟩ := ds
  cases chars with
  | nil => exact absurd rfl hne
  | cons c ds =>
    obtain ⟨hc, hds⟩ := List.forall_mem_cons.1 hdigits
    have hlt := toNat_lt_of_isDigit hc
    refine (Becomes.then (becomes_next hlt (ds ++ rest))).trans ?_
    rw [if_pos (by simp [isDigit_byte hlt, hc])]
    exact Becomes.then (becomes_digits hds hrest)

theorem yields_skipSomeDigits (cs : List Char) :
    Yields skipSomeDigits cs fun _ rest => ∃ ds : Digits, cs = ds.chars ++ rest := by
  refine yields_next_bind (fun _ => ?_) (fun c mid hcs hc => ?_) fun b hb => ?_
  · exact (refuses_fail _).yields
  · split
    · next hdigit =>
      rw [Option.any_some, isDigit_byte hc] at hdigit
      refine (yields_digits mid).bind fun _ rest h => Yields.pure ?_
      obtain ⟨ds, hds, -, hmid⟩ := h
      exact ⟨⟨c :: ds, List.cons_ne_nil c ds, List.forall_mem_cons.2 ⟨hdigit, hds⟩⟩,
        by rw [hcs, hmid]; rfl⟩
    · exact (refuses_fail _).yields
  · rw [if_neg (by simp [isDigit_eq_false_of_le hb])]
    exact fails_failWith _

/-! ### Fractions and exponents -/

theorem exponent_append (e : Option Exponent) (h : Delimited rest) :
    ∀ c ∈ (Numeral.exponentText e ++ rest).head?, c.isDigit = false ∧ c ≠ '.' := by
  intro c hc
  cases e with
  | none => exact ⟨(h c hc).1, (h c hc).2.1⟩
  | some e =>
    cases hc
    cases e.capital <;> decide

theorem noDigit_fraction_append (f : Option Digits) (h : NoDigit rest) :
    NoDigit (Numeral.fractionText f ++ rest) := by
  cases f with
  | none => exact h
  | some ds =>
    intro c hc
    cases hc
    decide

theorem becomes_skipFraction (f : Option Digits) (hdigit : NoDigit rest)
    (hpoint : rest.head? ≠ some '.') :
    Becomes skipFraction (Numeral.fractionText f ++ rest) (pure ()) rest := by
  refine (Becomes.then (becomes_peek _)).trans ?_
  simp only [firstByte_eq_byte_iff (c := '.') (by decide)]
  cases f with
  | none =>
    exact .ite_neg hpoint
  | some ds =>
    refine .trans (.ite_pos rfl) ?_
    refine (Becomes.then (becomes_discard (by decide) _)).trans ?_
    refine (Becomes.then (becomes_digits ds.digits hdigit)).trans ?_
    exact .ite_neg (by simp [ds.ne_nil])

theorem yields_skipFraction (cs : List Char) :
    Yields skipFraction cs fun _ rest => ∃ f, cs = Numeral.fractionText f ++ rest := by
  refine (Becomes.then (becomes_peek cs)).yields ?_
  simp only [firstByte_eq_byte_iff (c := '.') (by decide)]
  split
  · next hpoint =>
    obtain ⟨mid, rfl⟩ := List.head?_eq_some_iff.1 hpoint
    refine (Becomes.then (becomes_discard (by decide) mid)).yields ?_
    refine (yields_digits mid).bind fun bs rest h => ?_
    obtain ⟨ds, hds, rfl, hmid⟩ := h
    split
    · exact (refuses_failAhead _).yields
    · next hne =>
      exact Yields.pure ⟨some ⟨ds, by simpa using hne, hds⟩, by rw [hmid]; rfl⟩
  · exact Yields.pure ⟨none, rfl⟩

theorem becomes_exponentSign (s : ExponentSign) (ds : Digits) (rest : List Char) :
    ∃ negative, Becomes exponentSign (s.text ++ (ds.chars ++ rest)) (pure negative)
      (ds.chars ++ rest) := by
  have hstart : ∀ c, (ds.chars ++ rest).head? = some c → c.isDigit = true := by
    intro c hc
    rw [List.head?_append_of_ne_nil _ ds.ne_nil] at hc
    exact ds.digits c (List.mem_of_mem_head? hc)
  have hplus : ¬ firstByte (ds.chars ++ rest) = some (byte '+') := fun h =>
    absurd (hstart _ ((firstByte_eq_byte_iff (by decide)).1 h)) (by decide)
  have hminus : ¬ firstByte (ds.chars ++ rest) = some (byte '-') := fun h =>
    absurd (hstart _ ((firstByte_eq_byte_iff (by decide)).1 h)) (by decide)
  cases s with
  | none =>
    exact ⟨false, .trans (.then (becomes_peek _)) (.trans (.ite_neg hplus) (.ite_neg hminus))⟩
  | plus =>
    refine ⟨false, .trans (.then (becomes_peek _)) (.trans (.ite_pos rfl) ?_)⟩
    exact .then (becomes_discard (by decide) _)
  | minus =>
    have hother : ¬ some (leadByte '-') = some (byte '+') := by decide
    refine ⟨true, .trans (.then (becomes_peek _)) (.trans (.ite_neg hother) ?_)⟩
    exact .trans (.ite_pos rfl) (.then (becomes_discard (by decide) _))

theorem yields_exponentSign (cs : List Char) :
    Yields exponentSign cs fun _ rest => ∃ s : ExponentSign, cs = s.text ++ rest := by
  refine (Becomes.then (becomes_peek cs)).yields ?_
  simp only [firstByte_eq_byte_iff (c := '+') (by decide),
    firstByte_eq_byte_iff (c := '-') (by decide)]
  split
  · next hplus =>
    obtain ⟨mid, rfl⟩ := List.head?_eq_some_iff.1 hplus
    exact (Becomes.then (becomes_discard (by decide) mid)).yields (Yields.pure ⟨.plus, rfl⟩)
  · split
    · next hminus =>
      obtain ⟨mid, rfl⟩ := List.head?_eq_some_iff.1 hminus
      exact (Becomes.then (becomes_discard (by decide) mid)).yields (Yields.pure ⟨.minus, rfl⟩)
    · exact Yields.pure ⟨.none, rfl⟩

theorem becomes_skipExponent (e : Option Exponent) (h : Delimited rest) :
    Becomes skipExponent (Numeral.exponentText e ++ rest) (pure ()) rest := by
  refine (Becomes.then (becomes_peek _)).trans ?_
  simp only [firstByte_eq_byte_iff (c := 'e') (by decide),
    firstByte_eq_byte_iff (c := 'E') (by decide)]
  cases e with
  | none =>
    rw [if_neg]
    · exact Becomes.refl _ _
    · rintro (hmark | hmark)
      · exact (h 'e' hmark).2.2.1 rfl
      · exact (h 'E' hmark).2.2.2 rfl
  | some e =>
    obtain ⟨capital, sign, ds⟩ := e
    obtain ⟨negative, hsign⟩ := becomes_exponentSign sign ds rest
    rw [if_pos (by cases capital <;> simp [Numeral.exponentText, Exponent.text])]
    change Becomes _ ((if capital then 'E' else 'e') :: (sign.text ++ ds.chars) ++ rest) _ _
    rw [List.cons_append, List.append_assoc]
    refine (Becomes.then (becomes_discard (by cases capital <;> decide) _)).trans ?_
    exact (Becomes.then hsign).trans (becomes_skipSomeDigits ds h.noDigit)

theorem yields_skipExponent (cs : List Char) :
    Yields skipExponent cs fun _ rest => ∃ e, cs = Numeral.exponentText e ++ rest := by
  refine (Becomes.then (becomes_peek cs)).yields ?_
  simp only [firstByte_eq_byte_iff (c := 'e') (by decide),
    firstByte_eq_byte_iff (c := 'E') (by decide)]
  split
  · next hmark =>
    obtain ⟨capital, mid, rfl⟩ : ∃ (capital : Bool) (mid : List Char),
        cs = (if capital then 'E' else 'e') :: mid := by
      rcases hmark with hmark | hmark
      · exact ⟨false, List.head?_eq_some_iff.1 hmark⟩
      · exact ⟨true, List.head?_eq_some_iff.1 hmark⟩
    refine (Becomes.then (becomes_discard (by cases capital <;> decide) mid)).yields ?_
    refine (yields_exponentSign mid).bind fun _ mid' h => ?_
    obtain ⟨s, rfl⟩ := h
    refine (yields_skipSomeDigits mid').mono fun _ rest h => ?_
    obtain ⟨ds, rfl⟩ := h
    exact ⟨some ⟨capital, s, ds⟩, by simp [Numeral.exponentText, Exponent.text]⟩
  · exact Yields.pure ⟨none, rfl⟩

/-! ### Whole numbers -/

/-- The rest of a number is skipped once its first digit has been passed. -/
theorem becomes_skipNumber (n : Numeral) (h : Delimited rest) {c : Char} {cs : List Char}
    (hn : n.magnitude = c :: cs) :
    Becomes (skipNumber (some (byte c))) (cs ++ rest) (pure ()) rest := by
  obtain ⟨negative, ⟨chars, hne, hdigits⟩, alone, fraction, exponent⟩ := n
  cases chars with
  | nil => exact absurd rfl hne
  | cons d ds =>
    obtain ⟨hd, hds⟩ := List.forall_mem_cons.1 hdigits
    have hexponent := exponent_append exponent h
    have hnoDigit := noDigit_fraction_append fraction fun c hc => (hexponent c hc).1
    have hend : Becomes (do skipFraction; skipExponent)
        (Numeral.fractionText fraction ++ (Numeral.exponentText exponent ++ rest)) (pure ()) rest :=
      .trans (.then (becomes_skipFraction fraction (fun c hc => (hexponent c hc).1)
        fun hc => (hexponent '.' hc).2 rfl)) (becomes_skipExponent exponent h)
    rw [Numeral.magnitude, List.cons_append, List.cons_eq_cons] at hn
    obtain ⟨rfl, rfl⟩ := hn
    rw [List.append_assoc, List.append_assoc]
    have hlt := toNat_lt_of_isDigit hd
    unfold skipNumber
    by_cases hzero : d = '0'
    · subst hzero
      have hds : ds = [] := (List.cons.inj (alone rfl)).2
      subst hds
      refine .trans (.ite_pos rfl) (.trans (.then (becomes_peek _)) ?_)
      refine .trans (.ite_neg ?_) hend
      cases hhead : (Numeral.fractionText fraction ++
        (Numeral.exponentText exponent ++ rest)).head? with
      | none => simp [firstByte, hhead]
      | some c => simp [firstByte, hhead, isDigit_leadByte, hnoDigit c hhead]
    · refine .trans (.ite_neg ?_) (.trans (.ite_pos ?_) ?_)
      · rwa [Option.some.injEq, byte_inj hlt (by decide)]
      · simpa [isDigit_byte hlt] using hd
      · exact .trans (.then (becomes_digits hds hnoDigit)) hend

theorem yields_skipNumber {c : Char} (hc : c.isDigit = true) (cs : List Char) :
    Yields (skipNumber (some (byte c))) cs fun _ rest =>
      ∃ n : Numeral, n.negative = false ∧ c :: cs = n.magnitude ++ rest := by
  have hlt := toNat_lt_of_isDigit hc
  have hend : ∀ ds mid, (∀ d ∈ ds, d.isDigit = true) → (c = '0' → ds = []) → cs = ds ++ mid →
      Yields (do skipFraction; skipExponent) mid fun _ rest =>
        ∃ n : Numeral, n.negative = false ∧ c :: cs = n.magnitude ++ rest := by
    intro ds mid hds hzero hcs
    refine (yields_skipFraction mid).bind fun _ mid' hmid => ?_
    obtain ⟨fraction, hfraction⟩ := hmid
    refine (yields_skipExponent mid').mono fun _ rest hrest => ?_
    obtain ⟨exponent, hexponent⟩ := hrest
    refine ⟨⟨false, ⟨c :: ds, List.cons_ne_nil c ds, List.forall_mem_cons.2 ⟨hc, hds⟩⟩, ?_,
      fraction, exponent⟩, rfl, ?_⟩
    · intro hhead
      have hhead : c = '0' := Option.some.inj hhead
      exact congrArg₂ List.cons hhead (hzero hhead)
    · simp [Numeral.magnitude, hcs, hfraction, hexponent]
  unfold skipNumber
  refine Yields.ite (fun hzero => ?_) fun hzero => Yields.ite (fun _ => ?_) fun hdigit => ?_
  · rw [Option.some.injEq, byte_inj hlt (by decide)] at hzero
    refine (Becomes.then (becomes_peek cs)).yields (Yields.ite (fun _ => ?_) fun _ => ?_)
    · exact (refuses_failAhead _).bind.yields
    · exact hend [] cs (by simp) (fun _ => rfl) rfl
  · rw [Option.some.injEq, byte_inj hlt (by decide)] at hzero
    refine (yields_digits cs).bind fun _ mid h => ?_
    obtain ⟨ds, hds, -, hcs⟩ := h
    exact hend ds mid hds (fun h => absurd h hzero) hcs
  · exact (refuses_fail _).bind.yields

theorem fails_skipNumber {b : UInt8} (h : isDigit b = false) : Fails (skipNumber (some b)) := by
  have hzero : b ≠ byte '0' := by
    rintro rfl
    exact absurd h (by decide)
  unfold skipNumber
  rw [if_neg (by simpa using hzero), if_neg (by simp [h])]
  exact fun c => ⟨_, rfl⟩

end Read

end DeletionGuard.Json
