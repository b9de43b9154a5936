import Mathlib.Algebra.Group.Int.Defs
import Mathlib.Algebra.Group.Nat.Defs
import Mathlib.Data.List.Induction
import DeletionGuard.Proofs.Json.Value

/-!
# Integers

A number that is written without fraction and exponent is read as the integer that its digits stand
for, if 64 bits hold it with its sign or without one. The digits are taken in one by one for as long
as the number that they make does not pass the limit, so it is the number as a whole that decides,
however many digits there are. An integer is written in one way only, hence what is said of one that
was read is what stood in the text.
-/

namespace DeletionGuard.Json

/-- The number that digits stand for. -/
def Digits.value (ds : Digits) : Nat :=
  Nat.ofDigitChars 10 ds.chars 0

namespace Numeral

def IsInteger (n : Numeral) : Prop :=
  n.fraction = none ∧ n.exponent = none

/-- The number that the sign and the digits before the point stand for. -/
def value (n : Numeral) : Int :=
  if n.negative then -(n.whole.value : Int) else n.whole.value

/-- 64 bits hold the number, with a sign or without one. A zero with a sign is no integer. -/
def FitsWord (n : Numeral) : Prop :=
  n.text ≠ ['-', '0'] ∧ -2 ^ 63 ≤ n.value ∧ n.value ≤ 2 ^ 64 - 1

instance (n : Numeral) : Decidable n.FitsWord := inferInstanceAs (Decidable (_ ∧ _))

end Numeral

/-! ### Digits and their value -/

theorem digitChar_of_isDigit {c : Char} (h : c.isDigit = true) :
    (c.toNat - '0'.toNat).digitChar = c := by
  have hbounds : 48 ≤ c.toNat ∧ c.toNat ≤ 57 := Char.isDigit_iff_toNat.1 h
  have hchars : ∀ d < 10, d.digitChar = Char.ofNat (48 + d) := by decide
  have hc := hchars (c.toNat - 48) (by omega)
  rwa [show 48 + (c.toNat - 48) = c.toNat by omega, Char.ofNat_toNat] at hc

theorem sub_lt_of_isDigit {c : Char} (h : c.isDigit = true) : c.toNat - '0'.toNat < 10 := by
  have hbounds : 48 ≤ c.toNat ∧ c.toNat ≤ 57 := Char.isDigit_iff_toNat.1 h
  show c.toNat - 48 < 10
  omega

/-- Digits are those of their value, unless there is a leading zero. -/
theorem toDigits_ofDigitChars {cs : List Char} (hne : cs ≠ []) (hdigits : ∀ c ∈ cs, c.isDigit = true)
    (alone : cs.head? = some '0' → cs = ['0']) :
    Nat.toDigits 10 (Nat.ofDigitChars 10 cs 0) = cs := by
  induction cs using List.reverseRecOn with
  | nil => exact absurd rfl hne
  | append_singleton cs c ih =>
    have hc := hdigits c (by simp)
    have hlt := sub_lt_of_isDigit hc
    rw [Nat.ofDigitChars_append, Nat.ofDigitChars_cons, Nat.ofDigitChars_nil]
    by_cases hcs : cs = []
    · subst hcs
      rw [Nat.ofDigitChars_nil, Nat.mul_zero, Nat.zero_add, Nat.toDigits_of_lt_base hlt,
        digitChar_of_isDigit hc, List.nil_append]
    · have hhead : cs.head? ≠ some '0' := by
        intro hzero
        have hall := alone (by rw [List.head?_append_of_ne_nil _ hcs, hzero])
        have hlength := congrArg List.length hall
        rw [List.length_append, List.length_singleton, List.length_singleton] at hlength
        exact hcs (List.eq_nil_of_length_eq_zero (by omega))
      have hdigitsOf := ih hcs (fun d hd => hdigits d (by simp [hd])) (fun h => absurd h hhead)
      have hpos : 0 < Nat.ofDigitChars 10 cs 0 := by
        apply Nat.pos_of_ne_zero
        intro hzero
        rw [hzero, Nat.toDigits_zero] at hdigitsOf
        exact hhead (by rw [← hdigitsOf]; rfl)
      rw [← Nat.toDigits_append_toDigits (by omega) hpos hlt, hdigitsOf,
        Nat.toDigits_of_lt_base hlt, digitChar_of_isDigit hc]

namespace Numeral

variable {n : Numeral}

theorem toDigits_whole (n : Numeral) : Nat.toDigits 10 n.whole.value = n.whole.chars :=
  toDigits_ofDigitChars n.whole.ne_nil n.whole.digits n.alone

theorem magnitude_of_isInteger (h : n.IsInteger) : n.magnitude = n.whole.chars := by
  rw [magnitude, h.1, h.2, fractionText, exponentText, List.append_nil, List.append_nil]

/-- Only the negative zero is not written as its value is. -/
theorem text_of_isInteger (h : n.IsInteger) (hzero : n.text ≠ ['-', '0']) :
    n.text = (toString n.value).toList := by
  have hwhole := toDigits_whole n
  rw [text, magnitude_of_isInteger h] at hzero ⊢
  rw [value]
  cases hnegative : n.negative with
  | false =>
    rw [if_neg (by simp), if_neg (by simp)]
    show n.whole.chars = (toString n.whole.value).toList
    rw [Nat.toString_eq_ofList_toDigits, String.toList_ofList, hwhole]
  | true =>
    rw [if_pos hnegative] at hzero
    rw [if_pos rfl, if_pos rfl]
    cases hvalue : n.whole.value with
    | zero =>
      rw [hvalue, Nat.toDigits_zero] at hwhole
      exact absurd (by rw [← hwhole]) hzero
    | succ k =>
      show _ = ("-" ++ toString (k + 1)).toList
      rw [String.toList_append, Nat.toString_eq_ofList_toDigits, ← hvalue, hwhole,
        String.toList_ofList, String.toList_ofList, List.singleton_append]

theorem value_eq_zero_iff (n : Numeral) : n.whole.value = 0 ↔ n.whole.chars = ['0'] := by
  rw [← toDigits_whole n]
  constructor
  · intro h
    rw [h, Nat.toDigits_zero]
  · intro h
    rw [← Nat.ofDigitChars_ten_toDigits (n := n.whole.value), h]
    rfl

theorem fitsWord_iff_of_negative (h : n.IsInteger) (hnegative : n.negative = true) :
    n.FitsWord ↔ n.whole.value ≠ 0 ∧ n.whole.value ≤ 2 ^ 63 := by
  have hzero : n.text ≠ ['-', '0'] ↔ n.whole.value ≠ 0 := by
    rw [text, if_pos hnegative, magnitude_of_isInteger h, Ne, List.cons_inj_right, Ne,
      value_eq_zero_iff]
  rw [FitsWord, hzero, value, if_pos hnegative]
  omega

theorem fitsWord_iff_of_not_negative (hnegative : n.negative = false) :
    n.FitsWord ↔ n.whole.value ≤ 2 ^ 64 - 1 := by
  have htext : n.text ≠ ['-', '0'] := by
    obtain ⟨c, cs, hmagnitude, hc⟩ := n.exists_magnitude
    rw [text, if_neg (by simp [hnegative]), hmagnitude]
    intro h
    cases h
    exact absurd hc (by decide)
  rw [FitsWord, value, if_neg (by simp [hnegative])]
  simp only [htext, ne_eq, not_false_eq_true, true_and]
  omega

end Numeral

/-! ### Digits within a limit -/

variable {cs : List Char} {limit n : Nat}

theorem le_ofDigitChars (cs : List Char) (n : Nat) : n ≤ Nat.ofDigitChars 10 cs n := by
  induction cs generalizing n with
  | nil => exact Nat.le_refl n
  | cons c cs ih =>
    have hle := ih (10 * n + (c.toNat - '0'.toNat))
    rw [Nat.ofDigitChars_cons]
    omega

theorem digitValue_byte {c : Char} (h : c.toNat < 0x80) :
    digitValue (byte c) = c.toNat - '0'.toNat := by
  rw [digitValue, toNat_byte h]

theorem appendDigits_of_le (hdigits : ∀ c ∈ cs, c.isDigit = true)
    (h : Nat.ofDigitChars 10 cs n ≤ limit) :
    appendDigits limit n (cs.map byte) = (Nat.ofDigitChars 10 cs n, []) := by
  induction cs generalizing n with
  | nil => rfl
  | cons c cs ih =>
    obtain ⟨hc, hcs⟩ := List.forall_mem_cons.1 hdigits
    rw [Nat.ofDigitChars_cons] at h ⊢
    have hle := le_ofDigitChars cs (10 * n + (c.toNat - '0'.toNat))
    rw [List.map_cons, appendDigits, digitValue_byte (toNat_lt_of_isDigit hc), Nat.mul_comm n]
    rw [if_neg (by omega)]
    exact ih hcs h

theorem appendDigits_of_lt (hdigits : ∀ c ∈ cs, c.isDigit = true) (hn : n ≤ limit)
    (h : limit < Nat.ofDigitChars 10 cs n) : (appendDigits limit n (cs.map byte)).2 ≠ [] := by
  induction cs generalizing n with
  | nil => exact absurd hn (Nat.not_le.2 h)
  | cons c cs ih =>
    obtain ⟨hc, hcs⟩ := List.forall_mem_cons.1 hdigits
    rw [Nat.ofDigitChars_cons] at h
    rw [List.map_cons, appendDigits, digitValue_byte (toNat_lt_of_isDigit hc), Nat.mul_comm n]
    by_cases hlimit : limit < 10 * n + (c.toNat - '0'.toNat)
    · rw [if_pos hlimit]
      exact List.cons_ne_nil _ _
    · rw [if_neg hlimit]
      exact ih hcs (by omega) h

/-! ### Reading integers -/

namespace Read

variable {rest : List Char}

theorem becomes_wholeDigits (n : Numeral) (hrest : NoDigit rest) :
    Becomes wholeDigits (n.whole.chars ++ rest) (pure (n.whole.chars.map byte)) rest := by
  obtain ⟨negative, ⟨chars, hne, hdigits⟩, alone, fraction, exponent⟩ := n
  obtain ⟨c, cs, rfl⟩ := List.exists_cons_of_ne_nil hne
  obtain ⟨hc, hcs⟩ := List.forall_mem_cons.1 hdigits
  have hlt := toNat_lt_of_isDigit hc
  refine .trans (.then (becomes_nextIn .value hlt (cs ++ rest))) ?_
  by_cases hzero : c = '0'
  · subst hzero
    obtain rfl : cs = [] := (List.cons.inj (alone rfl)).2
    have hpeek : ¬ (firstByte rest).any isDigit = true := by
      cases hhead : rest.head? with
      | none => simp [firstByte, hhead]
      | some d => simp [firstByte, hhead, isDigit_leadByte, hrest d hhead]
    exact .trans (.ite_pos rfl) (.trans (.then (becomes_peek _)) (.ite_neg hpeek))
  · refine .trans (.ite_neg ?_) (.trans (.ite_pos ?_) (.then (becomes_digits hcs hrest)))
    · rwa [byte_inj hlt (by decide)]
    · rwa [isDigit_byte hlt]

/-- Once the digits are taken in, it only matters whether all of them are. -/
theorem becomes_number (n : Numeral) (hrest : Delimited rest) :
    Becomes (number n.negative) (n.whole.chars ++ rest)
      (let (significand, surplus) := appendDigits maxSignificand 0 (n.whole.chars.map byte)
        if surplus.isEmpty then pure (integerOf n.negative significand)
        else number.finish n.negative significand surplus.length) rest := by
  refine .trans (.then (becomes_wholeDigits n hrest.noDigit)) ?_
  obtain ⟨significand, surplus⟩ := appendDigits maxSignificand 0 (n.whole.chars.map byte)
  have hmark {c : Char} (hc : c.toNat < 0x80) (hne : ∀ d ∈ rest.head?, d ≠ c) :
      ¬ firstByte rest = some (byte c) := by
    rw [firstByte_eq_byte_iff hc]
    exact fun h => hne c h rfl
  have hfraction : Becomes fractionDigits rest (pure none) rest :=
    .trans (.then (becomes_peek _)) (.ite_neg (hmark (by decide) fun d hd => (hrest d hd).2.1))
  refine .trans (.then hfraction) (.trans (.then (becomes_peek _)) (.trans (.ite_neg ?_) ?_))
  · rintro (h | h)
    · exact hmark (by decide) (fun d hd => (hrest d hd).2.2.1) h
    · exact hmark (by decide) (fun d hd => (hrest d hd).2.2.2) h
  · cases surplus with
    | nil => exact .refl _ _
    | cons b bs => exact .refl _ _

theorem becomes_number_of_le (n : Numeral) (hrest : Delimited rest)
    (h : n.whole.value ≤ maxSignificand) :
    Becomes (number n.negative) (n.whole.chars ++ rest)
      (pure (integerOf n.negative n.whole.value)) rest := by
  have hnumber := becomes_number n hrest
  rw [appendDigits_of_le n.whole.digits h] at hnumber
  exact hnumber

theorem number_of_lt (n : Numeral) (hrest : Delimited rest) (h : maxSignificand < n.whole.value) :
    (∃ x, Becomes (number n.negative) (n.whole.chars ++ rest) (pure (.real n.negative x)) rest) ∨
      RefusesFor (number n.negative) (n.whole.chars ++ rest) .numberOutOfRange := by
  have hnumber := becomes_number n hrest
  have hsurplus := appendDigits_of_lt n.whole.digits (Nat.zero_le _) h
  rcases hdigits : appendDigits maxSignificand 0 (n.whole.chars.map byte) with
    ⟨significand, surplus⟩
  rw [hdigits] at hnumber hsurplus
  have hfinish := hnumber.trans (.ite_neg (by simpa using hsurplus))
  rw [number.finish] at hfinish
  cases hreal : realOf significand surplus.length with
  | none =>
    rw [hreal] at hfinish
    exact .inr (hfinish.refusesFor (refusesFor_fail _))
  | some x =>
    rw [hreal] at hfinish
    exact .inl ⟨x, hfinish⟩

theorem becomes_found (n : Numeral) (h : n.IsInteger) (rest : List Char) :
    Becomes found (n.text ++ rest) (do return .number (← number n.negative))
      (n.whole.chars ++ rest) := by
  have hother {c d : Char} (hc : c.toNat < 0x80) (hd : d.toNat < 0x80) (hne : c ≠ d) :
      ¬ byte c = byte d := by
    rwa [byte_inj hc hd]
  rw [Numeral.text, Numeral.magnitude_of_isInteger h]
  cases hnegative : n.negative with
  | true =>
    refine .trans (.then (becomes_peek _)) ?_
    refine .trans (.ite_neg (by decide)) (.trans (.ite_neg (by decide)) ?_)
    refine .trans (.ite_neg (by decide)) (.trans (.ite_pos rfl) ?_)
    exact .then (becomes_discard (by decide) _)
  | false =>
    obtain ⟨c, cs, hchars⟩ := List.exists_cons_of_ne_nil n.whole.ne_nil
    have hc := n.whole.digits c (hchars ▸ List.mem_cons_self)
    have hlt := toNat_lt_of_isDigit hc
    have hne {d : Char} (hd : d.isDigit = false) : c ≠ d := by
      rintro rfl
      rw [hc] at hd
      cases hd
    rw [if_neg (by simp), hchars]
    refine .trans (.then (becomes_peek _)) ?_
    rw [firstByte, List.cons_append, List.head?_cons, Option.map_some, leadByte_of_lt hlt]
    refine .trans (.ite_neg (hother hlt (by decide) (hne (by decide)))) ?_
    refine .trans (.ite_neg (hother hlt (by decide) (hne (by decide)))) ?_
    refine .trans (.ite_neg (hother hlt (by decide) (hne (by decide)))) ?_
    refine .trans (.ite_neg (hother hlt (by decide) (hne (by decide)))) (.ite_pos ?_)
    rwa [isDigit_byte hlt]

end Read

/-- Why an integer is refused where a value of another type is due. -/
inductive Numeral.Refused (n : Numeral) (due : String) : Cause → Prop
  | integer (fits : n.FitsWord) : Refused n due (.invalidType (.number (.integer n.value)) due)
  | real (x : Binary64) (unfit : ¬ n.FitsWord) :
      Refused n due (.invalidType (.number (.real n.negative x)) due)
  | outOfRange (unfit : ¬ n.FitsWord) : Refused n due .numberOutOfRange

/-- What 64 bits hold, with a sign or without one, is told as what it is. -/
theorem Numeral.refused_of_le {n : Numeral} (h : n.IsInteger) (hle : n.whole.value ≤ maxSignificand)
    (due : String) :
    n.Refused due (.invalidType (.number (integerOf n.negative n.whole.value)) due) := by
  have hmax : maxSignificand = 2 ^ 64 - 1 := by decide
  have hpower : powerOfTwo 63 = 2 ^ 63 := rfl
  rw [integerOf, hpower]
  cases hnegative : n.negative with
  | false =>
    have hfits := fitsWord_iff_of_not_negative hnegative
    have hvalue : n.value = n.whole.value := by rw [value, if_neg (by simp [hnegative])]
    rw [if_neg (by simp), ← hvalue]
    exact .integer (hfits.2 (by omega))
  | true =>
    have hfits := fitsWord_iff_of_negative h hnegative
    have hvalue : n.value = -n.whole.value := by rw [value, if_pos hnegative]
    rw [if_pos rfl, ← hvalue]
    by_cases hreal : n.whole.value = 0 ∨ 2 ^ 63 < n.whole.value
    · rw [if_pos hreal, ← hnegative]
      apply Refused.real
      rw [hfits]
      omega
    · rw [if_neg hreal]
      exact .integer (hfits.2 (by omega))

theorem Numeral.not_fitsWord_of_lt {n : Numeral} (h : n.IsInteger)
    (hlt : maxSignificand < n.whole.value) : ¬ n.FitsWord := by
  have hmax : maxSignificand = 2 ^ 64 - 1 := by decide
  cases hnegative : n.negative with
  | false =>
    rw [fitsWord_iff_of_not_negative hnegative]
    omega
  | true =>
    rw [fitsWord_iff_of_negative h hnegative]
    omega

theorem Read.exists_refusesFor_mismatch {α : Type} {n : Numeral} (h : n.IsInteger)
    {rest : List Char} (hrest : Delimited rest) (due : String) :
    ∃ cause, n.Refused due cause ∧ RefusesFor (mismatch due : Read α) (n.text ++ rest) cause := by
  have hfound := becomes_found n h rest
  have hgives {m : Number}
      (hm : Becomes (number n.negative) (n.whole.chars ++ rest) (pure m) rest) :
      RefusesFor (mismatch due : Read α) (n.text ++ rest) (.invalidType (.number m) due) :=
    Becomes.refusesFor (.then (hfound.trans (.then hm))) (refusesFor_fail _)
  rcases Nat.lt_or_ge maxSignificand n.whole.value with hlt | hle
  · have hunfit := Numeral.not_fitsWord_of_lt h hlt
    rcases number_of_lt n hrest hlt with ⟨x, hreal⟩ | hrange
    · exact ⟨_, .real x hunfit, hgives hreal⟩
    · exact ⟨_, .outOfRange hunfit, (hfound.refusesFor hrange.bind).bind⟩
  · exact ⟨_, n.refused_of_le h hle due, hgives (becomes_number_of_le n hrest hle)⟩

/-! ### What is said of integers -/

/-- What is said where an integer is found and `due` is expected. -/
def integerMessage (digits due : String) : String :=
  "invalid type: integer `" ++ digits ++ "`, expected " ++ due

/-- What is said where another number is found. -/
def realMessage (number due : String) : String :=
  "invalid type: floating point `" ++ number ++ "`, expected " ++ due

theorem integerMessage_inj {digits digits' due due' : String} (hdigits : '`' ∉ digits.toList)
    (hdue : '`' ∉ due.toList) (h : integerMessage digits due = integerMessage digits' due') :
    digits' = digits ∧ due' = due := by
  have hsplit : "`, expected ".toList = '`' :: ", expected ".toList := rfl
  unfold integerMessage at h
  have hchars := congrArg String.toList h
  simp only [String.toList_append, List.append_assoc, hsplit, List.cons_append] at hchars
  have hmark : '`' ∉ ", expected ".toList ++ due.toList := by
    rw [List.mem_append, not_or]
    exact ⟨by decide, hdue⟩
  have hparts := (List.append_cons_inj_of_notMem hdigits hmark).1
    (List.append_cancel_left hchars)
  exact ⟨(String.toList_inj.1 hparts.1).symm,
    (String.toList_inj.1 (List.append_cancel_left hparts.2.2)).symm⟩

theorem Numeral.backtick_notMem_text {n : Numeral} (h : n.IsInteger) : '`' ∉ n.text := by
  have hwhole : '`' ∉ n.whole.chars := fun hmem => absurd (n.whole.digits _ hmem) (by decide)
  rw [text, magnitude_of_isInteger h]
  cases n.negative with
  | false => exact hwhole
  | true => exact List.not_mem_cons_of_ne_of_not_mem (by decide) hwhole

theorem message_integer (z : Int) (due : String) :
    (Cause.invalidType (.number (.integer z)) due).message = integerMessage (toString z) due := by
  have hhead : "invalid type: integer `" = "invalid type: " ++ "integer `" := by decide
  have hmark : "`, expected " = "`" ++ ", expected " := by decide
  unfold integerMessage
  show "invalid type: " ++ ("integer `" ++ toString z ++ "`") ++ ", expected " ++ due = _
  rw [hhead, hmark]
  simp only [String.append_assoc]

theorem message_real (negative : Bool) (x : Binary64) (due : String) :
    (Cause.invalidType (.number (.real negative x)) due).message =
      realMessage (Found.layout.text negative x) due := by
  have hhead : "invalid type: floating point `" = "invalid type: " ++ "floating point `" := by
    decide
  have hmark : "`, expected " = "`" ++ ", expected " := by decide
  unfold realMessage
  show "invalid type: " ++ ("floating point `" ++ Found.layout.text negative x ++ "`") ++
    ", expected " ++ due = _
  rw [hhead, hmark]
  simp only [String.append_assoc]

theorem realMessage_ne (number digits due due' : String) :
    realMessage number due ≠ integerMessage digits due' := by
  intro h
  unfold realMessage integerMessage at h
  have hchars := congrArg String.toList h
  simp at hchars

/-- An integer that is told is the one in the text, digit by digit, and 64 bits hold it. -/
theorem Numeral.Refused.message_eq_iff {n : Numeral} {due : String} {cause : Cause}
    (h : n.IsInteger) (hdue : '`' ∉ due.toList) (hcause : n.Refused due cause)
    (digits due' : String) :
    cause.message = integerMessage digits due' ↔
      n.FitsWord ∧ digits = String.ofList n.text ∧ due' = due := by
  cases hcause with
  | integer hfits =>
    have htext : toString n.value = String.ofList n.text := by
      rw [text_of_isInteger h hfits.1, String.ofList_toList]
    have hdigits : '`' ∉ (String.ofList n.text).toList := by
      rw [String.toList_ofList]
      exact backtick_notMem_text h
    rw [message_integer, htext]
    constructor
    · intro heq
      exact ⟨hfits, integerMessage_inj hdigits hdue heq⟩
    · rintro ⟨-, rfl, rfl⟩
      rfl
  | real x hunfit =>
    rw [message_real]
    constructor
    · intro heq
      exact absurd heq (realMessage_ne _ _ _ _)
    · intro hfits
      exact absurd hfits.1 hunfit
  | outOfRange hunfit =>
    constructor
    · intro heq
      change "number out of range" = _ at heq
      unfold integerMessage at heq
      have hchars := congrArg String.toList heq
      simp at hchars
    · intro hfits
      exact absurd hfits.1 hunfit

/-- Any other integer is told as a number that it is not, or not at all. -/
theorem Numeral.Refused.message_of_not_fitsWord {n : Numeral} {due : String} {cause : Cause}
    (hcause : n.Refused due cause) (h : ¬ n.FitsWord) :
    (∃ x, cause.message = realMessage (Found.layout.text n.negative x) due) ∨
      cause.message = "number out of range" := by
  cases hcause with
  | integer hfits => exact absurd hfits h
  | real x hunfit => exact .inl ⟨x, message_real n.negative x due⟩
  | outOfRange hunfit => exact .inr rfl

end DeletionGuard.Json
