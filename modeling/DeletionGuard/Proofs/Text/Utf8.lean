import Mathlib.Data.List.Basic
import DeletionGuard.Text.Utf8

/-!
# Characters and their bytes

An ASCII character is written as the byte that stands for it, and no byte of any other character
is below 0x80. Decoding undoes encoding, and texts are in the order of their bytes.
-/

namespace DeletionGuard.Utf8

@[simp] theorem encode_nil : encode [] = [] := rfl

theorem encode_cons (c : Char) (cs : List Char) :
    encode (c :: cs) = encodeChar c ++ encode cs := rfl

theorem encode_append (cs cs' : List Char) : encode (cs ++ cs') = encode cs ++ encode cs' :=
  List.flatMap_append

theorem ofString_append (s t : String) : ofString (s ++ t) = ofString s ++ ofString t := by
  rw [ofString, String.toList_append, encode_append]
  rfl

/-! ### The bytes of a character -/

theorem encodeChar_of_lt {c : Char} (h : c.toNat < 0x80) : encodeChar c = [c.toUInt8] := by
  rw [encodeChar, if_pos h]
  rfl

theorem toNat_lt (c : Char) : c.toNat < 0x110000 := by
  have hvalid : c.toNat < 0xD800 ∨ 0xDFFF < c.toNat ∧ c.toNat < 0x110000 := c.valid
  omega

theorem le_of_mem_encodeChar {c : Char} {b : UInt8} (h : 0x80 ≤ c.toNat) (hb : b ∈ encodeChar c) :
    0x80 ≤ b := by
  have hlt := toNat_lt c
  rw [encodeChar, if_neg (Nat.not_lt.2 h)] at hb
  rw [UInt8.le_iff_toNat_le]
  split at hb
  · simp only [List.mem_cons, List.not_mem_nil, or_false] at hb
    rcases hb with rfl | rfl <;> simp <;> omega
  · split at hb
    · simp only [List.mem_cons, List.not_mem_nil, or_false] at hb
      rcases hb with rfl | rfl | rfl <;> simp <;> omega
    · simp only [List.mem_cons, List.not_mem_nil, or_false] at hb
      rcases hb with rfl | rfl | rfl | rfl <;> simp <;> omega

/-- The byte of an ASCII character stands for nothing else. -/
theorem mem_of_mem_encode {c : Char} (hc : c.toNat < 0x80) {cs : List Char}
    (h : c.toUInt8 ∈ encode cs) : c ∈ cs := by
  have hbyte {d : Char} (hd : d.toNat < 0x80) : d.toUInt8.toNat = d.toNat := by
    change d.toNat % 256 = d.toNat
    omega
  obtain ⟨d, hmem, hd⟩ := List.mem_flatMap.1 h
  rcases Nat.lt_or_ge d.toNat 0x80 with hlt | hge
  · rw [encodeChar_of_lt hlt, List.mem_singleton, ← UInt8.toNat_inj, hbyte hc, hbyte hlt,
      Char.toNat_inj] at hd
    rwa [hd]
  · have hle := UInt8.le_iff_toNat_le.1 (le_of_mem_encodeChar hge hd)
    rw [hbyte hc] at hle
    exact absurd hc (Nat.not_lt.2 hle)

theorem length_encodeChar (c : Char) : (encodeChar c).length = c.utf8Size := by
  have hle (n : UInt32) : c.val ≤ n ↔ c.toNat ≤ n.toNat := UInt32.le_iff_toNat_le
  simp only [encodeChar, Char.utf8Size, hle, UInt32.toNat_ofNatLT]
  by_cases hone : c.toNat < 0x80
  · rw [if_pos hone, if_pos (by omega)]
    rfl
  rw [if_neg hone, if_neg (show ¬ c.toNat ≤ 0x7F by omega)]
  by_cases htwo : c.toNat < 0x800
  · rw [if_pos htwo, if_pos (by omega)]
    rfl
  rw [if_neg htwo, if_neg (show ¬ c.toNat ≤ 0x7FF by omega)]
  by_cases hthree : c.toNat < 0x10000
  · rw [if_pos hthree, if_pos (by omega)]
    rfl
  · rw [if_neg hthree, if_neg (show ¬ c.toNat ≤ 0xFFFF by omega)]
    rfl

/-- The first byte of a character tells how many there are, and all of them which it is. -/
theorem encodeChar_eq_cons (c : Char) :
    ∃ lead tail, encodeChar c = lead :: tail ∧ width lead = tail.length + 1 ∧
      codePoint (lead :: tail) = c.toNat := by
  have hlt := toNat_lt c
  rw [encodeChar]
  split
  · refine ⟨_, _, rfl, ?_, ?_⟩
    · rw [width, if_pos (by simp [UInt8.lt_iff_toNat_lt]; omega)]
      rfl
    · simp [codePoint]
      omega
  · split
    · refine ⟨_, _, rfl, ?_, ?_⟩
      · rw [width, if_neg (by simp [UInt8.lt_iff_toNat_lt]; omega),
          if_pos (by simp [UInt8.lt_iff_toNat_lt]; omega)]
        rfl
      · simp [codePoint]
        omega
    · split
      · refine ⟨_, _, rfl, ?_, ?_⟩
        · rw [width, if_neg (by simp [UInt8.lt_iff_toNat_lt]; omega),
            if_neg (by simp [UInt8.lt_iff_toNat_lt]; omega),
            if_pos (by simp [UInt8.lt_iff_toNat_lt]; omega)]
          rfl
        · simp [codePoint]
          omega
      · refine ⟨_, _, rfl, ?_, ?_⟩
        · rw [width, if_neg (by simp [UInt8.lt_iff_toNat_lt]; omega),
            if_neg (by simp [UInt8.lt_iff_toNat_lt]; omega),
            if_neg (by simp [UInt8.lt_iff_toNat_lt]; omega)]
          rfl
        · simp [codePoint]
          omega

theorem encodeChar_ne_nil (c : Char) : encodeChar c ≠ [] := by
  obtain ⟨lead, tail, h, -⟩ := encodeChar_eq_cons c
  simp [h]

/-! ### Decoding -/

theorem decodeAfter_encode (cs : List Char) (good : Nat) (before : List Char) :
    decodeAfter good before (encode cs) = .ok (before.reverse ++ cs) := by
  induction cs generalizing good before with
  | nil => simp [decodeAfter]
  | cons c cs ih =>
    obtain ⟨lead, tail, hchar, hwidth, hpoint⟩ := encodeChar_eq_cons c
    have htail : width lead - 1 = tail.length := by omega
    have hback : Char.ofNat c.toNat = c := Char.ofNat_toNat c
    rw [encode_cons, hchar, List.cons_append, decodeAfter]
    simp only [htail, List.take_left', List.drop_left', hpoint, hback, hchar, if_true, ih]
    simp

theorem decode_encode (cs : List Char) : decode (encode cs) = .ok cs :=
  decodeAfter_encode cs 0 []

theorem encode_injective {cs cs' : List Char} (h : encode cs = encode cs') : cs = cs' := by
  have hdecode := decode_encode cs
  rw [h, decode_encode] at hdecode
  exact (Except.ok.inj hdecode).symm

/-! ### Order -/

/-- In the first byte in which two characters differ the smaller character has the smaller byte. -/
theorem encodeChar_append_lt {c d : Char} (h : c < d) (bs bs' : List UInt8) :
    encodeChar c ++ bs < encodeChar d ++ bs' := by
  have hlt : c.toNat < d.toNat := h
  have hbound := toNat_lt d
  have hbyte {n : Nat} (hn : n < 0x100) : n.toUInt8.toNat = n := by
    rw [Nat.toUInt8_eq, UInt8.toNat_ofNat']
    omega
  rw [encodeChar, encodeChar]
  repeat' split
  all_goals
    simp (disch := omega) only [List.cons_append, List.nil_append, List.cons_lt_cons_iff,
      UInt8.lt_iff_toNat_lt, ← UInt8.toNat_inj, hbyte]
    omega

theorem encode_lt_encode {cs ds : List Char} (h : cs < ds) : encode cs < encode ds := by
  induction h with
  | @nil d ds =>
    obtain ⟨lead, tail, hchar, -⟩ := encodeChar_eq_cons d
    rw [encode_cons, hchar]
    exact List.Lex.nil
  | rel h => exact encodeChar_append_lt h _ _
  | cons _ ih => exact List.append_left_lt ih

end DeletionGuard.Utf8
