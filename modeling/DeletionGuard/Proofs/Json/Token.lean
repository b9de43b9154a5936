import Mathlib.Data.List.TakeWhile
import DeletionGuard.Proofs.Json.Grammar
import DeletionGuard.Proofs.Json.Reading

/-!
# The first characters of a text

How readers tell characters apart by their first byte, and what the readers below the level of
tokens do: look at a character, pass one, pass blanks and words.
-/

namespace DeletionGuard.Json

open Utf8 (encode encodeChar)

/-! ### First bytes -/

def leadByte (c : Char) : UInt8 :=
  (encodeChar c).head (Utf8.encodeChar_ne_nil c)

theorem toNat_byte {c : Char} (h : c.toNat < 0x80) : (byte c).toNat = c.toNat := by
  change c.toNat % 256 = c.toNat
  omega

theorem leadByte_of_lt {c : Char} (h : c.toNat < 0x80) : leadByte c = byte c := by
  simp only [leadByte, Utf8.encodeChar_of_lt h]
  rfl

theorem le_leadByte {c : Char} (h : 0x80 ≤ c.toNat) : 0x80 ≤ leadByte c :=
  Utf8.le_of_mem_encodeChar h (List.head_mem _)

theorem toNat_leadByte (c : Char) :
    c.toNat < 0x80 ∧ (leadByte c).toNat = c.toNat ∨ 0x80 ≤ c.toNat ∧ 0x80 ≤ (leadByte c).toNat := by
  rcases Nat.lt_or_ge c.toNat 0x80 with h | h
  · exact .inl ⟨h, by rw [leadByte_of_lt h, toNat_byte h]⟩
  · exact .inr ⟨h, UInt8.le_iff_toNat_le.1 (le_leadByte h)⟩

@[simp] theorem leadByte_eq_byte_iff {c d : Char} (h : d.toNat < 0x80) :
    leadByte c = byte d ↔ c = d := by
  rw [← UInt8.toNat_inj, toNat_byte h, ← Char.toNat_inj]
  have := toNat_leadByte c
  omega

theorem leadByte_lt_iff {c : Char} {n : UInt8} (h : n.toNat ≤ 0x80) :
    leadByte c < n ↔ c.toNat < n.toNat := by
  rw [UInt8.lt_iff_toNat_lt]
  have := toNat_leadByte c
  omega

theorem isDigit_leadByte (c : Char) : isDigit (leadByte c) = c.isDigit := by
  rw [Bool.eq_iff_iff]
  simp only [isDigit, Char.isDigit, Bool.and_eq_true, decide_eq_true_eq, UInt8.le_iff_toNat_le,
    UInt32.le_iff_toNat_le, toNat_byte (c := '0') (by decide), toNat_byte (c := '9') (by decide)]
  change 48 ≤ _ ∧ _ ≤ 57 ↔ 48 ≤ c.toNat ∧ c.toNat ≤ 57
  have := toNat_leadByte c
  omega

theorem isBlank_leadByte (c : Char) : isBlank (leadByte c) = isBlankChar c := by
  have hbyte (d : Char) (h : d.toNat < 0x80) : (leadByte c == byte d) = (c == d) := by
    rw [Bool.eq_iff_iff, beq_iff_eq, beq_iff_eq, leadByte_eq_byte_iff h]
  exact congrArg₂ (· || ·) (congrArg₂ (· || ·) (congrArg₂ (· || ·)
    (hbyte ' ' (by decide)) (hbyte '\t' (by decide))) (hbyte '\n' (by decide)))
    (hbyte '\r' (by decide))

theorem toNat_lt_of_isBlankChar {c : Char} (h : isBlankChar c = true) : c.toNat < 0x80 := by
  simp only [isBlankChar, Bool.or_eq_true, beq_iff_eq] at h
  rcases h with ((rfl | rfl) | rfl) | rfl <;> decide

theorem toNat_lt_of_isDigit {c : Char} (h : c.isDigit = true) : c.toNat < 0x80 := by
  simp only [Char.isDigit, Bool.and_eq_true, decide_eq_true_eq, UInt32.le_iff_toNat_le] at h
  change 48 ≤ c.toNat ∧ c.toNat ≤ 57 at h
  omega

/-! ### Texts as bytes -/

theorem encode_cons_of_lt {c : Char} (h : c.toNat < 0x80) (cs : List Char) :
    encode (c :: cs) = byte c :: encode cs := by
  rw [Utf8.encode_cons, Utf8.encodeChar_of_lt h]
  rfl

def firstByte (cs : List Char) : Option UInt8 :=
  cs.head?.map leadByte

@[simp] theorem firstByte_nil : firstByte [] = none := rfl

@[simp] theorem firstByte_cons (c : Char) (cs : List Char) :
    firstByte (c :: cs) = some (leadByte c) := rfl

theorem firstByte_eq_byte_iff {cs : List Char} {c : Char} (h : c.toNat < 0x80) :
    firstByte cs = some (byte c) ↔ cs.head? = some c := by
  cases cs with
  | nil => simp
  | cons d cs => simp [leadByte_eq_byte_iff h]

theorem head?_encode (cs : List Char) : (encode cs).head? = firstByte cs := by
  cases cs with
  | nil => rfl
  | cons c cs =>
    rw [Utf8.encode_cons, List.head?_append_of_ne_nil _ (Utf8.encodeChar_ne_nil c),
      List.head?_eq_some_head (Utf8.encodeChar_ne_nil c)]
    rfl

section

variable {p : UInt8 → Bool} {P : Char → Bool}

theorem takeWhile_encode (hlt : ∀ c, P c = true → c.toNat < 0x80)
    (hp : ∀ c, p (leadByte c) = P c) (cs : List Char) :
    (encode cs).takeWhile p = (cs.takeWhile P).map byte := by
  induction cs with
  | nil => rfl
  | cons c cs ih =>
    by_cases hc : P c = true
    · have hbyte : p (byte c) = true := by rw [← leadByte_of_lt (hlt c hc), hp, hc]
      rw [encode_cons_of_lt (hlt c hc), List.takeWhile_cons_of_pos hbyte, ih,
        List.takeWhile_cons_of_pos hc, List.map_cons]
    · have hhead := head?_encode (c :: cs)
      cases hbytes : encode (c :: cs) with
      | nil => simp [hc]
      | cons b bs =>
        rw [hbytes] at hhead
        simp only [List.head?_cons, firstByte_cons, Option.some.injEq] at hhead
        simp [hhead, hp, hc]

theorem drop_encode (hlt : ∀ c, P c = true → c.toNat < 0x80) (cs : List Char) :
    (encode cs).drop (cs.takeWhile P).length = encode (cs.dropWhile P) := by
  induction cs with
  | nil => rfl
  | cons c cs ih =>
    by_cases hc : P c = true
    · simp [encode_cons_of_lt (hlt c hc), hc, ih]
    · simp [hc]

end

/-! ### Blanks -/

/-- What follows the blanks at the start of a text. -/
def dropBlanks (cs : List Char) : List Char :=
  cs.dropWhile isBlankChar

theorem exists_blanks (cs : List Char) : ∃ ws : Blanks, cs = ws.chars ++ dropBlanks cs :=
  ⟨⟨cs.takeWhile isBlankChar, fun _ h => List.mem_takeWhile_imp h⟩,
    (List.takeWhile_append_dropWhile ..).symm⟩

@[simp] theorem dropBlanks_append (ws : Blanks) (cs : List Char) :
    dropBlanks (ws.chars ++ cs) = dropBlanks cs :=
  List.dropWhile_append_of_pos ws.blank

@[simp] theorem dropBlanks_nil : dropBlanks [] = [] := rfl

@[simp] theorem dropBlanks_blanks (ws : Blanks) : dropBlanks ws.chars = [] := by
  simpa using dropBlanks_append ws []

theorem dropBlanks_cons {c : Char} (h : isBlankChar c = false) (cs : List Char) :
    dropBlanks (c :: cs) = c :: cs :=
  List.dropWhile_cons_of_neg (by simp [h])

/-! ### Readers of a character -/

namespace Read

variable {α : Type} {cs : List Char} {c : Char} {Q : α → List Char → Prop}

theorem becomes_peek (cs : List Char) :
    Becomes peek cs (pure (firstByte cs)) cs := by
  intro cur hcur
  refine ⟨cur.look, (Cursor.rest_look cur).trans hcur, ?_⟩
  rw [← head?_encode, ← hcur]
  rfl

theorem becomes_discard (h : c.toNat < 0x80) (cs : List Char) :
    Becomes discard (c :: cs) (pure ()) cs := by
  intro cur hcur
  refine ⟨cur.pass 1, ?_, rfl⟩
  rw [encode_cons_of_lt h] at hcur
  simp [Cursor.pass, hcur]

theorem becomes_next (h : c.toNat < 0x80) (cs : List Char) :
    Becomes next (c :: cs) (pure (some (byte c))) cs := by
  intro cur hcur
  rw [encode_cons_of_lt h] at hcur
  refine ⟨cur.pass 1, by simp [Cursor.pass, hcur], ?_⟩
  simp [next, hcur, Reader.run_pure]

theorem becomes_next_nil : Becomes next [] (pure none) [] := by
  intro cur hcur
  refine ⟨cur, hcur, ?_⟩
  simp [next, show cur.rest = [] from hcur, Reader.run_pure]

theorem becomes_nextIn (inside : Construct) (h : c.toNat < 0x80) (cs : List Char) :
    Becomes (nextIn inside) (c :: cs) (pure (byte c)) cs :=
  Becomes.then (becomes_next h cs)

theorem refuses_nextIn_nil (inside : Construct) : Refuses (nextIn inside) [] :=
  (Becomes.then becomes_next_nil).refuses (refuses_fail _)

theorem becomes_takeWhile {p : UInt8 → Bool} {P : Char → Bool}
    (hlt : ∀ c, P c = true → c.toNat < 0x80) (hp : ∀ c, p (leadByte c) = P c) (cs : List Char) :
    Becomes (takeWhile p) cs (pure ((cs.takeWhile P).map byte)) (cs.dropWhile P) := by
  intro cur hcur
  refine ⟨(cur.pass (cs.takeWhile P).length).look, ?_, ?_⟩
  · rw [Cursor.rest_look, ← drop_encode hlt, ← hcur]
    rfl
  · simp [takeWhile, hcur, takeWhile_encode hlt hp, Reader.run_pure]

theorem becomes_peekToken (cs : List Char) :
    Becomes peekToken cs (pure (firstByte (dropBlanks cs))) (dropBlanks cs) :=
  (Becomes.then (becomes_takeWhile (fun _ => toNat_lt_of_isBlankChar) isBlank_leadByte cs)).trans
    (becomes_peek _)

theorem becomes_peekToken_cons {c : Char} (hlt : c.toNat < 0x80) (h : isBlankChar c = false)
    (ws : Blanks) (cs : List Char) :
    Becomes peekToken (ws.chars ++ c :: cs) (pure (some (byte c))) (c :: cs) := by
  have hpeek := becomes_peekToken (ws.chars ++ c :: cs)
  rwa [dropBlanks_append, dropBlanks_cons h, firstByte_cons, leadByte_of_lt hlt] at hpeek

/-- Either only blanks are left or a token is next. -/
theorem yields_peekToken_bind {f : Option UInt8 → Read α}
    (hnil : ∀ ws : Blanks, cs = ws.chars → Yields (f none) [] Q)
    (hcons : ∀ (ws : Blanks) c rest, cs = ws.chars ++ c :: rest →
      Yields (f (some (leadByte c))) (c :: rest) Q) :
    Yields (peekToken >>= f) cs Q := by
  refine (Becomes.then (becomes_peekToken cs)).yields ?_
  obtain ⟨ws, hws⟩ := exists_blanks cs
  cases hdrop : dropBlanks cs with
  | nil => exact hnil ws (by simpa [hdrop] using hws)
  | cons c rest =>
    exact hcons ws c rest (hdrop ▸ hws)

/-- A token is next if the end of the text is refused. -/
theorem yields_token_bind {f : Option UInt8 → Read α} {cause : Cause}
    (hnone : f none = failAhead cause)
    (hsome : ∀ (ws : Blanks) c rest, cs = ws.chars ++ c :: rest →
      Yields (f (some (leadByte c))) (c :: rest) Q) :
    Yields (peekToken >>= f) cs Q :=
  yields_peekToken_bind (fun _ _ => hnone ▸ (refuses_failAhead cause).yields) hsome

/-! ### Bytes that are no character -/

/-- `r` fails wherever it stands. -/
def Fails (r : Read α) : Prop :=
  ∀ c, ∃ fault, r.run c = .error fault

theorem fails_failWith (e : Cursor → Fault) : Fails (Reader.failWith e : Read α) :=
  fun c => ⟨e c, rfl⟩

theorem Fails.after {β : Type} (p : Read β) {q : β → Read α} (h : ∀ b, Fails (q b)) :
    Fails (p >>= q) := by
  intro c
  rw [Reader.run_bind]
  split
  · next fault _ => exact ⟨fault, rfl⟩
  · next b c' _ => exact h b c'

theorem Fails.refuses {r : Read α} (h : Fails r) (cs : List Char) : Refuses r cs :=
  fun c _ => h c

/-- The first byte of a character is passed. -/
theorem run_next (c : Char) {cur : Cursor} (h : cur.rest = encode (c :: cs)) :
    next.run cur = .ok (some (leadByte c), cur.pass 1) := by
  have hhead := head?_encode (c :: cs)
  rw [← h] at hhead
  cases hbytes : cur.rest with
  | nil => simp [hbytes] at hhead
  | cons b bs =>
    simp only [hbytes, List.head?_cons, firstByte_cons, Option.some.injEq] at hhead
    simp [next, hbytes, hhead]

theorem run_nextIn (inside : Construct) (c : Char) {cur : Cursor}
    (h : cur.rest = encode (c :: cs)) :
    (nextIn inside).run cur = .ok (leadByte c, cur.pass 1) := by
  rw [nextIn, Reader.run_bind, run_next c h]
  rfl

theorem refuses_nextIn_bind {inside : Construct} {f : UInt8 → Read α}
    (h : Fails (f (leadByte c))) : Refuses (nextIn inside >>= f) (c :: cs) := by
  intro cur hcur
  rw [Reader.run_bind, run_nextIn inside c hcur]
  exact h _

/-- The byte that is passed is a character of its own, unless what follows fails on it. -/
theorem yields_next_bind {f : Option UInt8 → Read α} (hnil : cs = [] → Yields (f none) [] Q)
    (hchar : ∀ c rest, cs = c :: rest → c.toNat < 0x80 → Yields (f (some (byte c))) rest Q)
    (hbyte : ∀ b, 0x80 ≤ b → Fails (f (some b))) : Yields (next >>= f) cs Q := by
  cases cs with
  | nil => exact (Becomes.then becomes_next_nil).yields (hnil rfl)
  | cons c rest =>
    rcases Nat.lt_or_ge c.toNat 0x80 with h | h
    · exact (Becomes.then (becomes_next h rest)).yields (hchar c rest rfl h)
    · intro cur hcur a cur' hrun
      obtain ⟨fault, hfault⟩ := hbyte _ (le_leadByte h) (cur.pass 1)
      rw [Reader.run_bind, run_next c hcur] at hrun
      exact absurd (hrun.symm.trans hfault) (by simp)

theorem yields_nextIn_bind {inside : Construct} {f : UInt8 → Read α}
    (hchar : ∀ c rest, cs = c :: rest → c.toNat < 0x80 → Yields (f (byte c)) rest Q)
    (hbyte : ∀ b, 0x80 ≤ b → Fails (f b)) : Yields (nextIn inside >>= f) cs Q := by
  cases cs with
  | nil => exact (refuses_nextIn_nil inside).bind.yields
  | cons c rest =>
    rcases Nat.lt_or_ge c.toNat 0x80 with h | h
    · exact (Becomes.then (becomes_nextIn inside h rest)).yields (hchar c rest rfl h)
    · exact (refuses_nextIn_bind (hbyte _ (le_leadByte h))).yields

/-! ### Words -/

theorem becomes_word {w : List Char} (h : ∀ c ∈ w, c.toNat < 0x80) (cs : List Char) :
    Becomes (word w) (w ++ cs) (pure ()) cs := by
  induction w with
  | nil => exact Becomes.refl _ _
  | cons c w ih =>
    obtain ⟨hc, hw⟩ := List.forall_mem_cons.1 h
    refine (Becomes.then (becomes_nextIn .value hc (w ++ cs))).trans ?_
    rw [if_pos rfl]
    exact ih hw

theorem byte_inj {c d : Char} (hc : c.toNat < 0x80) (hd : d.toNat < 0x80) :
    byte c = byte d ↔ c = d := by
  rw [← leadByte_of_lt hc, leadByte_eq_byte_iff hd]

theorem byte_ne_of_le {b : UInt8} {c : Char} (hb : 0x80 ≤ b) (hc : c.toNat < 0x80) :
    b ≠ byte c := by
  rintro rfl
  rw [UInt8.le_iff_toNat_le, toNat_byte hc] at hb
  exact Nat.not_le.2 hc hb

theorem yields_word {w : List Char} (h : ∀ c ∈ w, c.toNat < 0x80) (cs : List Char) :
    Yields (word w) cs fun _ rest => cs = w ++ rest := by
  induction w generalizing cs with
  | nil => exact Yields.pure rfl
  | cons c w ih =>
    obtain ⟨hc, hw⟩ := List.forall_mem_cons.1 h
    refine yields_nextIn_bind (fun d rest hcs hd => ?_) fun b hb => ?_
    · split
      · next heq =>
        rw [byte_inj hd hc] at heq
        refine (ih hw rest).mono fun _ rest' hrest => ?_
        rw [hcs, heq, hrest]
        rfl
      · exact (refuses_fail _).yields
    · rw [if_neg (byte_ne_of_le hb hc)]
      exact fails_failWith _

end Read

end DeletionGuard.Json
