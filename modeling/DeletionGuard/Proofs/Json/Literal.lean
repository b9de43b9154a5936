import DeletionGuard.Json.Text
import DeletionGuard.Proofs.Json.Token

/-!
# Literals

A literal that is kept is read as what its pieces stand for and refused if they stand for nothing.
A literal that is skipped is passed whatever it stands for. Both readers pass literals only.
-/

namespace DeletionGuard.Json

open Reader (Turn Step iterate runSteps)
open Utf8 (encode encodeChar)

/-! ### Hexadecimal digits -/

theorem hexValue?_byte {c : Char} (h : c.toNat < 0x80) : hexValue? (byte c) = digitOf? 16 c := by
  have hall : ∀ n < 0x80, hexValue? (byte (Char.ofNat n)) = digitOf? 16 (Char.ofNat n) := by
    decide +kernel
  simpa using hall c.toNat h

theorem hexValue?_eq_none_of_le {b : UInt8} (h : 0x80 ≤ b) : hexValue? b = none := by
  have hall : ∀ n < 256, 0x80 ≤ n → hexValue? (UInt8.ofNat n) = none := by decide +kernel
  simpa using hall b.toNat b.toNat_lt (UInt8.le_iff_toNat_le.1 h)

theorem HexDigit.toNat_lt (d : HexDigit) : d.char.toNat < 0x80 := by
  have hletter {c top : Char} (h : c.val ≤ top.val) (htop : top.toNat < 0x80) :
      c.toNat < 0x80 :=
    Nat.lt_of_le_of_lt (UInt32.le_iff_toNat_le.1 h) htop
  have hex := d.hex
  rw [digitOf?] at hex
  by_cases hdigit : d.char.isDigit = true
  · exact toNat_lt_of_isDigit hdigit
  · by_cases hlower : d.char.isLower = true
    · have hle : d.char.val ≤ 'z'.val := of_decide_eq_true (Bool.and_eq_true_iff.1 hlower).2
      exact hletter hle (by decide)
    · by_cases hupper : d.char.isUpper = true
      · exact hletter (of_decide_eq_true hupper).2 (by decide)
      · simp [hdigit, hlower, hupper] at hex

theorem HexDigit.hexValue?_char (d : HexDigit) : hexValue? (byte d.char) = some d.value := by
  rw [hexValue?_byte d.toNat_lt, HexDigit.value, Option.some_get]

theorem hexNumber?_four (a b c d : UInt8) :
    hexNumber? [a, b, c, d] = (do
      return (((← hexValue? a) * 16 + (← hexValue? b)) * 16 + (← hexValue? c)) * 16 +
        (← hexValue? d)) := by
  simp only [hexNumber?, List.foldl]
  cases hexValue? a <;> cases hexValue? b <;> cases hexValue? c <;> cases hexValue? d <;> simp

theorem CodeUnit.hexNumber?_chars (u : CodeUnit) :
    hexNumber? [byte u.first.char, byte u.second.char, byte u.third.char, byte u.fourth.char] =
      some u.value := by
  simp only [hexNumber?_four, HexDigit.hexValue?_char]
  rfl

/-- Four characters that make a number are the digits of a code unit. -/
theorem exists_codeUnit {a b c d : Char} {n : Nat} (ha : a.toNat < 0x80) (hb : b.toNat < 0x80)
    (hc : c.toNat < 0x80) (hd : d.toNat < 0x80)
    (h : hexNumber? [byte a, byte b, byte c, byte d] = some n) :
    ∃ u : CodeUnit, u.chars = [a, b, c, d] ∧ u.value = n := by
  have hdigit {e : Char} {m : Nat} (he : e.toNat < 0x80) (hm : hexValue? (byte e) = some m) :
      (digitOf? 16 e).isSome = true := by
    rw [← hexValue?_byte he, hm]
    rfl
  have hfour := h
  simp only [hexNumber?_four, Option.pure_def, Option.bind_eq_bind, Option.bind_eq_some_iff]
    at hfour
  obtain ⟨na, hna, nb, hnb, nc, hnc, nd, hnd, -⟩ := hfour
  let u : CodeUnit :=
    ⟨⟨a, hdigit ha hna⟩, ⟨b, hdigit hb hnb⟩, ⟨c, hdigit hc hnc⟩, ⟨d, hdigit hd hnd⟩⟩
  exact ⟨u, rfl, Option.some.inj (u.hexNumber?_chars.symm.trans h)⟩

namespace Read

variable {cs rest : List Char}

theorem becomes_fourHexDigits (u : CodeUnit) (cs : List Char) :
    Becomes fourHexDigits (u.chars ++ cs) (pure u.value) cs := by
  refine .trans (.then (becomes_nextIn .string u.first.toNat_lt _)) ?_
  refine .trans (.then (becomes_nextIn .string u.second.toNat_lt _)) ?_
  refine .trans (.then (becomes_nextIn .string u.third.toNat_lt _)) ?_
  refine .trans (.then (becomes_nextIn .string u.fourth.toNat_lt _)) ?_
  simp only [u.hexNumber?_chars]
  exact .refl _ _

theorem yields_fourHexDigits (cs : List Char) :
    Yields fourHexDigits cs fun n rest => ∃ u : CodeUnit, n = u.value ∧ cs = u.chars ++ rest := by
  have hnone {a b c d : UInt8} (h : 0x80 ≤ a ∨ 0x80 ≤ b ∨ 0x80 ≤ c ∨ 0x80 ≤ d) :
      hexNumber? [a, b, c, d] = none := by
    rw [hexNumber?_four]
    rcases h with h | h | h | h <;> simp [hexValue?_eq_none_of_le h]
  refine yields_nextIn_bind (fun a cs₁ hcs ha => ?_) fun a h =>
    .after _ fun b => .after _ fun c => .after _ fun d => ?_
  · refine yields_nextIn_bind (fun b cs₂ hcs₁ hb => ?_) fun b h =>
      .after _ fun c => .after _ fun d => ?_
    · refine yields_nextIn_bind (fun c cs₃ hcs₂ hc => ?_) fun c h => .after _ fun d => ?_
      · refine yields_nextIn_bind (fun d rest hcs₃ hd => ?_) fun d h => ?_
        · split
          · next n hn =>
            obtain ⟨u, hu, hvalue⟩ := exists_codeUnit ha hb hc hd hn
            exact .pure ⟨u, hvalue.symm, by simp [hu, hcs, hcs₁, hcs₂, hcs₃]⟩
          · exact (refuses_fail _).yields
        · rw [hnone (.inr (.inr (.inr h)))]
          exact fails_failWith _
      · rw [hnone (.inr (.inr (.inl h)))]
        exact fails_failWith _
    · rw [hnone (.inr (.inl h))]
      exact fails_failWith _
  · rw [hnone (.inl h)]
    exact fails_failWith _

end Read

/-! ### Escapes -/

theorem shortEscape?_letter (e : Escape) : shortEscape? (byte e.letter) = some e.char := by
  cases e <;> decide

theorem exists_escape {c : Char} (hc : c.toNat < 0x80)
    (h : (shortEscape? (byte c)).isSome = true) : ∃ e : Escape, e.letter = c := by
  have hall : ∀ n < 0x80, (shortEscape? (byte (Char.ofNat n))).isSome = true →
      ∃ e ∈ [Escape.quote, .backslash, .slash, .backspace, .formFeed, .lineFeed, .carriageReturn,
        .tab], e.letter = Char.ofNat n := by decide +kernel
  obtain ⟨e, -, he⟩ := hall c.toNat hc (by simpa using h)
  exact ⟨e, by simpa using he⟩

theorem shortEscape?_eq_none_of_le {b : UInt8} (h : 0x80 ≤ b) : shortEscape? b = none := by
  have hall : ∀ n < 256, 0x80 ≤ n → shortEscape? (UInt8.ofNat n) = none := by decide +kernel
  simpa using hall b.toNat b.toNat_lt (UInt8.le_iff_toNat_le.1 h)

theorem isLeadingSurrogate_iff {u : CodeUnit} :
    isLeadingSurrogate u.value = true ↔ u.IsLeading := by
  simp only [isLeadingSurrogate, CodeUnit.IsLeading, Bool.and_eq_true, decide_eq_true_eq]
  omega

theorem isTrailingSurrogate_iff {u : CodeUnit} :
    isTrailingSurrogate u.value = true ↔ u.IsTrailing := by
  simp only [isTrailingSurrogate, CodeUnit.IsTrailing, Bool.and_eq_true, decide_eq_true_eq]
  omega

theorem CodeUnit.not_isTrailing {u : CodeUnit} (h : u.IsLeading) : ¬ u.IsTrailing :=
  fun h' => absurd h.2 (Nat.not_lt.2 h'.1)

namespace Read

variable {cs rest : List Char}

theorem becomes_pairContinues {c : Char} (h : c.toNat < 0x80) (cs : List Char) :
    Becomes (pairContinues c) (c :: cs) (pure ()) cs :=
  .trans (.then (becomes_nextIn .string h cs)) (.ite_pos rfl)

theorem refuses_pairContinues {c d : Char} (h : c.toNat < 0x80) (hd : d ≠ c) (cs : List Char) :
    Refuses (pairContinues c) (d :: cs) := by
  refine refuses_nextIn_bind ?_
  rw [if_neg (by rwa [leadByte_eq_byte_iff h])]
  exact fails_failWith _

theorem becomes_escape_letter (e : Escape) (cs : List Char) :
    Becomes escape (e.letter :: cs) (pure e.char) cs := by
  refine .trans (.then (becomes_nextIn .string (by cases e <;> decide) cs)) ?_
  refine .trans (.ite_neg (by cases e <;> decide)) ?_
  simp only [shortEscape?_letter]
  exact .refl _ _

theorem becomes_escape_codePoint (cs : List Char) :
    Becomes escape ('u' :: cs) codePointEscape cs :=
  .trans (.then (becomes_nextIn .string (by decide) cs)) (.ite_pos rfl)

theorem becomes_escape_unit {u : CodeUnit} (htrailing : ¬ u.IsTrailing) (hleading : ¬ u.IsLeading)
    (cs : List Char) :
    Becomes escape ('u' :: (u.chars ++ cs)) (pure (Char.ofNat u.value)) cs := by
  refine .trans (becomes_escape_codePoint _) (.trans (.then (becomes_fourHexDigits u cs)) ?_)
  refine .trans (.ite_neg ?_) (.ite_neg ?_)
  · rwa [isTrailingSurrogate_iff]
  · rwa [isLeadingSurrogate_iff]

theorem refuses_escape_trailing {u : CodeUnit} (h : u.IsTrailing) (cs : List Char) :
    Refuses escape ('u' :: (u.chars ++ cs)) := by
  refine Becomes.refuses (.trans (becomes_escape_codePoint _)
    (.trans (.then (becomes_fourHexDigits u cs)) (.ite_pos ?_))) (refuses_fail _)
  rwa [isTrailingSurrogate_iff]

/-- After the first half of a pair the reader asks for another unit. -/
theorem becomes_escape_leading {u : CodeUnit} (h : u.IsLeading) (cs : List Char) :
    Becomes escape ('u' :: (u.chars ++ cs)) (do
      pairContinues '\\'
      pairContinues 'u'
      let m ← fourHexDigits
      if isTrailingSurrogate m then return pairedChar u.value m else fail .loneSurrogate) cs := by
  refine .trans (becomes_escape_codePoint _) (.trans (.then (becomes_fourHexDigits u cs)) ?_)
  refine .trans (.ite_neg ?_) (.ite_pos ?_)
  · rw [isTrailingSurrogate_iff]
    exact CodeUnit.not_isTrailing h
  · rwa [isLeadingSurrogate_iff]

theorem becomes_escape_pair {u v : CodeUnit} (hu : u.IsLeading) (hv : v.IsTrailing)
    (cs : List Char) :
    Becomes escape ('u' :: (u.chars ++ '\\' :: 'u' :: (v.chars ++ cs))) (pure (u.paired v)) cs := by
  refine .trans (becomes_escape_leading hu _) ?_
  refine .trans (.then (becomes_pairContinues (by decide) _)) ?_
  refine .trans (.then (becomes_pairContinues (by decide) _)) ?_
  refine .trans (.then (becomes_fourHexDigits v cs)) (.ite_pos ?_)
  rwa [isTrailingSurrogate_iff]

theorem refuses_escape_leading {u : CodeUnit} (hu : u.IsLeading) {ps : List Piece}
    (hps : ∀ v ps', ps = .unit v :: ps' → ¬ v.IsTrailing) (rest : List Char) :
    Refuses escape ('u' :: (u.chars ++ (piecesText ps ++ '"' :: rest))) := by
  refine (becomes_escape_leading hu _).refuses ?_
  match ps, hps with
  | [], _ => exact (refuses_pairContinues (by decide) (by decide) _).bind
  | .raw c h :: ps, _ =>
    refine (refuses_pairContinues (by decide) ?_ _).bind
    rintro rfl
    cases h
  | .escape e :: ps, _ =>
    refine Becomes.refuses (.then (becomes_pairContinues (by decide) _)) ?_
    exact (refuses_pairContinues (by decide) (by cases e <;> decide) _).bind
  | .unit v :: ps, hps =>
    rw [piecesText_cons, List.append_assoc]
    refine Becomes.refuses (.trans (.then (becomes_pairContinues (by decide) _))
      (.then (becomes_pairContinues (by decide) _))) ?_
    refine Becomes.refuses (.trans (.then (becomes_fourHexDigits v _)) (.ite_neg ?_))
      (refuses_fail _)
    rw [isTrailingSurrogate_iff]
    exact hps v ps rfl

theorem yields_escape (cs : List Char) :
    Yields escape cs fun _ rest =>
      ∃ p ps, '\\' :: cs = Piece.text p ++ (piecesText ps ++ rest) := by
  have hcontinues (c : Char) (hc : c.toNat < 0x80) (cs : List Char) :
      Yields (pairContinues c) cs fun _ rest => cs = c :: rest := by
    refine yields_nextIn_bind (fun d rest hcs hd => .ite (fun heq => .pure ?_) fun _ =>
      (refuses_fail _).yields) fun b hb => ?_
    · rw [hcs, (byte_inj hd hc).1 heq]
    · rw [if_neg (byte_ne_of_le hb hc)]
      exact fails_failWith _
  refine yields_nextIn_bind (fun c cs₁ hcs hc => ?_) fun b hb => ?_
  · refine .ite (fun hu => ?_) fun _ => ?_
    · rw [byte_inj hc (by decide)] at hu
      subst hu
      refine (yields_fourHexDigits cs₁).bind fun n cs₂ hn => ?_
      obtain ⟨u, rfl, hcs₁⟩ := hn
      refine .ite (fun _ => (refuses_fail _).yields) fun _ => .ite (fun _ => ?_) fun _ => .pure ?_
      · refine (hcontinues '\\' (by decide) cs₂).bind fun _ cs₃ hcs₂ => ?_
        refine (hcontinues 'u' (by decide) cs₃).bind fun _ cs₄ hcs₃ => ?_
        refine (yields_fourHexDigits cs₄).bind fun m rest hm => ?_
        obtain ⟨v, rfl, hcs₄⟩ := hm
        refine .ite (fun _ => .pure ?_) fun _ => (refuses_fail _).yields
        exact ⟨.unit u, [.unit v], by simp [Piece.text, hcs, hcs₁, hcs₂, hcs₃, hcs₄]⟩
      · exact ⟨.unit u, [], by simp [Piece.text, hcs, hcs₁]⟩
    · split
      · next d hd =>
        obtain ⟨e, rfl⟩ := exists_escape hc (hd ▸ rfl)
        exact .pure ⟨.escape e, [], by simp [Piece.text, hcs]⟩
      · exact (refuses_fail _).yields
  · rw [if_neg (byte_ne_of_le hb (by decide)), shortEscape?_eq_none_of_le hb]
    exact fails_failWith _

/-- What follows a backslash is checked, but not for what it stands for. -/
theorem yields_skipEscape (cs : List Char) :
    Yields skipEscape cs fun _ rest =>
      ∃ p ps, '\\' :: cs = Piece.text p ++ (piecesText ps ++ rest) := by
  refine yields_nextIn_bind (fun c cs₁ hcs hc => ?_) fun b hb => ?_
  · refine .ite (fun hu => ?_) fun _ => .ite (fun _ => (refuses_fail _).yields) fun hshort => ?_
    · rw [byte_inj hc (by decide)] at hu
      subst hu
      refine (yields_fourHexDigits cs₁).bind fun n rest hn => .pure ?_
      obtain ⟨u, -, hcs₁⟩ := hn
      exact ⟨.unit u, [], by simp [Piece.text, hcs, hcs₁]⟩
    · obtain ⟨e, rfl⟩ := exists_escape hc (by simpa [Option.isSome_iff_ne_none] using hshort)
      exact .pure ⟨.escape e, [], by simp [Piece.text, hcs]⟩
  · rw [if_neg (byte_ne_of_le hb (by decide)), shortEscape?_eq_none_of_le hb]
    exact fails_failWith _

theorem becomes_skipEscape_letter (e : Escape) (cs : List Char) :
    Becomes skipEscape (e.letter :: cs) (pure ()) cs := by
  refine .trans (.then (becomes_nextIn .string (by cases e <;> decide) cs)) ?_
  refine .trans (.ite_neg (by cases e <;> decide)) (.ite_neg ?_)
  simp [shortEscape?_letter]

theorem becomes_skipEscape_unit (u : CodeUnit) (cs : List Char) :
    Becomes skipEscape ('u' :: (u.chars ++ cs)) (pure ()) cs := by
  refine .trans (.then (becomes_nextIn .string (by decide) _)) (.trans (.ite_pos rfl) ?_)
  exact .then (becomes_fourHexDigits u cs)

end Read

/-! ### Pieces -/

/-- A byte that stands for itself in a literal. -/
def IsPlain (b : UInt8) : Prop :=
  ¬ b < 0x20 ∧ b ≠ byte '"' ∧ b ≠ byte '\\'

theorem isPlain_of_mem_encodeChar {c : Char} (h : isUnescaped c = true) {b : UInt8}
    (hb : b ∈ encodeChar c) : IsPlain b := by
  simp only [isUnescaped, Bool.and_eq_true, decide_eq_true_eq, bne_iff_ne] at h
  rcases Nat.lt_or_ge c.toNat 0x80 with hc | hc
  · rw [Utf8.encodeChar_of_lt hc, List.mem_singleton] at hb
    change b = byte c at hb
    subst hb
    refine ⟨?_, (Read.byte_inj hc (by decide)).not.2 h.1.2,
      (Read.byte_inj hc (by decide)).not.2 h.2⟩
    rw [UInt8.lt_iff_toNat_lt, toNat_byte hc]
    exact Nat.not_lt.2 h.1.1
  · have hle := Utf8.le_of_mem_encodeChar hc hb
    refine ⟨?_, Read.byte_ne_of_le hle (by decide), Read.byte_ne_of_le hle (by decide)⟩
    rw [UInt8.lt_iff_toNat_lt, Nat.not_lt]
    exact Nat.le_trans (by decide) (UInt8.le_iff_toNat_le.1 hle)

namespace Read

variable {α τ : Type} {step : Step Cursor Fault τ α} {cs rest : List Char}

/-- A turn passes a plain byte and puts it to the others as `push` says. -/
def PassesPlain (step : Step Cursor Fault τ α) (push : τ → UInt8 → τ) : Prop :=
  ∀ t b, IsPlain b → ∀ (cur : Cursor) bs, cur.rest = b :: bs →
    ∃ cur' : Cursor, cur'.rest = bs ∧ (step.turn t).run cur = .ok (.again (push t b), cur')

theorem becomes_iterate_plain {push : τ → UInt8 → τ} (hturn : PassesPlain step push)
    {c : Char} (hc : isUnescaped c = true) (t : τ) (cs : List Char) :
    Becomes (iterate step t) (c :: cs) (iterate step ((encodeChar c).foldl push t)) cs := by
  have hplain := fun b => isPlain_of_mem_encodeChar hc (b := b)
  intro cur hcur
  rw [Utf8.encode_cons] at hcur
  generalize encodeChar c = bytes at hplain hcur ⊢
  induction bytes generalizing t cur with
  | nil => exact ⟨cur, hcur, rfl⟩
  | cons b bs ih =>
    obtain ⟨hb, hbs⟩ := List.forall_mem_cons.1 hplain
    obtain ⟨cur₁, hcur₁, hrun⟩ := hturn t b hb cur _ hcur
    obtain ⟨cur', hcur', hrun'⟩ := ih (push t b) cur₁ hbs hcur₁
    refine ⟨cur', hcur', ?_⟩
    rw [Reader.run_iterate, hrun]
    exact hrun'

theorem run_nextIn_cons (inside : Construct) {cur : Cursor} {b : UInt8} {bs : List UInt8}
    (h : cur.rest = b :: bs) : (nextIn inside).run cur = .ok (b, cur.pass 1) := by
  rw [nextIn, Reader.run_bind]
  simp [next, h, Reader.run_pure]

theorem passesPlain_textStep : PassesPlain textStep fun before b => b :: before := by
  intro before b hb cur bs hcur
  refine ⟨cur.pass 1, by simp [Cursor.pass, hcur], ?_⟩
  change (nextIn .string >>= textPiece before).run cur = _
  rw [Reader.run_bind, run_nextIn_cons .string hcur]
  change (textPiece before b).run _ = _
  rw [textPiece, if_neg hb.2.1, if_neg hb.2.2, if_neg hb.1]
  rfl

theorem passesPlain_skippedTextStep : PassesPlain skippedTextStep fun _ _ => () := by
  intro t b hb cur bs hcur
  have hlook : cur.look.rest = b :: bs := by rw [Cursor.rest_look, hcur]
  refine ⟨cur.look.pass 1, by simp [Cursor.pass, hlook], ?_⟩
  change (refuseControl >>= fun _ => nextIn .string >>= skippedPiece).run cur = _
  have hcontrol : refuseControl.run cur = .ok ((), cur.look) := by
    change (if (cur.rest.head?).any (· < 0x20) = true then fail .controlCharacter
      else pure ()).run cur.look = _
    rw [hcur, if_neg (by simpa using hb.1)]
    rfl
  rw [Reader.run_bind, hcontrol]
  change (nextIn .string >>= skippedPiece).run cur.look = _
  rw [Reader.run_bind, run_nextIn_cons .string hlook]
  change (skippedPiece b).run _ = _
  rw [skippedPiece, if_neg hb.2.1, if_neg hb.2.2]
  rfl

theorem becomes_textStep_raw {c : Char} (hc : isUnescaped c = true) (before : List UInt8)
    (cs : List Char) :
    Becomes (iterate textStep before) (c :: cs)
      (iterate textStep ((encodeChar c).reverse ++ before)) cs := by
  simpa [List.foldl_flip_cons_eq_append] using
    becomes_iterate_plain passesPlain_textStep hc before cs

theorem becomes_skippedTextStep_raw {c : Char} (hc : isUnescaped c = true) (cs : List Char) :
    Becomes (iterate skippedTextStep ()) (c :: cs) (iterate skippedTextStep ()) cs :=
  becomes_iterate_plain passesPlain_skippedTextStep hc () cs

/-! ### Literals that are kept -/

theorem becomes_textPiece_escape (before : List UInt8) {mid : List Char} {c : Char}
    (h : Becomes escape cs (pure c) mid) :
    Becomes (iterate textStep before) ('\\' :: cs)
      (iterate textStep ((encodeChar c).reverse ++ before)) mid := by
  refine .again (.trans (.then (becomes_nextIn .string (by decide) cs)) ?_)
  exact .trans (.ite_neg (by decide)) (.trans (.ite_pos rfl) (.then h))

theorem refuses_textPiece_escape (before : List UInt8) (h : Refuses escape cs) :
    Refuses (iterate textStep before) ('\\' :: cs) := by
  refine .iterate (Becomes.refuses (.then (becomes_nextIn .string (by decide) cs)) ?_)
  exact Becomes.refuses (.trans (.ite_neg (by decide)) (.ite_pos rfl)) h.bind

theorem becomes_textPiece_quote (before : List UInt8) (rest : List Char) :
    Becomes (iterate textStep before) ('"' :: rest) (pure before.reverse) rest :=
  .done (.trans (.then (becomes_nextIn .string (by decide) rest)) (.ite_pos rfl))

theorem gives_iterate_textStep (ps : List Piece) (before : List UInt8) (rest : List Char) :
    Gives (iterate textStep before) (piecesText ps ++ '"' :: rest)
      ((unescape? ps).map (before.reverse ++ encode ·)) rest := by
  have hcons (before : List UInt8) (c : Char) (cs? : Option (List Char)) :
      (cs?.map (c :: ·)).map (before.reverse ++ encode ·) =
        cs?.map (((encodeChar c).reverse ++ before).reverse ++ encode ·) := by
    cases cs? <;> simp [Utf8.encode_cons]
  fun_induction unescape? ps generalizing before with
  | case1 => simpa [Gives] using becomes_textPiece_quote before rest
  | case2 c hc ps ih =>
    rw [hcons]
    exact (becomes_textStep_raw hc before _).gives (ih _)
  | case3 e ps ih =>
    rw [hcons]
    exact (becomes_textPiece_escape before (becomes_escape_letter e _)).gives (ih _)
  | case4 u ps htrailing =>
    rw [piecesText_cons, List.append_assoc]
    exact refuses_textPiece_escape before (refuses_escape_trailing htrailing _)
  | case5 u _ hleading v ps htrailing ih =>
    rw [hcons, piecesText_cons, piecesText_cons, List.append_assoc, List.append_assoc]
    exact (becomes_textPiece_escape before (becomes_escape_pair hleading htrailing _)).gives (ih _)
  | case6 u _ hleading v ps htrailing =>
    rw [piecesText_cons, List.append_assoc]
    refine refuses_textPiece_escape before (refuses_escape_leading hleading ?_ rest)
    rintro _ _ ⟨⟩
    exact htrailing
  | case7 u ps _ hleading hps =>
    rw [piecesText_cons, List.append_assoc]
    refine refuses_textPiece_escape before (refuses_escape_leading hleading ?_ rest)
    rintro v ps' rfl
    exact (hps v ps' rfl).elim
  | case8 u ps htrailing hleading ih =>
    rw [hcons, piecesText_cons, List.append_assoc]
    exact (becomes_textPiece_escape before (becomes_escape_unit htrailing hleading _)).gives (ih _)

/-- A literal is read as the string that it stands for and refused if it stands for none. -/
theorem gives_text (l : Literal) (rest : List Char) :
    Gives text (piecesText l.pieces ++ '"' :: rest) l.string? rest := by
  have hbytes := gives_iterate_textStep l.pieces [] rest
  rw [Literal.string?]
  cases hpieces : unescape? l.pieces with
  | none =>
    rw [hpieces] at hbytes
    exact Refuses.bind hbytes
  | some cs =>
    rw [hpieces] at hbytes
    refine Becomes.trans (.then hbytes) ?_
    simp only [List.reverse_nil, List.nil_append, Utf8.decode_encode]
    exact .refl _ _

/-! ### Literals that are skipped -/

theorem becomes_refuseControl {c : Char} (h : 0x20 ≤ c.toNat) (cs : List Char) :
    Becomes refuseControl (c :: cs) (pure ()) (c :: cs) := by
  refine .trans (.then (becomes_peek _)) (.ite_neg ?_)
  simpa [leadByte_lt_iff (n := 0x20) (by decide)] using h

theorem becomes_skippedPiece_escape {mid : List Char} (h : Becomes skipEscape cs (pure ()) mid) :
    Becomes (iterate skippedTextStep ()) ('\\' :: cs) (iterate skippedTextStep ()) mid := by
  refine .again (.trans (.then (becomes_refuseControl (by decide) cs))
    (.trans (.then (becomes_nextIn .string (by decide) cs)) ?_))
  exact .trans (.ite_neg (by decide)) (.trans (.ite_pos rfl) (.then h))

/-- A literal is passed whatever it stands for. -/
theorem becomes_skipText (ps : List Piece) (rest : List Char) :
    Becomes skipText (piecesText ps ++ '"' :: rest) (pure ()) rest := by
  change Becomes (iterate skippedTextStep ()) _ _ _
  induction ps with
  | nil =>
    refine .done (.trans (.then (becomes_refuseControl (by decide) rest)) ?_)
    exact .trans (.then (becomes_nextIn .string (by decide) rest)) (.ite_pos rfl)
  | cons p ps ih =>
    rw [piecesText_cons, List.append_assoc]
    cases p with
    | raw c hc => exact (becomes_skippedTextStep_raw hc _).trans ih
    | escape e => exact (becomes_skippedPiece_escape (becomes_skipEscape_letter e _)).trans ih
    | unit u => exact (becomes_skippedPiece_escape (becomes_skipEscape_unit u _)).trans ih

/-! ### Only literals are passed -/

/-- What a turn that starts with something else than a plain character passes. -/
def PassesPiece (cs : List Char) : Turn τ α → List Char → Prop :=
  Turned (fun _ mid => cs = '"' :: mid)
    fun _ mid => ∃ p ps, cs = Piece.text p ++ (piecesText ps ++ mid)

theorem yields_iterate_pieces
    (hraw : ∀ c, isUnescaped c = true → ∀ t cs, ∃ t',
      Becomes (iterate step t) (c :: cs) (iterate step t') cs)
    (hnil : ∀ t, Refuses (step.turn t) [])
    (hturn : ∀ t c cs, isUnescaped c = false →
      Yields (step.turn t) (c :: cs) (PassesPiece (c :: cs)))
    (t : τ) (cs : List Char) :
    Yields (iterate step t) cs fun _ rest => ∃ ps, cs = piecesText ps ++ '"' :: rest := by
  induction hlength : cs.length using Nat.strong_induction_on generalizing t cs with
  | _ n ih =>
    subst hlength
    match cs with
    | [] => exact (hnil t).iterate.yields
    | c :: cs =>
      by_cases hplain : isUnescaped c = true
      · obtain ⟨t', hstep⟩ := hraw c hplain t cs
        refine hstep.yields ((ih _ (Nat.lt_succ_self _) t' cs rfl).mono fun _ rest hps => ?_)
        obtain ⟨ps, rfl⟩ := hps
        exact ⟨.raw c hplain :: ps, rfl⟩
      · refine .turn ((hturn t c cs (Bool.eq_false_iff.2 hplain)).mono fun turn mid hpiece => ?_)
        match turn, hpiece with
        | .done _, hpiece => exact ⟨[], hpiece⟩
        | .again t', ⟨p, ps, hcs⟩ =>
          have hlt : mid.length < (c :: cs).length := by
            have : 0 < p.text.length := by cases p <;> simp [Piece.text]
            rw [hcs, List.length_append, List.length_append]
            omega
          refine (ih _ hlt t' mid rfl).mono fun _ rest hps => ?_
          obtain ⟨ps', rfl⟩ := hps
          exact ⟨p :: ps ++ ps', by simp [hcs, piecesText]⟩

/-- A character that is not plain is a quote, a backslash or a control character. -/
theorem not_isUnescaped {c : Char} (h : isUnescaped c = false) :
    c = '"' ∨ c = '\\' ∨ c.toNat < 0x20 := by
  simp only [isUnescaped, Bool.and_eq_false_iff, decide_eq_false_iff_not, bne_eq_false_iff_eq,
    Nat.not_le] at h
  tauto

theorem refuses_control {c : Char} (h : c.toNat < 0x20) (cs : List Char) :
    Refuses refuseControl (c :: cs) := by
  refine Becomes.refuses (.trans (.then (becomes_peek _)) (.ite_pos ?_)) (refuses_fail _)
  simpa [leadByte_lt_iff (n := 0x20) (by decide)] using h

/-- The pieces that are read up to a closing quote are those of a literal. -/
theorem yields_iterate_textStep (before : List UInt8) (cs : List Char) :
    Yields (iterate textStep before) cs fun _ rest => ∃ ps, cs = piecesText ps ++ '"' :: rest := by
  refine yields_iterate_pieces (fun c hc t cs => ⟨_, becomes_textStep_raw hc t cs⟩)
    (fun t => (refuses_nextIn_nil _).bind) (fun before c cs hc => ?_) before cs
  rcases not_isUnescaped hc with rfl | rfl | hcontrol
  · refine (Becomes.trans (.then (becomes_nextIn .string (by decide) cs))
      (.ite_pos rfl)).yields ?_
    exact .pure rfl
  · refine (Becomes.trans (.then (becomes_nextIn .string (by decide) cs))
      (.trans (.ite_neg (by decide)) (.ite_pos rfl))).yields ?_
    exact (yields_escape cs).bind fun _ mid hpiece => .pure hpiece
  · have hlt := Nat.lt_trans hcontrol (by decide : 0x20 < 0x80)
    have hbyte : byte c < 0x20 := by rwa [UInt8.lt_iff_toNat_lt, toNat_byte hlt]
    have hne {d : Char} (hd : 0x20 ≤ d.toNat) (hd' : d.toNat < 0x80) : byte c ≠ byte d := by
      rw [Ne, byte_inj hlt hd']
      rintro rfl
      exact Nat.not_lt.2 hd hcontrol
    refine (Becomes.refuses (.trans (.then (becomes_nextIn .string hlt cs)) (.trans (.ite_neg
      (hne (by decide) (by decide))) (.trans (.ite_neg (hne (by decide) (by decide)))
        (.ite_pos hbyte)))) (refuses_fail _)).yields

theorem yields_text (cs : List Char) :
    Yields text cs fun _ rest => ∃ ps, cs = piecesText ps ++ '"' :: rest := by
  refine Yields.bind (yields_iterate_textStep [] cs) fun bytes rest hps => ?_
  split
  · exact .pure hps
  · exact (refuses_failBehind _ _).yields

theorem yields_skipText (cs : List Char) :
    Yields skipText cs fun _ rest => ∃ ps, cs = piecesText ps ++ '"' :: rest := by
  have hnil : Becomes refuseControl [] (pure ()) [] :=
    .trans (.then (becomes_peek _)) (.ite_neg (by simp))
  refine yields_iterate_pieces (fun c hc _ cs => ⟨(), becomes_skippedTextStep_raw hc cs⟩)
    (fun _ => (Becomes.then hnil).refuses (refuses_nextIn_nil _).bind) (fun _ c cs hc => ?_) () cs
  rcases not_isUnescaped hc with rfl | rfl | hcontrol
  · refine (Becomes.trans (.then (becomes_refuseControl (by decide) cs))
      (.trans (.then (becomes_nextIn .string (by decide) cs)) (.ite_pos rfl))).yields ?_
    exact .pure rfl
  · refine (Becomes.trans (.then (becomes_refuseControl (by decide) cs))
      (.trans (.then (becomes_nextIn .string (by decide) cs))
        (.trans (.ite_neg (by decide)) (.ite_pos rfl)))).yields ?_
    exact (yields_skipEscape cs).bind fun _ mid hpiece => .pure hpiece
  · exact (refuses_control hcontrol cs).bind.yields

end Read

end DeletionGuard.Json
