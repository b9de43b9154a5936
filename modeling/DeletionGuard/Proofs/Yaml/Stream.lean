import DeletionGuard.Proofs.Yaml.Tokens

/-!
# The tokens of a text of entries

No character of such a text is a control character, so all of it is read. Its tokens are those of
its entries one after the other, inside of one mapping if there are entries at all.
-/

namespace DeletionGuard.Yaml

/-! ### What is read -/

theorem isPrintable_of_digitOf? {radix n : Nat} {c : Char} (h : digitOf? radix c = some n) :
    IsPrintable c := by
  have hkind : c.isDigit = true ∨ c.isLower = true ∨ c.isUpper = true := by
    by_contra hnone
    simp only [not_or, Bool.not_eq_true] at hnone
    simp [digitOf?, hnone] at h
  rcases hkind with hdigit | hlower | hupper
  · exact isPrintable_of_isDigit hdigit
  · exact isPrintable_of_isLower hlower
  · exact isPrintable_of_isUpper hupper

theorem isPrintable_of_natural? {radix n : Nat} {digits : List Char}
    (h : natural? radix digits = some n) : ∀ c ∈ digits, IsPrintable c := by
  let step := fun (n? : Option Nat) c => do return (← n?) * radix + (← digitOf? radix c)
  have hfold (n? : Option Nat) (ds : List Char) (h : (ds.foldl step n?).isSome) :
      n?.isSome ∧ ∀ c ∈ ds, IsPrintable c := by
    induction ds generalizing n? with
    | nil => exact ⟨h, nofun⟩
    | cons d ds ih =>
      obtain ⟨hstep, hds⟩ := ih (step n? d) h
      cases hdigit : digitOf? radix d with
      | none => cases n? <;> simp [step, hdigit] at hstep
      | some k =>
        refine ⟨?_, List.forall_mem_cons.2 ⟨isPrintable_of_digitOf? hdigit, hds⟩⟩
        cases n? with
        | none => simp [step] at hstep
        | some n => rfl
  rw [natural?] at h
  split at h
  · cases h
  · exact (hfold (some 0) digits (by rw [h]; rfl)).2

variable {es : List Entry} {e : Entry} {opened plain : Bool} {style : QuoteStyle}
  {c : Char} {value w cs : List Char} {l l' : Lexer} {ready : List Token}

theorem SpellsChar.isAllowed (h : SpellsChar style c w) : ∀ d ∈ w, isAllowed d = true := by
  cases h with
  | single hc => exact List.forall_mem_singleton.2 hc.isAllowed
  | doubled => exact List.forall_mem_cons.2 ⟨rfl, List.forall_mem_singleton.2 rfl⟩
  | double hc => exact List.forall_mem_singleton.2 hc.isAllowed
  | escaped _ hvalue =>
    exact List.forall_mem_cons.2 ⟨rfl, List.forall_mem_cons.2
      ⟨rfl, fun d hd => (isPrintable_of_natural? hvalue d hd).isAllowed⟩⟩

theorem SpellsText.isAllowed (h : SpellsText style cs w) : ∀ d ∈ w, isAllowed d = true := by
  induction h with
  | nil => nofun
  | cons hc _ ih => exact List.forall_mem_append.2 ⟨hc.isAllowed, ih⟩

theorem SpellsValue.isAllowed (h : SpellsValue value plain w) : ∀ d ∈ w, isAllowed d = true := by
  cases h with
  | word _ hword => exact fun d hd => (hword d hd).isAllowed
  | @quoted style _ _ htext =>
    have hmark : Yaml.isAllowed style.mark = true := by cases style <;> rfl
    exact List.forall_mem_cons.2 ⟨hmark, List.forall_mem_append.2
      ⟨htext.isAllowed, List.forall_mem_singleton.2 hmark⟩⟩

theorem IsFiller.isAllowed (h : IsFiller w) : ∀ d ∈ w, isAllowed d = true := by
  have hblank (n : Nat) : ∀ d ∈ List.replicate n ' ', Yaml.isAllowed d = true :=
    fun d hd => List.eq_of_mem_replicate hd ▸ rfl
  cases h with
  | blank n => exact hblank n
  | comment n htext =>
    exact List.forall_mem_append.2 ⟨hblank n, List.forall_mem_cons.2
      ⟨rfl, fun d hd => (htext d hd).isAllowed⟩⟩

/-- A text of entries holds no control character. -/
theorem SpellsLines.isAllowed (h : SpellsLines es cs) : ∀ d ∈ cs, isAllowed d = true := by
  induction h with
  | nil => nofun
  | filler hw _ ih =>
    exact List.forall_mem_append.2 ⟨hw.isAllowed, List.forall_mem_cons.2 ⟨rfl, ih⟩⟩
  | entry hkey hvalue _ ih =>
    refine List.forall_mem_append.2 ⟨fun d hd => (hkey.2.1 d hd).isAllowed, ?_⟩
    refine List.forall_mem_cons.2 ⟨rfl, List.forall_mem_cons.2 ⟨rfl, ?_⟩⟩
    exact List.forall_mem_append.2 ⟨hvalue.isAllowed, List.forall_mem_cons.2 ⟨rfl, ih⟩⟩

theorem readableFrom_of_isAllowed (taken current : List Char) (offset limit : Nat)
    (h : ∀ c ∈ cs, isAllowed c = true) :
    readableFrom taken current offset limit cs =
      ((current ++ taken).reverse ++ cs, .endOfText) := by
  induction cs generalizing taken current offset limit with
  | nil => rw [readableFrom, List.append_nil]
  | cons c cs ih =>
    obtain ⟨hc, hcs⟩ := List.forall_mem_cons.1 h
    rw [readableFrom, if_pos hc]
    split
    · rw [ih _ _ _ _ hcs]
      simp
    · rw [ih _ _ _ _ hcs]
      simp

theorem ofText_of_isAllowed (h : ∀ c ∈ cs, isAllowed c = true) :
    Lexer.ofText (String.ofList cs) = .atLine false cs .start 0 := by
  have hreadable : readable cs = (cs, .endOfText) := readableFrom_of_isAllowed [] [] 0 portion h
  rw [Lexer.ofText, String.toList_ofList, hreadable]
  rfl

/-! ### What it is read as -/

theorem tokensFrom_of_more (h : Scan.fetchReady.run l = .ok ((true, ready), l')) :
    tokensFrom l = ⟨ready ++ (tokensFrom l').tokens, (tokensFrom l').fault⟩ := by
  rw [tokensFrom]
  split <;> simp_all

theorem tokensFrom_of_end (h : Scan.fetchReady.run l = .ok ((false, ready), l')) :
    tokensFrom l = ⟨ready, none⟩ := by
  rw [tokensFrom]
  split <;> simp_all

/-- The kinds of the tokens of an entry. -/
def Entry.kinds (e : Entry) : List TokenKind :=
  [.key, .scalar (String.ofList e.key) true, .value, .scalar (String.ofList e.value) e.plain]

/-- The kinds of the tokens of entries, up to the end of the stream, in a mapping that is open or
that the first opens. -/
def streamKinds (opened : Bool) : List Entry → List TokenKind
  | [] => (if opened then [.blockEnd] else []) ++ [.streamEnd]
  | e :: es => (if opened then [] else [.blockMappingStart]) ++ (e.kinds ++ streamKinds true es)

theorem kinds_keyTokens (opened : Bool) (key : List Char) (start colon : Mark) :
    (Scan.keyTokens opened key start colon).map Token.kind =
      (if opened then [] else [.blockMappingStart]) ++
        [.key, .scalar (String.ofList key) true, .value] := by
  cases opened <;> rfl

/-- An entry is read in three steps, which leave the lexer before the next one. -/
theorem tokensFrom_entry (h : l.Leads opened (e :: es)) :
    ∃ ts l', l'.Leads true es ∧
      ts.map Token.kind = (if opened then [] else [.blockMappingStart]) ++ e.kinds ∧
      tokensFrom l = ⟨ts ++ (tokensFrom l').tokens, (tokensFrom l').fault⟩ := by
  obtain ⟨rest, m, taken, hstart, hcolumn, hblank⟩ := h
  cases hstart with
  | entry hkey hvalue hlines =>
    have hread := Scan.run_fetchReady_key hkey hcolumn hblank
    obtain ⟨taken', hcolon⟩ := Scan.run_fetchReady_colon hkey hcolumn opened _ taken
    obtain ⟨t, l', ht, hl', hlast⟩ := Scan.run_fetchReady_value hvalue hlines
    refine ⟨Scan.keyTokens opened e.key m (m.forward e.key) ++ [t], l', hl', ?_, ?_⟩
    · rw [List.map_append, kinds_keyTokens, List.append_assoc, List.map_singleton, ht]
      rfl
    · rw [tokensFrom_of_more hread, tokensFrom_of_more hcolon, tokensFrom_of_more hlast]
      simp

theorem tokensFrom_of_leads (h : l.Leads opened es) :
    (tokensFrom l).tokens.map Token.kind = streamKinds opened es ∧ (tokensFrom l).fault = none := by
  induction es generalizing l opened with
  | nil =>
    obtain ⟨ts, l', hts, hrun⟩ := Scan.run_fetchReady_end h
    rw [tokensFrom_of_end hrun]
    exact ⟨hts, rfl⟩
  | cons e es ih =>
    obtain ⟨ts, l', hl', hts, hrun⟩ := tokensFrom_entry h
    obtain ⟨hkinds, hfault⟩ := ih hl'
    rw [hrun, List.map_append, hts, hkinds, List.append_assoc]
    exact ⟨rfl, hfault⟩

theorem SpellsLines.tokens (h : SpellsLines es cs) :
    (tokens (String.ofList cs)).tokens.map Token.kind = streamKinds false es ∧
      (tokens (String.ofList cs)).fault = none := by
  rw [Yaml.tokens, ofText_of_isAllowed h.isAllowed]
  exact tokensFrom_of_leads (Scan.leads_atLine rfl h false 0)

end DeletionGuard.Yaml
