import DeletionGuard.Proofs.Text.Utf8
import DeletionGuard.Proofs.Yaml.Characters
import DeletionGuard.Proofs.Yaml.Reading

/-!
# Quoted scalars of one line

Every text can be written between double quotes on one line, with escapes for what is not printable,
and a printable one also between single quotes. Reading goes on character by character: what has
been read is the text of the state and the blanks behind it, since no line end comes in between.
-/

namespace DeletionGuard.Yaml

/-! ### Spellings -/

/-- The ways to write a character between quotes. -/
inductive SpellsChar : QuoteStyle → Char → List Char → Prop
  | single {c : Char} : IsPrintable c → c ≠ '\'' → SpellsChar .single c [c]
  | doubled : SpellsChar .single '\'' ['\'', '\'']
  | double {c : Char} : IsPrintable c → c ≠ '"' → c ≠ '\\' → SpellsChar .double c [c]
  | escaped {c : Char} {digits : List Char} :
    digits.length = 8 → natural? 16 digits = some c.toNat →
      SpellsChar .double c ('\\' :: 'U' :: digits)

/-- The ways to write a text between quotes. -/
inductive SpellsText (style : QuoteStyle) : List Char → List Char → Prop
  | nil : SpellsText style [] []
  | cons {c : Char} {cs w ws : List Char} :
    SpellsChar style c w → SpellsText style cs ws → SpellsText style (c :: cs) (w ++ ws)

/-! ### One way to write a text -/

/-- Eight digits in radix 16, the highest first. -/
def eightDigits (n : Nat) : List Char :=
  [28, 24, 20, 16, 12, 8, 4, 0].map fun i => Nat.digitChar (n >>> i % 16)

theorem digitOf?_digitChar {d : Nat} (h : d < 16) : digitOf? 16 (Nat.digitChar d) = some d := by
  have hall : ∀ d < 16, digitOf? 16 (Nat.digitChar d) = some d := by decide
  exact hall d h

theorem natural?_eightDigits {n : Nat} (h : n < 0x100000000) :
    natural? 16 (eightDigits n) = some n := by
  have hdigit (i : Nat) : digitOf? 16 (Nat.digitChar (n >>> i % 16)) = some (n >>> i % 16) :=
    digitOf?_digitChar (Nat.mod_lt _ (by decide))
  have hfirst : 0 * 16 + n >>> 28 % 16 = n >>> 28 := by omega
  have hnext (i : Nat) : n >>> (i + 4) * 16 + n >>> i % 16 = n >>> i := by
    rw [Nat.shiftRight_add]
    omega
  simp only [natural?, eightDigits, List.map_cons, List.map_nil, List.isEmpty_cons, List.foldl_cons,
    List.foldl_nil, hdigit, Option.bind_eq_bind, Option.bind_some, Bool.false_eq_true, if_false,
    Option.pure_def, hfirst, hnext]
  rfl

/-- What is printable stands between double quotes as it is, all else as an escape. -/
def doubleQuoted (cs : List Char) : List Char :=
  cs.flatMap fun c =>
    if IsPrintable c ∧ c ≠ '"' ∧ c ≠ '\\' then [c] else '\\' :: 'U' :: eightDigits c.toNat

/-- Between single quotes, single quotes are doubled. -/
def singleQuoted (cs : List Char) : List Char :=
  cs.flatMap fun c => if c = '\'' then ['\'', '\''] else [c]

theorem spellsText_doubleQuoted (cs : List Char) : SpellsText .double cs (doubleQuoted cs) := by
  induction cs with
  | nil => exact .nil
  | cons c cs ih =>
    refine .cons ?_ ih
    beta_reduce
    split
    · next h => exact .double h.1 h.2.1 h.2.2
    · have hc : c.toNat < 0xD800 ∨ 0xDFFF < c.toNat ∧ c.toNat < 0x110000 := c.valid
      exact .escaped rfl (natural?_eightDigits (by omega))

theorem spellsText_singleQuoted {cs : List Char} (h : ∀ c ∈ cs, IsPrintable c) :
    SpellsText .single cs (singleQuoted cs) := by
  induction cs with
  | nil => exact .nil
  | cons c cs ih =>
    obtain ⟨hc, hcs⟩ := List.forall_mem_cons.1 h
    refine .cons ?_ (ih hcs)
    beta_reduce
    split
    · next heq => exact heq ▸ .doubled
    · next hne => exact .single hc hne

/-! ### What has been read -/

/-- No line end has come, and the text and the blanks are `cs`. -/
def ScalarState.Holds (s : ScalarState) (cs : List Char) : Prop :=
  s.folding.firstBreak = none ∧ s.text.reverse ++ s.folding.blanks.reverse = cs

namespace ScalarState.Holds

variable {s : ScalarState} {cs : List Char}

theorem push (h : s.Holds cs) (ds : List Char) : (s.push ds).Holds (cs ++ ds) := by
  obtain ⟨hbreak, rfl⟩ := h
  refine ⟨rfl, ?_⟩
  simp [ScalarState.push, Folding.none, Folding.text, hbreak]

theorem addBlank (h : s.Holds cs) (c : Char) :
    ScalarState.Holds { s with folding := s.folding.addBlank c } (cs ++ [c]) := by
  obtain ⟨hbreak, rfl⟩ := h
  have hbroken : ¬ s.folding.broken = true := by
    rw [Folding.broken, hbreak]
    decide
  rw [ScalarState.Holds, Folding.addBlank, if_neg hbroken]
  exact ⟨hbreak, by simp⟩

theorem text_push_nil (h : s.Holds cs) : (s.push []).text.reverse = cs := by
  obtain ⟨hbreak, rfl⟩ := h
  simp [ScalarState.push, Folding.text, hbreak]

end ScalarState.Holds

namespace Scan

open Reader (run_bind_of_eq)

variable {style : QuoteStyle} {begin : Mark} {l : Lexer} {s : ScalarState} {c : Char}
  {cs w rest : List Char}

/-- On a line, and not at its start, a character that is no line end is read. -/
theorem run_quotedTurn (hend : l.ending = .endOfText) (hcolumn : l.mark.column ≠ 0)
    (hrest : l.rest = c :: rest) (hbreak : isBreak c = false) :
    (quotedTurn style begin s).run l =
      (if isBlank c then pure (.again { s with folding := s.folding.addBlank c })
        else quotedChar style s c l.mark begin).run (l.pass [c] rest) := by
  have hpeek : peek.run l = .ok (some c, l) := by rw [run_peek hend, hrest]; rfl
  rw [quotedTurn, run_bind_of_eq (run_atDocumentMark_of_column hcolumn)]
  simp only [Bool.false_eq_true, if_false]
  rw [run_bind_of_eq (run_peekAt hend 1), run_bind_of_eq hpeek, Option.any_some, hbreak]
  simp only [Bool.false_eq_true, if_false]
  rw [run_bind_of_eq (a := l.mark) (r := l) rfl, run_bind_of_eq (run_next? hrest)]

theorem run_codePoint (hend : l.ending = .endOfText) {digits : List Char}
    (hlength : digits.length = 8) (hvalue : natural? 16 digits = some c.toNat)
    (hrest : l.rest = digits ++ rest) (begin : Mark) :
    (codePoint 8 begin).run l = .ok (c, l.pass digits rest) := by
  have htake : l.rest.take 8 = digits := by rw [hrest, ← hlength, List.take_left]
  have hdrop : l.rest.drop 8 = rest := by rw [hrest, ← hlength, List.drop_left]
  have hnumber : hexNumber? 8 l.rest = some c.toNat := by
    rw [hexNumber?, htake, hlength]
    exact hvalue
  have hvalid : ¬ ((0xD800 ≤ c.toNat && c.toNat ≤ 0xDFFF) || 0x10FFFF < c.toNat) = true := by
    have hc : c.toNat < 0xD800 ∨ 0xDFFF < c.toNat ∧ c.toNat < 0x110000 := c.valid
    simp only [Bool.or_eq_true, Bool.and_eq_true, decide_eq_true_eq]
    omega
  rw [codePoint, run_bind_of_eq (run_peekAt hend 7), run_bind_of_eq (a := l) (r := l) rfl, hnumber]
  simp only [if_neg hvalid]
  rw [run_bind_of_eq (run_skip 8 l), htake, hdrop, Char.ofNat_toNat]
  rfl

theorem run_escape (hend : l.ending = .endOfText) {digits : List Char}
    (hlength : digits.length = 8) (hvalue : natural? 16 digits = some c.toNat)
    (hrest : l.rest = 'U' :: (digits ++ rest)) (place begin : Mark) :
    (escape s place begin).run l = .ok (s.push [c], l.pass ('U' :: digits) rest) := by
  have hpeek : peek.run l = .ok (some 'U', l) := by rw [run_peek hend, hrest]; rfl
  have hskip : (skip 1).run l = .ok ((), l.pass ['U'] (digits ++ rest)) := by
    rw [run_skip, hrest]
    rfl
  have hpoint := run_codePoint (l := l.pass ['U'] (digits ++ rest)) hend hlength hvalue rfl begin
  have hletter : Escape.ofChar? 'U' = some (.codePoint 8) := rfl
  have hbreak : isBreak 'U' = false := rfl
  rw [escape, run_bind_of_eq hpeek]
  simp only [Option.any_some, Option.bind_some, hbreak, hletter, Bool.false_eq_true, if_false]
  rw [run_bind_of_eq hskip, run_bind_of_eq hpoint, Lexer.pass_pass]
  rfl

/-- A character that is written as itself. -/
theorem run_quotedTurn_self (hend : l.ending = .endOfText) (hcolumn : l.mark.column ≠ 0)
    (hrest : l.rest = c :: rest) (hc : IsPrintable c) (hmark : c ≠ style.mark)
    (hescape : ¬ (style = .double ∧ c = '\\')) (hs : s.Holds cs) :
    ∃ s' : ScalarState, s'.Holds (cs ++ [c]) ∧
      (quotedTurn style begin s).run l = .ok (.again s', l.pass [c] rest) := by
  rw [run_quotedTurn hend hcolumn hrest hc.not_isBreak]
  by_cases hblank : isBlank c = true
  · refine ⟨_, hs.addBlank c, ?_⟩
    rw [if_pos hblank]
    rfl
  · refine ⟨_, hs.push [c], ?_⟩
    rw [if_neg hblank, quotedChar, if_neg hmark, if_neg hescape]
    rfl

theorem run_quotedTurn_doubled (hend : l.ending = .endOfText) (hcolumn : l.mark.column ≠ 0)
    (hrest : l.rest = '\'' :: '\'' :: rest) :
    (quotedTurn .single begin s).run l =
      .ok (.again (s.push ['\'']), l.pass ['\'', '\''] rest) := by
  have hpeek : peek.run (l.pass ['\''] ('\'' :: rest)) =
      .ok (some '\'', l.pass ['\''] ('\'' :: rest)) :=
    run_peek hend
  have hskip : (skip 1).run (l.pass ['\''] ('\'' :: rest)) =
      .ok ((), (l.pass ['\''] ('\'' :: rest)).pass ['\''] rest) := rfl
  rw [run_quotedTurn hend hcolumn hrest (by decide), if_neg (by decide), quotedChar,
    if_pos (by decide), run_bind_of_eq hpeek, if_pos ⟨rfl, rfl⟩, run_bind_of_eq hskip,
    Lexer.pass_pass]
  rfl

theorem run_quotedTurn_escaped (hend : l.ending = .endOfText) (hcolumn : l.mark.column ≠ 0)
    {digits : List Char} (hlength : digits.length = 8)
    (hvalue : natural? 16 digits = some c.toNat)
    (hrest : l.rest = '\\' :: 'U' :: (digits ++ rest)) :
    (quotedTurn .double begin s).run l =
      .ok (.again ((s.push []).push [c]), l.pass ('\\' :: 'U' :: digits) rest) := by
  have hescape := run_escape (s := s.push []) (l := l.pass ['\\'] ('U' :: (digits ++ rest))) hend
    hlength hvalue rfl l.mark begin
  rw [run_quotedTurn hend hcolumn hrest (by decide), if_neg (by decide), quotedChar,
    if_neg (by decide), if_pos ⟨rfl, rfl⟩, run_bind_of_eq hescape, Lexer.pass_pass]
  rfl

/-- A character is read as it is written. -/
theorem run_quotedTurn_spelled (begin : Mark) (hend : l.ending = .endOfText)
    (hcolumn : l.mark.column ≠ 0)
    (h : SpellsChar style c w) (hs : s.Holds cs) (hrest : l.rest = w ++ rest) :
    ∃ s' : ScalarState, s'.Holds (cs ++ [c]) ∧
      (quotedTurn style begin s).run l = .ok (.again s', l.pass w rest) := by
  cases h with
  | single hc hquote =>
    exact run_quotedTurn_self hend hcolumn hrest hc hquote (fun h => nomatch h.1) hs
  | doubled => exact ⟨_, hs.push _, run_quotedTurn_doubled hend hcolumn hrest⟩
  | double hc hquote hslash =>
    exact run_quotedTurn_self hend hcolumn hrest hc hquote (fun h => hslash h.2) hs
  | escaped hlength hvalue =>
    refine ⟨_, ?_, run_quotedTurn_escaped hend hcolumn hlength hvalue hrest⟩
    simpa using (hs.push []).push [c]

theorem run_iterate_quotedStep (begin : Mark) (hend : l.ending = .endOfText)
    (hcolumn : l.mark.column ≠ 0)
    {text : List Char} (h : SpellsText style text w) (hs : s.Holds cs)
    (hrest : l.rest = w ++ rest) :
    ∃ s' : ScalarState, s'.Holds (cs ++ text) ∧
      (Reader.iterate (quotedStep style begin) s).run l =
        (Reader.iterate (quotedStep style begin) s').run (l.pass w rest) := by
  induction h generalizing l s cs with
  | nil =>
    refine ⟨s, (List.append_nil cs).symm ▸ hs, ?_⟩
    rw [show rest = l.rest from hrest.symm, Lexer.pass_nil]
  | @cons c text w ws hc _ ih =>
    rw [List.append_assoc] at hrest
    obtain ⟨s₁, hs₁, hturn⟩ := run_quotedTurn_spelled begin hend hcolumn hc hs hrest
    have hcolumn₁ : (l.pass w (ws ++ rest)).mark.column ≠ 0 := by
      simp only [Lexer.pass, Mark.column_forward]
      omega
    obtain ⟨s₂, hs₂, hrun⟩ := ih (l := l.pass w (ws ++ rest)) hend hcolumn₁ hs₁ rfl
    refine ⟨s₂, by simpa using hs₂, ?_⟩
    rw [Reader.run_iterate_again hturn, hrun, Lexer.pass_pass]

/-- A quoted scalar is read up to its closing mark, behind which no other one may stand. -/
theorem run_quoted (hend : l.ending = .endOfText) (hcolumn : l.mark.column ≠ 0)
    (h : SpellsText style cs w) (hrest : l.rest = w ++ style.mark :: rest)
    (hnext : rest.head? ≠ some '\'') :
    (quoted style begin).run l = .ok (cs, l.pass (w ++ [style.mark]) rest) := by
  have hstart : ScalarState.Holds ⟨[], .none⟩ [] := ⟨rfl, rfl⟩
  obtain ⟨s, hs, hrun⟩ := run_iterate_quotedStep begin hend hcolumn h hstart hrest
  have hbreak : isBreak style.mark = false := by cases style <;> rfl
  have hblank : ¬ isBlank style.mark = true := by cases style <;> decide
  have hcolumn' : (l.pass w (style.mark :: rest)).mark.column ≠ 0 := by
    simp only [Lexer.pass, Mark.column_forward]
    omega
  have hpeek : peek.run ((l.pass w (style.mark :: rest)).pass [style.mark] rest) =
      .ok (rest.head?, (l.pass w (style.mark :: rest)).pass [style.mark] rest) :=
    run_peek hend
  have hturn : (quotedTurn style begin s).run (l.pass w (style.mark :: rest)) =
      .ok (.done cs, l.pass (w ++ [style.mark]) rest) := by
    rw [run_quotedTurn (l := l.pass w (style.mark :: rest)) hend hcolumn' rfl hbreak, if_neg hblank,
      quotedChar, if_pos rfl, run_bind_of_eq hpeek, if_neg (fun h => hnext h.2), Lexer.pass_pass,
      hs.text_push_nil]
    rfl
  rw [quoted, hrun, Reader.run_iterate_done hturn]

end Scan

end DeletionGuard.Yaml
