import DeletionGuard.Proofs.Yaml.Quoted

/-!
# Texts that are made up of entries

A text of lines, each of which is blank, a comment, or an entry: a key, a colon and a value that is
a word or quoted. Between the entries nothing is read but the lines that hold none.
-/

namespace DeletionGuard.Yaml

/-! ### Lines -/

/-- A key and its value, and whether the value is a plain word. -/
structure Entry where
  key : List Char
  value : List Char
  plain : Bool

/-- A key of word characters, short enough to be one. -/
def IsKey (key : List Char) : Prop :=
  key ≠ [] ∧ (∀ c ∈ key, IsWordChar c) ∧ (Utf8.encode key).length ≤ maxKeyLength

/-- The ways to write a value on one line, plain or quoted. -/
inductive SpellsValue : List Char → Bool → List Char → Prop
  | word {cs : List Char} : cs ≠ [] → (∀ c ∈ cs, IsWordChar c) → SpellsValue cs true cs
  | quoted {style : QuoteStyle} {cs w : List Char} :
    SpellsText style cs w → SpellsValue cs false (style.mark :: (w ++ [style.mark]))

/-- Spaces on a line, and maybe a comment behind them. -/
inductive IsFiller : List Char → Prop
  | blank (n : Nat) : IsFiller (List.replicate n ' ')
  | comment (n : Nat) {text : List Char} :
    (∀ c ∈ text, IsPrintable c) → IsFiller (List.replicate n ' ' ++ '#' :: text)

/-- A text of lines, and the entries in it. -/
inductive SpellsLines : List Entry → List Char → Prop
  | nil : SpellsLines [] []
  | filler {es : List Entry} {w cs : List Char} :
    IsFiller w → SpellsLines es cs → SpellsLines es (w ++ '\n' :: cs)
  | entry {e : Entry} {es : List Entry} {w cs : List Char} :
    IsKey e.key → SpellsValue e.value e.plain w → SpellsLines es cs →
      SpellsLines (e :: es) (e.key ++ ':' :: ' ' :: (w ++ '\n' :: cs))

/-- The text begins with the first entry, or there is none and it is at its end. -/
inductive StartsWith : List Entry → List Char → Prop
  | nil : StartsWith [] []
  | entry {e : Entry} {es : List Entry} {w cs : List Char} :
    IsKey e.key → SpellsValue e.value e.plain w → SpellsLines es cs →
      StartsWith (e :: es) (e.key ++ ':' :: ' ' :: (w ++ '\n' :: cs))

theorem IsKey.exists_cons {key : List Char} (h : IsKey key) :
    ∃ c cs, key = c :: cs ∧ IsWordChar c ∧ ∀ d ∈ cs, IsWordChar d := by
  obtain ⟨hne, hword, -⟩ := h
  cases key with
  | nil => exact absurd rfl hne
  | cons c cs =>
    exact ⟨c, cs, rfl, hword c List.mem_cons_self, fun d hd => hword d (List.mem_cons_of_mem c hd)⟩

/-- What comes first is no white space and no mark of a comment. -/
theorem StartsWith.head {es : List Entry} {cs : List Char} (h : StartsWith es cs) :
    ∀ c ∈ cs.head?, IsWordChar c := by
  cases h with
  | nil => nofun
  | entry hkey =>
    obtain ⟨c, key, heq, hc, -⟩ := hkey.exists_cons
    rw [heq]
    rintro d ⟨⟩
    exact hc

namespace Scan

open Reader (run_bind_of_eq)

variable {l : Lexer} {es : List Entry} {cs w rest : List Char}

/-! ### Between entries -/

theorem run_blanks {n : Nat} (hend : l.ending = .endOfText)
    (hrest : l.rest = List.replicate n ' ' ++ rest)
    (hhead : ∀ c ∈ rest.head?, isBlank c = false ∧ c ≠ byteOrderMark) :
    blanks.run l = comment.run (l.pass (List.replicate n ' ') rest) := by
  have hmark : l.rest.head? ≠ some byteOrderMark := by
    rw [hrest]
    cases n with
    | zero => exact fun h => (hhead _ h).2 rfl
    | succ n => simp [List.replicate_succ, byteOrderMark]
  rw [blanks, run_bind_of_eq (a := l.mark) (r := l) rfl, run_bind_of_eq (run_peek hend),
    if_neg (fun h => hmark h.2)]
  refine run_bind_of_eq (a := l) (r := l) rfl _ |>.trans ?_
  refine run_bind_of_eq (run_takeWhile hend hrest ?_ ?_) _
  · intro c hc
    rw [List.eq_of_mem_replicate hc]
    rfl
  · intro c hc
    have hblank := (hhead c hc).1
    simp only [isBlank, Bool.or_eq_false_iff] at hblank
    simp [hblank]

theorem run_comment (hend : l.ending = .endOfText) {text : List Char}
    (htext : ∀ c ∈ text, IsPrintable c) (hrest : l.rest = '#' :: (text ++ '\n' :: cs)) :
    comment.run l = .ok ((), l.pass ('#' :: text) ('\n' :: cs)) := by
  have hpeek : peek.run l = .ok (some '#', l) := by rw [run_peek hend, hrest]; rfl
  have htake : (takeWhile (!isBreak ·)).run l =
      .ok ('#' :: text, l.pass ('#' :: text) ('\n' :: cs)) := by
    refine run_takeWhile hend (show l.rest = ('#' :: text) ++ '\n' :: cs from hrest)
      (fun c hc => ?_) (fun c hc => ?_)
    · rcases List.mem_cons.1 hc with rfl | hc
      · rfl
      · rw [(htext c hc).not_isBreak]
        rfl
    · obtain rfl := Option.some.inj hc
      rfl
  rw [comment, run_bind_of_eq hpeek, if_pos rfl, run_bind_of_eq htake]
  rfl

/-- Up to the end of a line that holds no entry. -/
theorem run_blanks_filler (hend : l.ending = .endOfText) (h : IsFiller w)
    (hrest : l.rest = w ++ '\n' :: cs) : blanks.run l = .ok ((), l.pass w ('\n' :: cs)) := by
  cases h with
  | blank n =>
    rw [run_blanks hend hrest (by simp; decide)]
    exact run_comment_of_ne hend (fun h => absurd (Option.some.inj h) (by decide))
  | @comment n text htext =>
    rw [List.append_assoc] at hrest
    rw [run_blanks hend hrest (by simp; decide)]
    refine (run_comment (l := l.pass _ _) hend htext rfl).trans ?_
    rw [Lexer.pass_pass]

/-- A line that holds no entry is passed, and behind it a key may begin. -/
theorem run_blankTurn_filler (hend : l.ending = .endOfText) (hflow : l.flowDepth = 0)
    (h : IsFiller w) (hrest : l.rest = w ++ '\n' :: cs) :
    (blankTurn ()).run l =
      .ok (.again (), { (l.pass w ('\n' :: cs)).nextLine cs with keyAllowed := true }) := by
  have hin : (!l.inFlow) = true := by simp [Lexer.inFlow, hflow]
  have hlineEnd : lineEnd.run (l.pass w ('\n' :: cs)) =
      .ok (['\n'], (l.pass w ('\n' :: cs)).nextLine cs) :=
    run_lineEnd rfl
  have hnewLine : newLine.run ((l.pass w ('\n' :: cs)).nextLine cs) =
      .ok ((), { (l.pass w ('\n' :: cs)).nextLine cs with keyAllowed := true }) := by
    rw [newLine, run_bind_of_eq (r := (l.pass w ('\n' :: cs)).nextLine cs) rfl]
    exact congrArg (Reader.run · _) (if_pos hin)
  rw [blankTurn, run_bind_of_eq (run_blanks_filler hend h hrest), run_bind_of_eq hlineEnd,
    if_neg (by decide), run_bind_of_eq hnewLine]
  rfl

/-- Spaces before something else on the line are passed. -/
theorem run_blankTurn_spaces {n : Nat} (hend : l.ending = .endOfText)
    (hrest : l.rest = List.replicate n ' ' ++ rest)
    (hhead : ∀ c ∈ rest.head?, isSpace c = false ∧ c ≠ '#' ∧ c ≠ byteOrderMark) :
    (blankTurn ()).run l = .ok (.done (), l.pass (List.replicate n ' ') rest) := by
  have hspace : ∀ c ∈ rest.head?, isBlank c = false ∧ isBreak c = false :=
    fun c hc => Bool.or_eq_false_iff.1 (hhead c hc).1
  have hblanks : blanks.run l = .ok ((), l.pass (List.replicate n ' ') rest) := by
    rw [run_blanks hend hrest fun c hc => ⟨(hspace c hc).1, (hhead c hc).2.2⟩]
    exact run_comment_of_ne hend fun hc => (hhead '#' hc).2.1 rfl
  have hlineEnd : lineEnd.run (l.pass (List.replicate n ' ') rest) =
      .ok ([], l.pass (List.replicate n ' ') rest) :=
    run_lineEnd_of_not_isBreak fun c hc => (hspace c hc).2
  rw [blankTurn, run_bind_of_eq hblanks, run_bind_of_eq hlineEnd]
  rfl

theorem run_blankTurn_here (hend : l.ending = .endOfText)
    (hhead : ∀ c ∈ l.rest.head?, isSpace c = false ∧ c ≠ '#' ∧ c ≠ byteOrderMark) :
    (blankTurn ()).run l = .ok (.done (), l) :=
  run_blankTurn_spaces (n := 0) hend rfl hhead

/-- Before an entry, and at the end of the text, there is nothing to pass. -/
theorem run_blankTurn_startsWith (hend : l.ending = .endOfText) (h : StartsWith es l.rest) :
    (blankTurn ()).run l = .ok (.done (), l) :=
  run_blankTurn_here hend fun c hc =>
    ⟨(h.head c hc).not_isSpace, (h.head c hc).ne (by decide +kernel),
      (h.head c hc).ne (by decide +kernel)⟩

/-- From the start of a line, where a key may begin, everything up to the next entry is passed. -/
theorem run_blankStep_lines (hend : l.ending = .endOfText) (hflow : l.flowDepth = 0)
    (hkey : l.keyAllowed = true) (hcolumn : l.mark.column = 0) (h : SpellsLines es l.rest) :
    ∃ rest m, StartsWith es rest ∧ m.column = 0 ∧
      (Reader.iterate blankStep ()).run l = .ok ((), { l with rest, mark := m }) := by
  generalize hcs : l.rest = cs at h
  induction h generalizing l with
  | nil =>
    have hstart : StartsWith [] l.rest := hcs ▸ .nil
    exact ⟨l.rest, l.mark, hstart, hcolumn,
      Reader.run_iterate_done (run_blankTurn_startsWith hend hstart)⟩
  | @filler es w cs hw _ ih =>
    have hturn := run_blankTurn_filler hend hflow hw hcs
    obtain ⟨rest, m, hstart, hm, hrun⟩ :=
      @ih { (l.pass w ('\n' :: cs)).nextLine cs with keyAllowed := true } hend hflow rfl rfl rfl
    refine ⟨rest, m, hstart, hm, (Reader.run_iterate_again hturn).trans (hrun.trans ?_)⟩
    rw [← hkey]
    rfl
  | entry hkeyOk hvalue hlines =>
    have hstart := StartsWith.entry hkeyOk hvalue hlines
    rw [← hcs] at hstart
    exact ⟨l.rest, l.mark, hstart, hcolumn,
      Reader.run_iterate_done (run_blankTurn_startsWith hend hstart)⟩

end Scan

end DeletionGuard.Yaml
