import DeletionGuard.Proofs.Yaml.Plain
import DeletionGuard.Yaml.Token.Stream

/-!
# The tokens of a text of entries

An entry is read in three steps: its key is kept back until the colon shows that it is one, the
colon hands it out, and the value is handed out at once. Before the first key a mapping is opened,
which the end of the text closes.
-/

namespace DeletionGuard.Yaml

namespace Lexer

theorem closeBlocks_of_le {l : Lexer} {column : Int} (h : l.indent ≤ column) :
    l.closeBlocks column = l := by
  rw [closeBlocks]
  split
  · rfl
  · have hnot : ¬ decide (column < l.indent) = true := by simpa using h
    have htake : (l.indent :: l.outerIndents).takeWhile (decide <| column < ·) = [] :=
      List.takeWhile_cons_of_neg hnot
    have hdrop : (l.indent :: l.outerIndents).dropWhile (decide <| column < ·) =
        l.indent :: l.outerIndents :=
      List.dropWhile_cons_of_neg hnot
    simp only [htake, hdrop, List.map_nil, List.append_nil]
    rfl

theorem insertBefore_taken (l : Lexer) (t : Token) :
    l.insertBefore l.taken t = { l with queue := t :: l.queue } := by
  rw [insertBefore, Nat.sub_self, List.insertIdx_zero]

theorem openBlock_taken (l : Lexer) (column : Nat) (kind : TokenKind) (place : Mark) :
    l.openBlock column l.taken kind place =
      if l.opensBlock column then
        { l with
          queue := ⟨kind, place, place⟩ :: l.queue
          indent := column
          outerIndents := l.indent :: l.outerIndents }
      else l := by
  rw [openBlock, insertBefore_taken]

end Lexer

namespace Scan

open Reader (run_bind_of_eq)

variable {l l₁ l₂ l₃ : Lexer} {c : Char} {cs : List Char}

/-! ### The steps of reading a token -/

theorem run_dropStaleKeys (h : ∀ k ∈ l.keyStarts, k.isStale l.mark = false) :
    dropStaleKeys.run l = .ok ((), l) := by
  have hfind : l.keyStarts.find? (fun k => k.isStale l.mark && k.required) = none := by
    rw [List.find?_eq_none]
    intro k hk
    simp [h k hk]
  have hfilter : l.keyStarts.filter (!·.isStale l.mark) = l.keyStarts := by
    rw [List.filter_eq_self]
    intro k hk
    simp [h k hk]
  rw [dropStaleKeys, run_bind_of_eq (a := l) (r := l) rfl, hfind, update, Reader.update]
  simp only [hfilter]

theorem run_lead (hend : l.ending = .endOfText) (hrest : l.rest = c :: cs)
    (h : l.mark.column ≠ 0 ∨ c ≠ '%' ∧ c ≠ '-' ∧ c ≠ '.') :
    lead.run l = .ok (Lead.ofChar l.inFlow (endOr isSpace cs.head?) c, l) := by
  have hpeek : peek.run l = .ok (some c, l) := by rw [run_peek hend, hrest]; rfl
  have hnext : (peekAt 1).run l = .ok (cs.head?, l) := by
    rw [run_peekAt hend, hrest, List.head?_eq_getElem?]
    rfl
  have hmark {d : Char} (hd : l.mark.column ≠ 0 ∨ c ≠ d) :
      (isDocumentMark d).run l = .ok (false, l) := by
    rcases hd with hcolumn | hne
    · exact run_isDocumentMark_of_column hcolumn d
    · exact run_isDocumentMark_of_ne hend (by simpa [hrest] using hne)
  have hdirective : ¬ (l.mark.column = 0 ∧ c = '%') := by
    rintro ⟨hcolumn, hpercent⟩
    exact h.elim (fun h => h hcolumn) fun h => h.1 hpercent
  rw [lead, run_bind_of_eq (run_peekAt hend 3), run_bind_of_eq hpeek]
  dsimp only
  rw [run_bind_of_eq (a := l.mark) (r := l) rfl, if_neg hdirective,
    run_bind_of_eq (hmark (h.imp_right fun h => h.2.1))]
  simp only [Bool.false_eq_true, if_false]
  rw [run_bind_of_eq (hmark (h.imp_right fun h => h.2.2))]
  simp only [Bool.false_eq_true, if_false]
  rw [run_bind_of_eq (a := l) (r := l) rfl, run_bind_of_eq hnext]
  rfl

theorem run_closeBlocks {column : Int} (h : l.indent ≤ column) :
    (closeBlocks column).run l = .ok ((), l) := by
  rw [closeBlocks, update, Reader.update]
  simp only [Lexer.closeBlocks_of_le h]

theorem run_fetch {lead' : Lead} {kind : TokenKind} {stop : Mark}
    (hblank : (Reader.iterate blankStep ()).run l = .ok ((), l₁))
    (hstale : ∀ k ∈ l₁.keyStarts, k.isStale l₁.mark = false)
    (hindent : l₁.indent ≤ l₁.mark.column) (hlead : lead.run l₁ = .ok (lead', l₁))
    (hprepare : (prepare lead').run l₁ = .ok ((), l₂)) (hrest : l₂.rest = c :: cs)
    (htoken : (tokenRest c l₂.mark lead').run (l₂.pass [c] cs) = .ok ((kind, stop), l₃)) :
    fetch.run l = .ok (true, l₃.enqueue ⟨kind, l₂.mark, stop⟩) := by
  rw [fetch, run_bind_of_eq hblank, run_bind_of_eq (run_dropStaleKeys hstale),
    run_bind_of_eq (a := l₁.mark) (r := l₁) rfl, run_bind_of_eq (run_closeBlocks hindent),
    run_bind_of_eq hlead,
    run_bind_of_eq hprepare, run_bind_of_eq (a := l₂.mark) (r := l₂) rfl,
    run_bind_of_eq (run_next? hrest)]
  dsimp only
  rw [run_bind_of_eq htoken]
  rfl

theorem run_handOut_all (h : l.keyStarts = []) :
    handOut.run l =
      .ok (l.queue, { l with queue := [], taken := l.taken + l.queue.length }) := by
  have hready : l.queue.take (l.keyStarts.foldl (fun n k => min n (k.number - l.taken))
      l.queue.length) = l.queue := by
    rw [h, List.foldl_nil, List.take_length]
  rw [handOut, run_bind_of_eq (run_dropStaleKeys (by rw [h]; nofun)),
    run_bind_of_eq (a := l) (r := l) rfl]
  simp only [hready, update, Reader.update, Reader.run_bind, List.drop_length]
  rfl

theorem run_handOut_none {k : KeyStart} (h : l.keyStarts = [k]) (hstale : k.isStale l.mark = false)
    (hnumber : k.number = l.taken) : handOut.run l = .ok ([], l) := by
  have hall : ∀ k' ∈ l.keyStarts, k'.isStale l.mark = false := by
    rw [h]
    exact List.forall_mem_singleton.2 hstale
  have hready : l.queue.take (l.keyStarts.foldl (fun n k => min n (k.number - l.taken))
      l.queue.length) = [] := by
    rw [h, List.foldl_cons, List.foldl_nil, hnumber, Nat.sub_self, Nat.min_zero, List.take_zero]
  rw [handOut, run_bind_of_eq (run_dropStaleKeys hall), run_bind_of_eq (a := l) (r := l) rfl]
  simp only [hready, update, Reader.update, Reader.run_bind, List.length_nil, List.drop_zero]
  rfl

end Scan

/-! ### Entries -/

namespace Lexer

/-- The lexer at the start of a line; a block is open there once an entry has been read. -/
def atLine (opened : Bool) (rest : List Char) (mark : Mark) (taken : Nat) : Lexer where
  rest := rest
  ending := .endOfText
  mark := mark
  queue := []
  taken := taken
  indent := if opened then 0 else -1
  outerIndents := if opened then [-1] else []
  keyAllowed := true
  flowDepth := 0
  keyStarts := []

/-- The lexer on a line where a key begins at `start`. -/
def inKey (opened : Bool) (rest : List Char) (mark start : Mark) (taken : Nat) : Lexer :=
  { atLine opened rest mark taken with
    keyAllowed := false
    keyStarts := [⟨opened, 0, taken, start⟩] }

/-- The lexer behind a key that is kept back. -/
def behindKey (opened : Bool) (key rest : List Char) (start : Mark) (taken : Nat) : Lexer :=
  (inKey opened (':' :: ' ' :: rest) (start.forward key) start taken).enqueue
    ⟨.scalar (String.ofList key) true, start, start.forward key⟩

/-- The lexer on a line of a block, where no key may begin. -/
def onLine (rest : List Char) (mark : Mark) (taken : Nat) : Lexer :=
  { atLine true rest mark taken with keyAllowed := false }

end Lexer

theorem index_forward (m : Mark) (cs : List Char) :
    (m.forward cs).index = m.index + (Utf8.encode cs).length := by
  induction cs generalizing m with
  | nil => rfl
  | cons c cs ih =>
    have hstep : m.forward (c :: cs) = (m.forward [c]).forward cs := by
      rw [Mark.forward_append]
      rfl
    have hindex : (m.forward [c]).index = m.index + c.utf8Size := rfl
    rw [hstep, ih, hindex, Utf8.encode_cons, List.length_append, Utf8.length_encodeChar,
      Nat.add_assoc]

theorem isStale_forward {key : List Char} (h : (Utf8.encode key).length ≤ maxKeyLength)
    (opened : Bool) (n : Nat) (start : Mark) :
    KeyStart.isStale ⟨opened, 0, n, start⟩ (start.forward key) = false := by
  rw [KeyStart.isStale, index_forward]
  rw [Mark.line_forward]
  simpa using h

namespace Scan

open Reader (run_bind_of_eq)

variable {l : Lexer} {opened : Bool} {key rest : List Char} {m : Mark} {taken : Nat}

theorem run_prepare_key (hcolumn : m.column = 0) :
    (prepare .plain).run (.atLine opened rest m taken) =
      .ok ((), .inKey opened rest m m taken) := by
  have hrequired : (!(Lexer.atLine opened rest m taken).inFlow &&
      (Lexer.atLine opened rest m taken).indent == (m.column : Int)) = opened := by
    rw [hcolumn]
    cases opened <;> rfl
  have hkept : (prepare .plain).run (.atLine opened rest m taken) =
      .ok ((), { Lexer.inKey opened rest m m taken with
        keyStarts := [⟨!(Lexer.atLine opened rest m taken).inFlow &&
          (Lexer.atLine opened rest m taken).indent == (m.column : Int), 0, taken, m⟩] }) := rfl
  rw [hkept, hrequired]
  rfl

theorem run_fetch_key (hne : key ≠ []) (hword : ∀ c ∈ key, IsWordChar c) (hcolumn : m.column = 0)
    (hblank : (Reader.iterate blankStep ()).run l =
      .ok ((), .atLine opened (key ++ ':' :: ' ' :: rest) m taken)) :
    fetch.run l = .ok (true, .behindKey opened key rest m taken) := by
  obtain ⟨c, cs, rfl⟩ := List.exists_cons_of_ne_nil hne
  obtain ⟨hc, hcs⟩ := List.forall_mem_cons.1 hword
  have hlead : lead.run (.atLine opened (c :: cs ++ ':' :: ' ' :: rest) m taken) =
      .ok (.plain, .atLine opened (c :: cs ++ ':' :: ' ' :: rest) m taken) := by
    rw [run_lead (c := c) rfl rfl (.inr ⟨hc.ne (by decide +kernel), hc.ne (by decide +kernel),
      hc.ne (by decide +kernel)⟩)]
    exact congrArg (fun lead => Except.ok (lead, _)) (hc.lead _)
  have hindent : (Lexer.atLine opened (c :: cs ++ ':' :: ' ' :: rest) m taken).indent ≤
      (m.column : Int) := by
    cases opened <;> simp [Lexer.atLine]
  have htoken : (tokenRest c m .plain).run
      ((Lexer.inKey opened (c :: cs ++ ':' :: ' ' :: rest) m m taken).pass [c]
        (cs ++ ':' :: ' ' :: rest)) =
      .ok ((.scalar (String.ofList (c :: cs)) true, m.forward (c :: cs)),
        .inKey opened (':' :: ' ' :: rest) (m.forward (c :: cs)) m taken) := by
    rw [tokenRest, run_bind_of_eq (run_plain_key rfl rfl hcs c)]
    rfl
  exact run_fetch hblank nofun hindent hlead (run_prepare_key hcolumn) rfl htoken

/-- A key is kept back. -/
theorem run_fetchReady_key (hkey : IsKey key) (hcolumn : m.column = 0)
    (hblank : (Reader.iterate blankStep ()).run l =
      .ok ((), .atLine opened (key ++ ':' :: ' ' :: rest) m taken)) :
    fetchReady.run l = .ok ((true, []), .behindKey opened key rest m taken) := by
  have hstale := isStale_forward hkey.2.2 opened taken m
  have hhandOut : handOut.run (.behindKey opened key rest m taken) =
      .ok ([], .behindKey opened key rest m taken) :=
    run_handOut_none rfl hstale rfl
  rw [fetchReady, run_bind_of_eq (run_fetch_key hkey.1 hkey.2.1 hcolumn hblank)]
  exact run_bind_of_eq hhandOut _

/-- The tokens that a colon hands out with its key, which begins at `start`. -/
def keyTokens (opened : Bool) (key : List Char) (start colon : Mark) : List Token :=
  (if opened then [] else [⟨.blockMappingStart, start, start⟩]) ++
    [⟨.key, start, start⟩, ⟨.scalar (String.ofList key) true, start, colon⟩,
      ⟨.value, colon, colon.forward [':']⟩]

theorem run_prepare_colon (hcolumn : m.column = 0) :
    (prepare .value).run (.behindKey opened key rest m taken) =
      .ok ((), { Lexer.onLine (':' :: ' ' :: rest) (m.forward key) taken with
        queue := (keyTokens opened key m (m.forward key)).dropLast }) := by
  let l := Lexer.behindKey opened key rest m taken
  let k : KeyStart := ⟨opened, 0, taken, m⟩
  let keyed : Lexer := { l with queue := ⟨.key, m, m⟩ :: l.queue }
  have hopened : (l.insertBefore k.number ⟨.key, m, m⟩).openBlock m.column k.number
      .blockMappingStart m =
      { keyed with
        queue := (if opened then [] else [⟨.blockMappingStart, m, m⟩]) ++ keyed.queue
        indent := 0
        outerIndents := [-1] } := by
    have hinsert : l.insertBefore k.number ⟨.key, m, m⟩ = keyed := l.insertBefore_taken _
    rw [hinsert, hcolumn]
    refine (keyed.openBlock_taken 0 .blockMappingStart m).trans ?_
    cases opened <;> rfl
  have hmake : (makeKey k).run l = .ok ((), {
      (l.insertBefore k.number ⟨.key, m, m⟩).openBlock m.column k.number .blockMappingStart m with
      keyStarts := [] }) := rfl
  have hstart : l.keyStart? = some k := rfl
  rw [hopened] at hmake
  change (prepare .value).run l = _
  rw [prepare, run_bind_of_eq (a := l) rfl, hstart]
  refine (run_bind_of_eq hmake _).trans ?_
  cases opened <;> rfl

/-- A colon shows that a key is one. -/
theorem run_fetchReady_colon (hkey : IsKey key) (hcolumn : m.column = 0) (opened : Bool)
    (rest : List Char) (taken : Nat) :
    ∃ taken', fetchReady.run (.behindKey opened key rest m taken) =
      .ok ((true, keyTokens opened key m (m.forward key)),
        .onLine (' ' :: rest) ((m.forward key).forward [':']) taken') := by
  have hstale := isStale_forward hkey.2.2 opened taken m
  have hblank : (Reader.iterate blankStep ()).run (.behindKey opened key rest m taken) =
      .ok ((), .behindKey opened key rest m taken) :=
    Reader.run_iterate_done (run_blankTurn_here rfl
      (fun c hc => Option.some.inj hc ▸ ⟨rfl, by decide, by decide⟩))
  have hindent : (Lexer.behindKey opened key rest m taken).indent ≤
      ((m.forward key).column : Int) := by
    cases opened <;> simp [Lexer.behindKey, Lexer.inKey, Lexer.enqueue, Lexer.atLine] <;> omega
  have hlead : lead.run (.behindKey opened key rest m taken) =
      .ok (.value, .behindKey opened key rest m taken) :=
    @run_lead (.behindKey opened key rest m taken) ':' (' ' :: rest) rfl rfl (.inr (by decide))
  have hfetch := run_fetch hblank (List.forall_mem_singleton.2 hstale) hindent hlead
    (run_prepare_colon hcolumn) rfl rfl
  refine ⟨taken + (keyTokens opened key m (m.forward key)).length, ?_⟩
  rw [fetchReady, run_bind_of_eq hfetch]
  refine (run_bind_of_eq (run_handOut_all rfl) _).trans ?_
  cases opened <;> rfl

end Scan

/-- What comes next are lines with these entries, and what has been passed before them does not
matter. -/
def Lexer.Leads (l : Lexer) (opened : Bool) (es : List Entry) : Prop :=
  ∃ rest m taken, StartsWith es rest ∧ m.column = 0 ∧
    (Reader.iterate blankStep ()).run l = .ok ((), .atLine opened rest m taken)

namespace Scan

open Reader (run_bind_of_eq)

variable {l : Lexer} {opened plain : Bool} {es : List Entry} {value w rest cs : List Char}
  {m : Mark} {taken : Nat}

theorem leads_atLine (hcolumn : m.column = 0) (h : SpellsLines es rest) (opened : Bool)
    (taken : Nat) :
    (Lexer.atLine opened rest m taken).Leads opened es := by
  obtain ⟨rest', m', hstart, hm, hrun⟩ :=
    run_blankStep_lines (l := .atLine opened rest m taken) rfl rfl rfl hcolumn h
  exact ⟨rest', m', taken, hstart, hm, hrun⟩

theorem leads_filler {b : Bool} (hw : IsFiller w) (h : SpellsLines es cs) :
    Lexer.Leads { Lexer.atLine opened (w ++ '\n' :: cs) m taken with keyAllowed := b }
      opened es := by
  have hturn := run_blankTurn_filler
    (l := { Lexer.atLine opened (w ++ '\n' :: cs) m taken with keyAllowed := b }) rfl rfl hw rfl
  obtain ⟨rest, m', taken', hstart, hm, hrun⟩ :=
    leads_atLine (m := (m.forward w).nextLine 1) rfl h opened taken
  exact ⟨rest, m', taken', hstart, hm, (Reader.run_iterate_again hturn).trans hrun⟩

theorem leads_between (h : IsBetween es m.column rest) :
    (Lexer.atLine opened rest m taken).Leads opened es := by
  generalize hcolumn : m.column = column at h
  cases h with
  | start hstart =>
    exact ⟨rest, m, taken, hstart, hcolumn,
      Reader.run_iterate_done (run_blankTurn_startsWith rfl hstart)⟩
  | filler hw hlines => exact leads_filler hw hlines

/-! ### Values -/

/-- What stands behind the colon of an entry is found behind the space. -/
theorem run_blankStep_value {c : Char} (hc : isSpace c = false ∧ c ≠ '#' ∧ c ≠ byteOrderMark)
    (cs : List Char) (m : Mark) (taken : Nat) :
    (Reader.iterate blankStep ()).run (.onLine (' ' :: c :: cs) m taken) =
      .ok ((), .onLine (c :: cs) (m.forward [' ']) taken) :=
  Reader.run_iterate_done (run_blankTurn_spaces (n := 1) rfl rfl
    fun _ hd => Option.some.inj hd ▸ hc)

theorem run_handOut_one (t : Token) (hqueue : l.queue = []) (hstarts : l.keyStarts = []) :
    handOut.run (l.enqueue t) = .ok ([t], { l with queue := [], taken := l.taken + 1 }) := by
  have hqueued : (l.enqueue t).queue = [t] := by rw [Lexer.enqueue, hqueue, List.nil_append]
  rw [run_handOut_all (l := l.enqueue t) hstarts, hqueued]
  rfl

theorem run_fetchReady_quoted {style : QuoteStyle} (hvalue : SpellsText style value w)
    (hlines : SpellsLines es cs) :
    ∃ t l', t.kind = .scalar (String.ofList value) false ∧ l'.Leads true es ∧
      fetchReady.run (.onLine (' ' :: style.mark :: (w ++ style.mark :: '\n' :: cs)) m taken) =
        .ok ((true, [t]), l') := by
  have hmark : isSpace style.mark = false ∧ style.mark ≠ '#' ∧ style.mark ≠ byteOrderMark := by
    cases style <;> decide
  let start := m.forward [' ']
  let rest := w ++ style.mark :: '\n' :: cs
  let stop := (start.forward [style.mark]).forward (w ++ [style.mark])
  have hblank := run_blankStep_value hmark rest m taken
  have hindent : (Lexer.onLine (style.mark :: rest) start taken).indent ≤ (start.column : Int) :=
    Int.natCast_nonneg _
  have hlead : lead.run (.onLine (style.mark :: rest) start taken) =
      .ok (.quoted style, .onLine (style.mark :: rest) start taken) := by
    have hstart : start.column ≠ 0 := Nat.succ_ne_zero _
    rw [run_lead (c := style.mark) rfl rfl (.inl hstart)]
    cases style <;> rfl
  have hquoted : (quoted style start).run (.onLine rest (start.forward [style.mark]) taken) =
      .ok (value, .onLine ('\n' :: cs) stop taken) :=
    run_quoted rfl (Nat.succ_ne_zero _) hvalue rfl
      (fun h => absurd (Option.some.inj h) (by decide))
  have htoken : (tokenRest style.mark start (.quoted style)).run
      ((Lexer.onLine (style.mark :: rest) start taken).pass [style.mark] rest) =
      .ok ((.scalar (String.ofList value) false, stop), .onLine ('\n' :: cs) stop taken) :=
    run_bind_of_eq hquoted _
  have hfetch := run_fetch hblank nofun hindent hlead rfl rfl htoken
  refine ⟨⟨.scalar (String.ofList value) false, start, stop⟩, .onLine ('\n' :: cs) stop (taken + 1),
    rfl, leads_filler (w := []) (.blank 0) hlines, ?_⟩
  rw [fetchReady, run_bind_of_eq hfetch]
  exact run_bind_of_eq (run_handOut_one _ rfl rfl) _

theorem run_fetchReady_word (hne : value ≠ []) (hword : ∀ c ∈ value, IsWordChar c)
    (hlines : SpellsLines es cs) :
    ∃ t l', t.kind = .scalar (String.ofList value) true ∧ l'.Leads true es ∧
      fetchReady.run (.onLine (' ' :: (value ++ '\n' :: cs)) m taken) = .ok ((true, [t]), l') := by
  obtain ⟨c, value, rfl⟩ := List.exists_cons_of_ne_nil hne
  obtain ⟨hc, hword⟩ := List.forall_mem_cons.1 hword
  let start := m.forward [' ']
  let rest := value ++ '\n' :: cs
  have hblank := run_blankStep_value
    ⟨hc.not_isSpace, hc.ne (by decide +kernel), hc.ne (by decide +kernel)⟩ rest m taken
  have hindent : (Lexer.onLine (c :: rest) start taken).indent ≤ (start.column : Int) :=
    Int.natCast_nonneg _
  have hlead : lead.run (.onLine (c :: rest) start taken) =
      .ok (.plain, .onLine (c :: rest) start taken) := by
    have hstart : start.column ≠ 0 := Nat.succ_ne_zero _
    rw [run_lead (c := c) rfl rfl (.inl hstart)]
    exact congrArg (fun lead => Except.ok (lead, _)) (hc.lead _)
  obtain ⟨stop, rest', m', hbetween, hplain⟩ :=
    run_plain_value (l := .onLine rest (start.forward [c]) taken) rfl rfl rfl hword rfl hlines c
      start
  have htoken : (tokenRest c start .plain).run
      ((Lexer.onLine (c :: rest) start taken).pass [c] rest) =
      .ok ((.scalar (String.ofList (c :: value)) true, stop), .atLine true rest' m' taken) :=
    run_bind_of_eq hplain _
  have hfetch := run_fetch hblank nofun hindent hlead rfl rfl htoken
  refine ⟨⟨.scalar (String.ofList (c :: value)) true, start, stop⟩,
    .atLine true rest' m' (taken + 1), rfl, leads_between hbetween, ?_⟩
  rw [fetchReady, List.cons_append, run_bind_of_eq hfetch]
  exact run_bind_of_eq (run_handOut_one _ rfl rfl) _

/-- A value is handed out at once. -/
theorem run_fetchReady_value (hvalue : SpellsValue value plain w) (hlines : SpellsLines es cs) :
    ∃ t l', t.kind = .scalar (String.ofList value) plain ∧ l'.Leads true es ∧
      fetchReady.run (.onLine (' ' :: (w ++ '\n' :: cs)) m taken) = .ok ((true, [t]), l') := by
  cases hvalue with
  | word hne hword => exact run_fetchReady_word hne hword hlines
  | quoted htext =>
    rw [List.cons_append, List.append_assoc]
    exact run_fetchReady_quoted htext hlines

/-- At the end of the text its block is closed, if one is open. -/
theorem run_fetchReady_end (h : l.Leads opened []) :
    ∃ ts l', ts.map Token.kind = (if opened then [.blockEnd] else []) ++ [.streamEnd] ∧
      fetchReady.run l = .ok ((false, ts), l') := by
  obtain ⟨rest, m, taken, hstart, hcolumn, hblank⟩ := h
  cases hstart
  let start := Lexer.atLine opened [] m taken
  let ts : List Token := (if opened then [⟨.blockEnd, m, m⟩] else []) ++ [⟨.streamEnd, m, m⟩]
  let stop : Lexer := { Lexer.atLine false [] m taken with queue := ts, keyAllowed := false }
  have hstale : dropStaleKeys.run start = .ok ((), start) := run_dropStaleKeys nofun
  have hindent : start.indent ≤ (m.column : Int) := by
    cases opened <;> simp [start, Lexer.atLine]
  have hlead : lead.run start = .ok (.endOfText, start) := by
    rw [lead, run_bind_of_eq (run_peekAt rfl 3), run_bind_of_eq (run_peek rfl)]
    rfl
  have hend : endOfStream.run start = .ok ((), stop) := by
    have hmark : (update (fun l => if l.mark.column = 0 then l
        else { l with mark := l.mark.nextLine 0 }) fun l => by split <;> rfl).run start =
        .ok ((), start) :=
      congrArg (fun l => Except.ok ((), l)) (if_pos hcolumn)
    rw [endOfStream, run_bind_of_eq hmark]
    cases opened <;> rfl
  have hfetch : fetch.run l = .ok (false, stop) := by
    rw [fetch, run_bind_of_eq hblank, run_bind_of_eq hstale,
      run_bind_of_eq (a := m) (r := start) rfl, run_bind_of_eq (run_closeBlocks hindent),
      run_bind_of_eq hlead,
      run_bind_of_eq (a := ()) (r := start) rfl, run_bind_of_eq (a := m) (r := start) rfl,
      run_bind_of_eq (run_next?_nil rfl)]
    exact run_bind_of_eq hend _
  refine ⟨ts, { stop with queue := [], taken := taken + ts.length }, by cases opened <;> rfl, ?_⟩
  rw [fetchReady, run_bind_of_eq hfetch]
  exact run_bind_of_eq (run_handOut_all rfl) _

end Scan

end DeletionGuard.Yaml
