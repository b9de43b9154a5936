import DeletionGuard.Proofs.Yaml.Mapping

/-!
# Texts that are refused

Two limits of a text of entries: a key of more bytes than one may have is given up before its colon,
which then cannot stand where it does, and a tab before anything else on a line begins no token. In
both cases the tokens end in a fault, and so does the document.
-/

namespace DeletionGuard.Yaml

variable {l l₁ : Lexer} {opened : Bool} {key rest : List Char} {m : Mark} {taken : Nat}
  {fault : Fault} {t : Token}

namespace Scan

open Reader (run_bind_of_eq run_bind_of_error)

/-- A token that may not stand where it does. -/
theorem run_fetchReady_of_prepare {lead' : Lead}
    (hblank : (Reader.iterate blankStep ()).run l = .ok ((), l₁)) (hstarts : l₁.keyStarts = [])
    (hindent : l₁.indent ≤ l₁.mark.column) (hlead : lead.run l₁ = .ok (lead', l₁))
    (hprepare : (prepare lead').run l₁ = .error fault) : fetchReady.run l = .error fault := by
  have hstale : dropStaleKeys.run l₁ = .ok ((), l₁) := run_dropStaleKeys (by rw [hstarts]; exact List.forall_mem_nil _)
  have hfetch : fetch.run l = .error fault := by
    rw [fetch, run_bind_of_eq hblank, run_bind_of_eq hstale,
      run_bind_of_eq (a := l₁.mark) (r := l₁) rfl, run_bind_of_eq (run_closeBlocks hindent),
      run_bind_of_eq hlead]
    exact run_bind_of_error hprepare _
  rw [fetchReady]
  exact run_bind_of_error hfetch _

/-! ### Long keys -/

/-- The place of a key that has become too long is given up if no key must stand there. -/
theorem run_handOut_stale {k : KeyStart} (hstarts : l.keyStarts = [k])
    (hstale : k.isStale l.mark = true) (hrequired : k.required = false) :
    handOut.run l = .ok (l.queue,
      { l with keyStarts := [], queue := [], taken := l.taken + l.queue.length }) := by
  have hdrop : dropStaleKeys.run l = .ok ((), { l with keyStarts := [] }) := by
    rw [dropStaleKeys, run_bind_of_eq (a := l) (r := l) rfl, hstarts, update, Reader.update]
    simp [hstarts, hstale, hrequired]
  have hagain : dropStaleKeys.run { l with keyStarts := [] } =
      .ok ((), { l with keyStarts := [] }) :=
    run_dropStaleKeys (List.forall_mem_nil _)
  have hall := run_handOut_all (l := { l with keyStarts := [] }) rfl
  rw [handOut, run_bind_of_eq hagain] at hall
  rw [handOut, run_bind_of_eq hdrop]
  exact hall

theorem run_fetchReady_longKey (hne : key ≠ []) (hword : ∀ c ∈ key, IsWordChar c)
    (hlong : maxKeyLength < (Utf8.encode key).length) (hcolumn : m.column = 0) (rest : List Char)
    (taken : Nat) :
    ∃ t, t.kind = .scalar (String.ofList key) true ∧
      fetchReady.run (.atLine false (key ++ ':' :: ' ' :: rest) m taken) =
        .ok ((true, [t]), { Lexer.atLine false (':' :: ' ' :: rest) (m.forward key) (taken + 1) with
          keyAllowed := false }) := by
  have hstale : KeyStart.isStale ⟨false, 0, taken, m⟩ (m.forward key) = true := by
    rw [KeyStart.isStale, index_forward]
    simp only [Bool.or_eq_true, decide_eq_true_eq]
    exact .inr (Nat.add_lt_add_left hlong _)
  have hblank : (Reader.iterate blankStep ()).run
      (.atLine false (key ++ ':' :: ' ' :: rest) m taken) =
      .ok ((), .atLine false (key ++ ':' :: ' ' :: rest) m taken) := by
    refine Reader.run_iterate_done (run_blankTurn_here rfl fun c hc => ?_)
    have hc : IsWordChar c := by
      obtain ⟨c, cs, rfl⟩ := List.exists_cons_of_ne_nil hne
      exact Option.some.inj hc ▸ hword c List.mem_cons_self
    exact ⟨hc.not_isSpace, hc.ne (by decide +kernel), hc.ne (by decide +kernel)⟩
  have hfetch := run_fetch_key hne hword hcolumn hblank
  refine ⟨⟨.scalar (String.ofList key) true, m, m.forward key⟩, rfl, ?_⟩
  rw [fetchReady, run_bind_of_eq hfetch]
  exact run_bind_of_eq (run_handOut_stale rfl hstale rfl) _

/-- Without a key before it, a colon may not stand behind a word. -/
theorem run_fetchReady_strayColon (rest : List Char) (m : Mark) (taken : Nat) :
    ∃ fault, fetchReady.run { Lexer.atLine false (':' :: ' ' :: rest) m taken with
      keyAllowed := false } = .error fault := by
  let l : Lexer := { Lexer.atLine false (':' :: ' ' :: rest) m taken with keyAllowed := false }
  have hblank : (Reader.iterate blankStep ()).run l = .ok ((), l) :=
    Reader.run_iterate_done (run_blankTurn_here rfl
      (fun c hc => Option.some.inj hc ▸ ⟨rfl, by decide, by decide⟩))
  have hindent : l.indent ≤ (m.column : Int) := by
    change (-1 : Int) ≤ m.column
    omega
  have hlead : lead.run l = .ok (.value, l) :=
    @run_lead l ':' (' ' :: rest) rfl rfl (.inr (by decide))
  exact ⟨_, run_fetchReady_of_prepare hblank rfl hindent hlead rfl⟩

/-! ### Tabs -/

/-- Where a key may begin, a tab is no blank. -/
theorem run_fetchReady_tab (rest : List Char) (m : Mark) (taken : Nat) :
    ∃ fault, fetchReady.run (.atLine false ('\t' :: rest) m taken) = .error fault := by
  let l := Lexer.atLine false ('\t' :: rest) m taken
  have htaken : (takeWhile fun c =>
      c == ' ' || ((l.inFlow || !l.keyAllowed) && c == '\t')).run l = .ok ([], l) :=
    run_takeWhile rfl (show l.rest = [] ++ '\t' :: rest from rfl) nofun
      fun c hc => Option.some.inj hc ▸ rfl
  have hcomment : comment.run l = .ok ((), l) :=
    run_comment_of_ne rfl fun h => absurd (Option.some.inj h) (by decide)
  have hmark : ¬ some '\t' = some byteOrderMark := fun h => absurd (Option.some.inj h) (by decide)
  have hblanks : blanks.run l = .ok ((), l) := by
    rw [blanks, run_bind_of_eq (a := m) (r := l) rfl, run_bind_of_eq (run_peek rfl),
      if_neg fun h => hmark h.2]
    refine (run_bind_of_eq (a := l) (r := l) rfl _).trans ?_
    rw [run_bind_of_eq htaken]
    exact hcomment
  have hlineEnd : lineEnd.run l = .ok ([], l) :=
    run_lineEnd_of_not_isBreak fun c hc => Option.some.inj hc ▸ rfl
  have hblank : (Reader.iterate blankStep ()).run l = .ok ((), l) := by
    refine Reader.run_iterate_done ((run_bind_of_eq hblanks _).trans ?_)
    rw [run_bind_of_eq hlineEnd]
    rfl
  have hindent : l.indent ≤ (m.column : Int) := by
    change (-1 : Int) ≤ m.column
    omega
  have hlead : lead.run l = .ok (.unknown, l) :=
    @run_lead l '\t' rest rfl rfl (.inr (by decide))
  exact ⟨_, run_fetchReady_of_prepare hblank rfl hindent hlead rfl⟩

end Scan

/-! ### Documents without an end -/

theorem tokensFrom_of_error (h : Scan.fetchReady.run l = .error fault) :
    tokensFrom l = ⟨[], some fault⟩ := by
  rw [tokensFrom]
  split <;> simp_all

/-- A document that is not complete when the tokens end has their fault, if not one before it. -/
theorem isSome_fault_ofRun {run : Run} (hending : run.ending = .error none) :
    (Document.ofRun run (some fault)).fault.isSome := by
  simp [Document.ofRun, hending]

theorem isSome_fault_longKey (hne : key ≠ []) (hword : ∀ c ∈ key, IsWordChar c)
    (hlong : maxKeyLength < (Utf8.encode key).length) (hrest : ∀ c ∈ rest, isAllowed c = true) :
    (Document.ofText (String.ofList (key ++ ':' :: ' ' :: rest))).fault.isSome := by
  have hallowed : ∀ c ∈ key ++ ':' :: ' ' :: rest, isAllowed c = true :=
    List.forall_mem_append.2 ⟨fun c hc => (hword c hc).isAllowed,
      List.forall_mem_cons.2 ⟨rfl, List.forall_mem_cons.2 ⟨rfl, hrest⟩⟩⟩
  obtain ⟨t, ht, hread⟩ := Scan.run_fetchReady_longKey (m := .start) hne hword hlong rfl rest 0
  obtain ⟨fault, hcolon⟩ := Scan.run_fetchReady_strayColon rest (Mark.start.forward key) 1
  have htokens : tokens (String.ofList (key ++ ':' :: ' ' :: rest)) = ⟨[t], some fault⟩ := by
    rw [tokens, ofText_of_isAllowed hallowed, tokensFrom_of_more hread, tokensFrom_of_error hcolon]
    rfl
  obtain ⟨_, start, stop⟩ := t
  subst ht
  have hrun : (Run.ofTokens [⟨.scalar (String.ofList key) true, start, stop⟩]).ending =
      .error none := by
    have hreach : Run.ofTokens [⟨.scalar (String.ofList key) true, start, stop⟩] =
        Run.reach defaultHandles [.node true false, .documentEnd]
          [⟨.scalar (String.ofList key) true, start, stop⟩] := rfl
    rw [hreach, Run.reach_scalar rfl, Run.reach]
    rfl
  rw [Document.ofText, htokens]
  exact isSome_fault_ofRun hrun

theorem isSome_fault_tab (hrest : ∀ c ∈ rest, isAllowed c = true) :
    (Document.ofText (String.ofList ('\t' :: rest))).fault.isSome := by
  have hallowed : ∀ c ∈ '\t' :: rest, isAllowed c = true := List.forall_mem_cons.2 ⟨rfl, hrest⟩
  obtain ⟨fault, htab⟩ := Scan.run_fetchReady_tab rest .start 0
  rw [Document.ofText, tokens, ofText_of_isAllowed hallowed, tokensFrom_of_error htab]
  exact isSome_fault_ofRun rfl

end DeletionGuard.Yaml
