import DeletionGuard.Json.Shape
import DeletionGuard.Proofs.Json.Record
import DeletionGuard.Proofs.Json.Skip

/-!
# Values of known shapes

A value is read as its syntax tree says: before the text of a tree the reader gives what the tree
stands for and leaves what follows, and it fails if the tree stands for nothing of the type that is
due. And a reader that succeeds has passed the text of some tree.
-/

namespace DeletionGuard.Json

open Reader (Turn Step iterate runSteps)

variable {α σ : Type}

/-- Before the text of a tree, `v` gives what `read?` says of the tree. -/
def Value.Means (v : Value α) (read? : Node → Option α) : Prop :=
  ∀ (ws : Blanks) (n : Node) (rest : List Char), Delimited rest →
    Read.Gives v.read (ws.chars ++ (n.text ++ rest)) (read? n) rest

/-! ### Kinds of values -/

/-- The first character tells what kind of value follows. -/
theorem Node.Head.kind {n : Node} {c : Char} (h : n.Head c) :
    (c = 'n' → n = .null) ∧ (c = '"' → ∃ l, n = .string l) ∧ (c = '[' → ∃ items, n = .list items) ∧
      (c = '{' → ∃ members, n = .object members) := by
  cases n with
  | boolean b => cases b <;> cases h <;> simp
  | number n =>
    refine ⟨?_, ?_, ?_, ?_⟩ <;> rintro rfl <;> rcases h with h | h <;> cases h
  | _ => cases h; simp

namespace Read

variable {heads : List UInt8} {expected : String} {c : Char} {cs rest : List Char}

theorem fails_mismatch (expected : String) : Fails (mismatch expected : Read α) :=
  .after _ fun _ => fails_failWith _

theorem becomes_opening (hc : StartsValue c) (h : byte c ∈ heads) (ws : Blanks) (cs : List Char) :
    Becomes (opening heads expected) (ws.chars ++ c :: cs) (pure (byte c)) cs :=
  .trans (.then (becomes_peekToken_cons hc.1 hc.isBlankChar ws cs))
    (.trans (.ite_pos h) (becomes_nextIn .value hc.1 cs))

theorem refuses_opening {n : Node} (h : ∀ c, n.Head c → byte c ∉ heads) (ws : Blanks)
    (rest : List Char) : Refuses (opening heads expected) (ws.chars ++ (n.text ++ rest)) := by
  obtain ⟨c, cs, hn, hhead⟩ := n.exists_text
  have hc := hhead.startsValue
  rw [hn]
  exact Becomes.refuses (.trans (.then (becomes_peekToken_cons hc.1 hc.isBlankChar ws (cs ++ rest)))
    (.ite_neg (h c hhead))) ((fails_mismatch expected).refuses _)

end Read

/-! ### Parts between commas -/

/-- What is left of the inside of a list or object: all of its parts, or blanks and its last parts.
-/
def partsText (f : α → List Char) : Bool → Blanks → List α → List Char
  | true, _, x :: xs => f x ++ Body.renderMore f xs
  | _, ws, xs => ws.chars ++ Body.renderMore f xs

theorem partsText_nil (f : α → List Char) (first : Bool) (ws : Blanks) :
    partsText f first ws [] = ws.chars := by
  cases first <;> simp [partsText, Body.renderMore]

theorem partsText_false (f : α → List Char) (ws : Blanks) (xs : List α) :
    partsText f false ws xs = ws.chars ++ Body.renderMore f xs := by
  cases xs <;> rfl

/-- A part that is next: in front of the others, or behind a comma. -/
def aheadText : Bool → Blanks → List Char → List Char
  | true, _, cs => cs
  | false, ws, cs => ws.chars ++ ',' :: cs

theorem aheadText_append (first : Bool) (ws : Blanks) (cs rest : List Char) :
    aheadText first ws cs ++ rest = aheadText first ws (cs ++ rest) := by
  cases first with
  | true => rfl
  | false => simp [aheadText]

theorem partsText_cons (f : α → List Char) (first : Bool) (ws : Blanks) (x : α) (xs : List α) :
    partsText f first ws (x :: xs) = aheadText first ws (f x ++ Body.renderMore f xs) := by
  cases first with
  | true => rfl
  | false => simp [partsText, aheadText, Body.renderMore]

theorem Body.exists_partsText (f : α → List Char) (b : Body α) :
    ∃ ws, b.render f = partsText f true ws b.toList := by
  cases b with
  | blank ws => exact ⟨ws, by simp [render, partsText, toList, renderMore]⟩
  | filled x xs => exact ⟨.none, rfl⟩

theorem exists_listText (items : Body (Padded Node)) (rest : List Char) :
    ∃ ws, (Node.list items).text ++ rest =
      '[' :: (partsText (Padded.render Node.text) true ws items.toList ++ ']' :: rest) := by
  obtain ⟨ws, hws⟩ := items.exists_partsText (Padded.render Node.text)
  exact ⟨ws, by simp [Node.text_list, hws]⟩

theorem exists_objectText (members : Body (Member Node)) (rest : List Char) :
    ∃ ws, (Node.object members).text ++ rest =
      '{' :: (partsText (Member.render Node.text) true ws members.toList ++ '}' :: rest) := by
  obtain ⟨ws, hws⟩ := members.exists_partsText (Member.render Node.text)
  exact ⟨ws, by simp [Node.text_object, hws]⟩

theorem Body.exists_render (f : α → List Char) (ws : Blanks) (xs : List α) :
    ∃ b : Body α, b.render f = partsText f true ws xs := by
  cases xs with
  | nil => exact ⟨.blank ws, by rw [partsText_nil]; rfl⟩
  | cons x xs => exact ⟨.filled x xs, rfl⟩

theorem delimited_items (ws : Blanks) (xs : List (Padded Node)) (cs : List Char) :
    Delimited (partsText (Padded.render Node.text) false ws xs ++ ']' :: cs) := by
  have hmore := delimited_renderMore .list xs cs
  rw [partsText_false, List.append_assoc]
  exact delimited_blanks_append ws hmore

theorem delimited_members (ws : Blanks) (ms : List (Member Node)) (cs : List Char) :
    Delimited (partsText (Member.render Node.text) false ws ms ++ '}' :: cs) := by
  have hmore := delimited_renderMore .object ms cs
  rw [partsText_false, List.append_assoc]
  exact delimited_blanks_append ws hmore

namespace Read

theorem becomes_hasElement_nil (first : Bool) (ws : Blanks) (rest : List Char) :
    Becomes (hasElement first)
      (partsText (Padded.render Node.text) first ws [] ++ ']' :: rest) (pure false)
      (']' :: rest) := by
  rw [partsText_nil]
  exact .trans (.then (becomes_peekToken_cons (by decide) (by decide) ws rest)) (.ite_pos rfl)

theorem becomes_hasElement (first : Bool) (ws ws' : Blanks) (hc : StartsValue c) (cs : List Char) :
    Becomes (hasElement first) (aheadText first ws (ws'.chars ++ c :: cs)) (pure true)
      (c :: cs) := by
  have hclose : byte c ≠ byte ']' := by
    rw [Ne, byte_inj hc.1 (by decide)]
    rintro rfl
    exact absurd hc.2 (by decide)
  have hlast : Becomes peekToken (ws'.chars ++ c :: cs) (pure (some (byte c))) (c :: cs) :=
    becomes_peekToken_cons hc.1 hc.isBlankChar ws' cs
  cases first with
  | true => exact .trans (.then hlast) (.trans (.ite_neg hclose) (.ite_pos rfl))
  | false =>
    refine .trans (.then (becomes_peekToken_cons (by decide) (by decide) ws _)) ?_
    refine .trans (.ite_neg (by decide)) (.trans (.ite_neg (by decide)) (.trans (.ite_pos rfl) ?_))
    refine .trans (.then (becomes_discard (by decide) _)) (.trans (.then hlast) ?_)
    exact .ite_neg hclose

theorem becomes_hasElement_cons (first : Bool) (ws : Blanks) (x : Padded Node)
    (xs : List (Padded Node)) (rest : List Char) :
    Becomes (hasElement first)
      (partsText (Padded.render Node.text) first ws (x :: xs) ++ rest) (pure true)
      (x.value.text ++ (partsText (Padded.render Node.text) false x.after xs ++ rest)) := by
  obtain ⟨before, n, after⟩ := x
  obtain ⟨c, cs, hn, hhead⟩ := n.exists_text
  have hmore := becomes_hasElement first ws before hhead.startsValue
    (cs ++ (partsText (Padded.render Node.text) false after xs ++ rest))
  rw [partsText_cons, aheadText_append, hn]
  simpa [Padded.render, hn, partsText_false] using hmore

theorem becomes_hasMember_nil (first : Bool) (ws : Blanks) (rest : List Char) :
    Becomes (hasMember first)
      (partsText (Member.render Node.text) first ws [] ++ '}' :: rest) (pure false)
      ('}' :: rest) := by
  rw [partsText_nil]
  exact .trans (.then (becomes_peekToken_cons (by decide) (by decide) ws rest)) (.ite_pos rfl)

/-- What is left of a member, and of those after it, once its opening quote is next. -/
def memberText (m : Member Node) (ms : List (Member Node)) : List Char :=
  piecesText m.key.value.pieces ++ '"' :: (m.key.after.chars ++ ':' :: (m.value.before.chars ++
    (m.value.value.text ++ partsText (Member.render Node.text) false m.value.after ms)))

theorem becomes_hasMember (first : Bool) (ws ws' : Blanks) (cs : List Char) :
    Becomes (hasMember first) (aheadText first ws (ws'.chars ++ '"' :: cs)) (pure true)
      ('"' :: cs) := by
  have hlast : Becomes peekToken (ws'.chars ++ '"' :: cs) (pure (some (byte '"'))) ('"' :: cs) :=
    becomes_peekToken_cons (by decide) (by decide) ws' cs
  cases first with
  | true =>
    exact .trans (.then hlast) (.trans (.ite_neg (by decide)) (.trans (.ite_pos rfl) (.ite_pos rfl)))
  | false =>
    refine .trans (.then (becomes_peekToken_cons (by decide) (by decide) ws _)) ?_
    refine .trans (.ite_neg (by decide)) (.trans (.ite_neg (by decide)) (.trans (.ite_pos rfl) ?_))
    refine .trans (.then (becomes_discard (by decide) _)) (.trans (.then hlast) ?_)
    exact .ite_pos rfl

theorem becomes_hasMember_cons (first : Bool) (ws : Blanks) (m : Member Node)
    (ms : List (Member Node)) (rest : List Char) :
    Becomes (hasMember first)
      (partsText (Member.render Node.text) first ws (m :: ms) ++ rest) (pure true)
      ('"' :: (memberText m ms ++ rest)) := by
  obtain ⟨⟨before, l, after⟩, v⟩ := m
  have hmore := becomes_hasMember first ws before (memberText ⟨⟨before, l, after⟩, v⟩ ms ++ rest)
  rw [partsText_cons, aheadText_append]
  simpa [Member.render, Padded.render, Literal.text, memberText, partsText_false] using hmore

end Read

namespace Value

/-! ### Texts and lists -/

theorem means_text : text.Means Node.string? := by
  intro ws n rest _
  have hrefuses (h : ∀ l, n ≠ .string l) :
      Read.Refuses text.read (ws.chars ++ (n.text ++ rest)) := by
    refine (Read.refuses_opening (fun c hc hmem => ?_) ws rest).bind
    rw [List.mem_singleton, Read.byte_inj hc.startsValue.1 (by decide)] at hmem
    obtain ⟨l, hl⟩ := hc.kind.2.1 hmem
    exact h l hl
  cases n with
  | string l =>
    have htext : (Node.string l).text ++ rest = '"' :: (piecesText l.pieces ++ '"' :: rest) := by
      simp [Node.text, Literal.text]
    rw [htext]
    exact Read.Becomes.gives (.then (Read.becomes_opening ⟨by decide, by decide⟩ (by decide) ws _))
      (Read.gives_text l rest)
  | _ => exact hrefuses (by simp)

variable {item : Value α} {read? : Node → Option α}

theorem gives_elements (hitem : item.Means read?) (xs : List (Padded Node)) (first : Bool)
    (ws : Blanks) (before : List α) (rest : List Char) :
    Read.Gives (iterate (elementStep item) ⟨first, before⟩)
      (partsText (Padded.render Node.text) first ws xs ++ ']' :: rest)
      ((xs.mapM fun x => read? x.value).map (before.reverse ++ ·)) (']' :: rest) := by
  induction xs generalizing first ws before with
  | nil =>
    have hdone := Read.becomes_hasElement_nil first ws rest
    have hend : Read.Becomes (iterate (elementStep item) ⟨first, before⟩)
        (partsText (Padded.render Node.text) first ws [] ++ ']' :: rest) (pure before.reverse)
        (']' :: rest) := .done (.trans (.then hdone) (.ite_neg (by decide)))
    simpa [Read.Gives] using hend
  | cons x xs ih =>
    have hmore := (Read.becomes_hasElement_cons first ws x xs (']' :: rest))
    have hx := hitem .none x.value _ (delimited_items x.after xs rest)
    rw [List.mapM_cons]
    cases hread : read? x.value with
    | none =>
      rw [hread] at hx
      exact .iterate (Read.Becomes.refuses (.trans (.then hmore) (.ite_pos rfl)) (.bind hx))
    | some a =>
      rw [hread] at hx
      have hagain : Read.Becomes (iterate (elementStep item) ⟨first, before⟩) _
          (iterate (elementStep item) ⟨false, a :: before⟩) _ :=
        .again (.trans (.then hmore) (.trans (.ite_pos rfl) (.then hx)))
      have hrest := hagain.gives (ih false x.after (a :: before))
      cases hxs : xs.mapM fun x => read? x.value <;> simpa [hxs] using hrest

theorem Means.list (hitem : item.Means read?) : item.list.Means (Node.list? read?) := by
  intro ws n rest _
  have hrefuses (h : ∀ items, n ≠ .list items) :
      Read.Refuses item.list.read (ws.chars ++ (n.text ++ rest)) := by
    refine (Read.refuses_opening (fun c hc hmem => ?_) ws rest).bind
    rw [List.mem_singleton, Read.byte_inj hc.startsValue.1 (by decide)] at hmem
    obtain ⟨items, hitems⟩ := hc.kind.2.2.1 hmem
    exact h items hitems
  cases n with
  | list items =>
    obtain ⟨inside, htext⟩ := exists_listText items rest
    have hitems := gives_elements hitem items.toList true inside [] rest
    rw [htext]
    refine Read.Becomes.gives
      (.then (Read.becomes_opening ⟨by decide, by decide⟩ (by decide) ws _)) ?_
    have hclose (as : List α) :
        Read.Becomes (do Read.discard; return as) (']' :: rest) (pure as) rest :=
      .then (Read.becomes_discard (by decide) rest)
    simpa [Node.list?] using hitems.map hclose
  | _ => exact hrefuses (by simp)

theorem Means.orNull {v : Value α} (hv : v.Means read?) (set : α → σ → σ) :
    (v.orNull set).Means (Node.setting? read? set) := by
  intro ws n rest hrest
  obtain ⟨c, cs, hn, hhead⟩ := n.exists_text
  have hc := hhead.startsValue
  have hpeek := Read.becomes_peekToken_cons hc.1 hc.isBlankChar ws (cs ++ rest)
  rw [hn]
  by_cases hnull : c = 'n'
  · subst hnull
    obtain rfl := hhead.kind.1 rfl
    obtain rfl : "ull".toList = cs := (List.cons.inj hn).2
    refine .trans (.then hpeek) (.trans (.ite_pos rfl) ?_)
    refine .trans (.then (Read.becomes_nextIn .value (by decide) _)) ?_
    exact .then (Read.becomes_word (by simp) rest)
  · have hne : ¬ some (byte c) = some (byte 'n') := by
      rwa [Option.some.injEq, Read.byte_inj hc.1 (by decide)]
    have hread := hv .none n rest hrest
    have hsetting : Node.setting? read? set n = (read? n).map set := by
      cases n with
      | null => exact absurd hhead hnull
      | _ => rfl
    rw [hsetting]
    rw [hn] at hread
    exact Read.Becomes.gives (.trans (.then hpeek) (.ite_neg hne))
      (hread.map fun a => .refl (pure (set a)) rest)

/-! ### Only values are passed -/

/-- What `v` passes is the text of a tree, with blanks before it. -/
def PassesTree (v : Value α) : Prop :=
  ∀ cs, Read.Yields v.read cs fun _ rest =>
    ∃ (ws : Blanks) (n : Node), cs = ws.chars ++ (n.text ++ rest)

end Value

namespace Read

theorem yields_opening (heads : List Char) (hlt : ∀ c ∈ heads, c.toNat < 0x80) (expected : String)
    (cs : List Char) :
    Yields (opening (heads.map byte) expected) cs fun b rest =>
      ∃ (ws : Blanks) (c : Char), cs = ws.chars ++ c :: rest ∧ c ∈ heads ∧ b = byte c := by
  refine yields_token_bind rfl fun ws c rest hcs => ?_
  refine .ite (fun hmem => ?_) fun _ => ((fails_mismatch expected).refuses _).yields
  obtain ⟨d, hd, heq⟩ := List.mem_map.1 hmem
  obtain rfl : c = d := (leadByte_eq_byte_iff (hlt d hd)).1 heq.symm
  exact (becomes_nextIn .value (hlt c hd) rest).yields (.pure ⟨ws, c, hcs, hd, rfl⟩)

/-- `mid` stands before an element of which `cs` has what comes before it, too. -/
def BeforeElement (first : Bool) (cs mid : List Char) : Prop :=
  ∀ (x : Padded Node) (xs : List (Padded Node)) (rest : List Char),
    mid = x.render Node.text ++ (Body.renderMore (Padded.render Node.text) xs ++ rest) →
      ∃ (ws : Blanks) (y : Padded Node),
        cs = partsText (Padded.render Node.text) first ws (y :: xs) ++ rest

/-- After an element that is there, or at the end, nothing but blanks has been passed. -/
theorem yields_hasElement (first : Bool) (cs : List Char) :
    Yields (hasElement first) cs fun more mid =>
      if more then BeforeElement first cs mid
      else ∃ ws : Blanks, cs = ws.chars ++ mid ∧ mid.head? = some ']' := by
  refine yields_token_bind rfl fun ws c cs₁ hcs => ?_
  refine .ite (fun hclose => .pure ?_) fun _ => .ite (fun hfirst => .pure ?_) fun hfirst =>
    .ite (fun hcomma => ?_) fun _ => (refuses_failAhead _).yields
  · rw [leadByte_eq_byte_iff (by decide)] at hclose
    exact ⟨ws, hcs, by rw [hclose]; rfl⟩
  · rintro ⟨before, n, after⟩ xs rest hmid
    refine ⟨ws, ⟨ws.append before, n, after⟩, ?_⟩
    rw [hcs, hmid, hfirst]
    simp [partsText, Padded.render]
  · rw [leadByte_eq_byte_iff (by decide)] at hcomma
    subst hcomma
    refine (Becomes.then (becomes_discard (by decide) cs₁)).yields ?_
    refine yields_token_bind rfl fun ws' d cs₂ hcs₁ => ?_
    refine .ite (fun _ => (refuses_failAhead _).yields) fun _ => .pure ?_
    rintro ⟨before, n, after⟩ xs rest hmid
    refine ⟨ws, ⟨ws'.append before, n, after⟩, ?_⟩
    rw [hcs, hcs₁, hmid, Bool.eq_false_iff.2 hfirst, partsText_false]
    simp [Body.renderMore, Padded.render]

end Read

namespace Value

variable {item : Value α}

theorem passesTree_text : text.PassesTree := by
  intro cs
  refine (Read.yields_opening ['"'] (by simp) _ cs).bind fun b mid hopen => ?_
  obtain ⟨ws, c, rfl, hc, -⟩ := hopen
  rw [List.mem_singleton] at hc
  refine (Read.yields_text mid).mono fun _ rest hps => ?_
  obtain ⟨ps, rfl⟩ := hps
  exact ⟨ws, .string ⟨ps⟩, by simp [hc, Node.text, Literal.text]⟩

theorem yields_elements (hitem : item.PassesTree) (s : ListState α) (cs : List Char) :
    Read.Yields (iterate (elementStep item) s) cs fun _ rest => rest.head? = some ']' ∧
      ∃ (ws : Blanks) (xs : List (Padded Node)),
        cs = partsText (Padded.render Node.text) s.first ws xs ++ rest := by
  refine Read.Yields.iterate (Q := fun (s : ListState α) cs _ rest => rest.head? = some ']' ∧
    ∃ (ws : Blanks) (xs : List (Padded Node)),
      cs = partsText (Padded.render Node.text) s.first ws xs ++ rest) (fun s cs => ?_) s cs
  refine (Read.yields_hasElement s.first cs).bind fun more mid hmore => ?_
  refine .ite (fun htrue => ?_) fun hfalse => ?_
  · rw [if_pos htrue] at hmore
    refine (hitem mid).bind fun a mid' hvalue => .pure fun _ rest h => ?_
    obtain ⟨before, n, rfl⟩ := hvalue
    obtain ⟨hclose, after, xs, rfl⟩ := h
    obtain ⟨ws, y, rfl⟩ := hmore ⟨before, n, after⟩ xs rest
      (by simp [partsText_false, Padded.render])
    exact ⟨hclose, ws, y :: xs, rfl⟩
  · rw [if_neg hfalse] at hmore
    obtain ⟨ws, rfl, hclose⟩ := hmore
    exact .pure ⟨hclose, ws, [], by rw [partsText_nil]⟩

theorem PassesTree.list (hitem : item.PassesTree) : item.list.PassesTree := by
  intro cs
  refine (Read.yields_opening ['['] (by simp) _ cs).bind fun b mid hopen => ?_
  obtain ⟨ws, c, rfl, hc, -⟩ := hopen
  rw [List.mem_singleton] at hc
  refine (yields_elements hitem ⟨true, []⟩ mid).bind fun as mid' h => ?_
  obtain ⟨hclose, inside, xs, rfl⟩ := h
  obtain ⟨rest, rfl⟩ := List.head?_eq_some_iff.1 hclose
  refine (Read.Becomes.then (Read.becomes_discard (by decide) rest)).yields (.pure ?_)
  obtain ⟨items, hitems⟩ := Body.exists_render (Padded.render Node.text) inside xs
  exact ⟨ws, .list items, by simp [hc, Node.text_list, hitems]⟩

theorem PassesTree.orNull {v : Value α} (hv : v.PassesTree) (set : α → σ → σ) :
    (v.orNull set).PassesTree := by
  intro cs
  have hread {ws : Blanks} {cs₁ : List Char} (hcs : cs = ws.chars ++ cs₁) :
      Read.Yields (do return set (← v.read)) cs₁ fun _ rest =>
        ∃ (ws : Blanks) (n : Node), cs = ws.chars ++ (n.text ++ rest) := by
    refine (hv cs₁).bind fun a rest h => .pure ?_
    obtain ⟨ws', n, hcs₁⟩ := h
    exact ⟨ws.append ws', n, by simp [hcs, hcs₁]⟩
  refine Read.yields_peekToken_bind (fun ws hcs => hread (by simpa using hcs))
    fun ws c cs₁ hcs => ?_
  refine .ite (fun hnull => ?_) fun _ => hread hcs
  rw [Option.some.injEq, leadByte_eq_byte_iff (by decide)] at hnull
  subst hnull
  refine (Read.Becomes.then (Read.becomes_nextIn .value (by decide) cs₁)).yields ?_
  refine (Read.yields_word (by simp) cs₁).bind fun _ rest hcs₁ => .pure ⟨ws, .null, ?_⟩
  rw [hcs, hcs₁]
  rfl

end Value

end DeletionGuard.Json
