import DeletionGuard.Proofs.Json.Value

/-!
# Records and documents

A record is read as its syntax tree says, from an array as from an object, and what a document gives
is what the tree of its text stands for. Members that are not known are skipped, so they have to be
values, and nothing else is asked of them.
-/

namespace DeletionGuard.Json

open Reader (Turn Step iterate runSteps)

variable {α σ : Type}

namespace Read

theorem becomes_closeArray (ws : Blanks) (rest : List Char) :
    Becomes closeArray (ws.chars ++ ']' :: rest) (pure ()) rest := by
  refine .trans (.then (becomes_peekToken_cons (by decide) (by decide) ws rest)) ?_
  exact .trans (.ite_pos rfl) (becomes_discard (by decide) rest)

/-- There is no room for another element. -/
theorem refuses_closeArray (first : Bool) (ws : Blanks) (x : Padded Node)
    (xs : List (Padded Node)) (rest : List Char) :
    Refuses closeArray (partsText (Padded.render Node.text) first ws (x :: xs) ++ rest) := by
  cases first with
  | true =>
    obtain ⟨before, n, after⟩ := x
    obtain ⟨c, cs, hn, hhead⟩ := n.exists_text
    have hc := hhead.startsValue
    have hne {d : Char} (hd : d.toNat < 0x80) (hd' : startsValue (byte d) = false) :
        byte c ≠ byte d := by
      rw [Ne, byte_inj hc.1 hd]
      rintro rfl
      exact absurd hc.2 (by simp [hd'])
    have htext : partsText (Padded.render Node.text) true ws (⟨before, n, after⟩ :: xs) ++ rest =
        before.chars ++ c :: (cs ++ (after.chars ++
          (Body.renderMore (Padded.render Node.text) xs ++ rest))) := by
      simp [partsText, Padded.render, hn]
    rw [htext]
    refine Becomes.refuses (.then (becomes_peekToken_cons hc.1 hc.isBlankChar before _)) ?_
    exact Becomes.refuses (.trans (.ite_neg (hne (by decide) (by decide)))
      (.ite_neg (hne (by decide) (by decide)))) (refuses_failAhead _)
  | false =>
    have htext : partsText (Padded.render Node.text) false ws (x :: xs) ++ rest =
        ws.chars ++ ',' :: (x.render Node.text ++
          (Body.renderMore (Padded.render Node.text) xs ++ rest)) := by
      simp [partsText, Body.renderMore]
    rw [htext]
    refine Becomes.refuses (.trans (.then (becomes_peekToken_cons (by decide) (by decide) ws _))
      (.trans (.ite_neg (by decide)) (.trans (.ite_pos rfl)
        (.then (becomes_discard (by decide) _))))) ?_
    refine (Fails.after _ fun b => ?_ : Fails _).refuses _
    split
    · exact fails_failWith _
    · exact fails_failWith _

end Read

namespace Value

/-! ### Arrays -/

/-- What the name of a field and its value make of a record. -/
def Settles (fields : List (Field σ)) (change? : String → Node → Option (σ → σ)) : Prop :=
  ∀ f ∈ fields, f.value.Means (change? f.key)

variable {fields : List (Field σ)} {change? : String → Node → Option (σ → σ)}

theorem gives_positional (hfields : Settles fields change?) (xs : List (Padded Node))
    (first : Bool) (ws : Blanks) (s : σ) (rest : List Char) :
    Read.Gives (do let s ← positional fields first s; Read.closeArray; return s)
      (partsText (Padded.render Node.text) first ws xs ++ ']' :: rest)
      (if xs.length ≤ fields.length then
        settle? change? s ((fields.map (·.key)).zip (xs.map (·.value)))
      else none) rest := by
  induction fields generalizing xs first ws s with
  | nil =>
    cases xs with
    | nil =>
      rw [partsText_nil]
      exact .then (Read.becomes_closeArray ws rest)
    | cons x xs =>
      exact Read.Becomes.refuses (.then (.refl _ _))
        (Read.refuses_closeArray first ws x xs (']' :: rest)).bind
  | cons f fields ih =>
    obtain ⟨hf, hfields⟩ := List.forall_mem_cons.1 hfields
    cases xs with
    | nil =>
      have hend := Read.becomes_hasElement_nil first ws rest
      have hstop : Read.Becomes (positional (f :: fields) first s)
          (partsText (Padded.render Node.text) first ws [] ++ ']' :: rest) (pure s)
          (']' :: rest) := .trans (.then hend) (.ite_neg (by decide))
      exact .trans (.then hstop) (.then (Read.becomes_closeArray .none rest))
    | cons x xs =>
      have hmore := Read.becomes_hasElement_cons first ws x xs (']' :: rest)
      have hx := hf .none x.value _ (delimited_items x.after xs rest)
      simp only [List.length_cons, Nat.add_le_add_iff_right, List.map_cons, List.zip_cons_cons,
        settle?_cons]
      cases hchange : change? f.key x.value with
      | none =>
        rw [hchange] at hx
        have hnone : (if xs.length ≤ fields.length then (none : Option (σ → σ)).bind fun c =>
            settle? change? (c s) ((fields.map (·.key)).zip (xs.map (·.value))) else none) =
              none := by
          split <;> rfl
        rw [hnone]
        exact Read.Refuses.bind (Read.Becomes.refuses (.trans (.then hmore) (.ite_pos rfl))
          (.bind hx))
      | some c =>
        rw [hchange] at hx
        have hnext : Read.Becomes (positional (f :: fields) first s)
            (partsText (Padded.render Node.text) first ws (x :: xs) ++ ']' :: rest)
            (positional fields false (c s))
            (partsText (Padded.render Node.text) false x.after xs ++ ']' :: rest) :=
          .trans (.then hmore) (.trans (.ite_pos rfl) (.then hx))
        exact hnext.bind.gives (ih hfields xs false x.after (c s))

/-! ### Objects -/

theorem becomes_colon (ws : Blanks) (rest : List Char) :
    Read.Becomes Read.colon (ws.chars ++ ':' :: rest) (pure ()) rest := by
  refine .trans (.then (Read.becomes_peekToken_cons (by decide) (by decide) ws rest)) ?_
  exact .trans (.ite_pos rfl) (Read.becomes_discard (by decide) rest)

/-- What the members after those with `keys` make of a record. -/
def settleMembers? (names : List String) (change? : String → Node → Option (σ → σ))
    (keys : List String) (s : σ) (entries : List (String × Node)) : Option σ :=
  let known := entries.filter (·.1 ∈ names)
  if (keys ++ known.map (·.1)).Nodup then settle? change? s known else none

variable {names keys : List String} {key : String} {s : σ} {n : Node}
  {entries : List (String × Node)}

theorem settleMembers?_unknown (h : key ∉ names) :
    settleMembers? names change? keys s ((key, n) :: entries) =
      settleMembers? names change? keys s entries := by
  simp [settleMembers?, h]

theorem settleMembers?_twice (h : key ∈ names) (hkey : key ∈ keys) :
    settleMembers? names change? keys s ((key, n) :: entries) = none := by
  have hnot : ¬ (keys ++ key :: (entries.filter (·.1 ∈ names)).map (·.1)).Nodup := by
    rw [List.nodup_middle, List.nodup_cons]
    exact fun hnodup => hnodup.1 (List.mem_append_left _ hkey)
  simp [settleMembers?, h, hnot]

theorem settleMembers?_known (h : key ∈ names) :
    settleMembers? names change? keys s ((key, n) :: entries) =
      (change? key n).bind fun c => settleMembers? names change? (key :: keys) (c s) entries := by
  have hnodup : (keys ++ key :: (entries.filter (·.1 ∈ names)).map (·.1)).Nodup ↔
      (key :: keys ++ (entries.filter (·.1 ∈ names)).map (·.1)).Nodup := List.nodup_middle
  rw [settleMembers?, List.filter_cons_of_pos (by simpa using h)]
  simp only [List.map_cons, hnodup, settle?_cons]
  cases change? key n with
  | none => split <;> rfl
  | some c => rfl

/-- A member makes a change if its key is known and new, and none if its key is not known. -/
theorem gives_member (hfields : Settles fields change?) (first : Bool) (keys : List String) (s : σ)
    (key : String) (after before : Blanks) (n : Node) (h : Delimited rest) :
    Read.Gives (member fields ⟨first, keys, s⟩ key)
      (after.chars ++ ':' :: (before.chars ++ (n.text ++ rest)))
      (if key ∈ fields.map (·.key) then
        if key ∈ keys then none
        else (change? key n).map fun c => ⟨false, key :: keys, c s⟩
      else some ⟨false, keys, s⟩) rest := by
  have hcolon := becomes_colon after (before.chars ++ (n.text ++ rest))
  unfold member
  cases hfind : fields.find? (·.key == key) with
  | none =>
    have hunknown : key ∉ fields.map (·.key) := by
      intro hmem
      obtain ⟨f, hf, hkey⟩ := List.mem_map.1 hmem
      exact List.find?_eq_none.1 hfind f hf (by simp [hkey])
    rw [if_neg hunknown]
    exact .trans (.then hcolon) (.then (Read.becomes_skipValue before n h))
  | some f =>
    have hf := List.mem_of_find?_eq_some hfind
    have hkey : f.key = key := by simpa using List.find?_some hfind
    have hvalue := hfields f hf before n rest h
    rw [if_pos (List.mem_map.2 ⟨f, hf, hkey⟩)]
    by_cases htwice : key ∈ keys
    · simp only [if_pos htwice]
      exact (Read.Fails.after _ fun _ => Read.fails_failWith _ :
        Read.Fails (Read.duplicate key)).refuses _
    · simp only [if_neg htwice]
      rw [hkey] at hvalue
      exact Read.Becomes.gives (.then hcolon) (hvalue.map fun c => .refl _ rest)

/-- A turn that finds a member reads its key, of which the opening quote is passed already. -/
theorem becomes_memberTurn (fields : List (Field σ)) (s : ObjectState σ) (ws : Blanks)
    (m : Member Node) (ms : List (Member Node)) (rest : List Char) :
    Read.Becomes ((memberStep fields).turn s)
      (partsText (Member.render Node.text) s.first ws (m :: ms) ++ rest)
      (do return Turn.again (← member fields s (← Read.text)))
      (piecesText m.key.value.pieces ++ '"' :: (m.key.after.chars ++ ':' ::
        (m.value.before.chars ++ (m.value.value.text ++
          (partsText (Member.render Node.text) false m.value.after ms ++ rest))))) := by
  refine .trans (.then (Read.becomes_hasMember_cons s.first ws m ms rest)) ?_
  refine .trans (.ite_pos rfl) (.trans (.then (Read.becomes_nextIn .string (by decide) _)) ?_)
  simp only [Read.memberText, List.append_assoc, List.cons_append]
  exact .refl _ _

/-- All keys are read in the end, or there is no record; so the first one can be read first. -/
theorem entries_bind {m : Member Node} {ms : List (Member Node)} {key : String}
    (hkey : m.key.value.string? = some key) (f : List (String × Node) → Option σ) :
    ((m :: ms).mapM Member.entry?).bind f =
      (ms.mapM Member.entry?).bind fun es => f ((key, m.value.value) :: es) := by
  rw [List.mapM_cons, Member.entry?, hkey]
  cases ms.mapM Member.entry? <;> rfl

theorem gives_members (hfields : Settles fields change?) (ms : List (Member Node)) (first : Bool)
    (ws : Blanks) {keys : List String} (hkeys : keys.Nodup) (s : σ) (rest : List Char) :
    Read.Gives (iterate (memberStep fields) ⟨first, keys, s⟩)
      (partsText (Member.render Node.text) first ws ms ++ '}' :: rest)
      ((ms.mapM Member.entry?).bind (settleMembers? (fields.map (·.key)) change? keys s))
      ('}' :: rest) := by
  induction ms generalizing first ws keys s with
  | nil =>
    have hnil : settleMembers? (fields.map (·.key)) change? keys s [] = some s := by
      rw [settleMembers?, List.filter_nil]
      simp [hkeys, settle?]
    have hend := Read.becomes_hasMember_nil first ws rest
    rw [List.mapM_nil]
    change Read.Gives _ _ (settleMembers? (fields.map (·.key)) change? keys s []) _
    rw [hnil]
    exact .done (.trans (.then hend) (.ite_neg (by decide)))
  | cons m ms ih =>
    have hturn := becomes_memberTurn fields ⟨first, keys, s⟩ ws m ms ('}' :: rest)
    have hkey := Read.gives_text m.key.value (m.key.after.chars ++ ':' ::
      (m.value.before.chars ++ (m.value.value.text ++
        (partsText (Member.render Node.text) false m.value.after ms ++ '}' :: rest))))
    cases hstring : m.key.value.string? with
    | none =>
      rw [hstring] at hkey
      have hentries : (m :: ms).mapM Member.entry? = none := by
        rw [List.mapM_cons, Member.entry?, hstring]
        rfl
      rw [hentries]
      exact .iterate (hturn.refuses (.bind hkey))
    | some key =>
      rw [hstring] at hkey
      have hmember := gives_member hfields first keys s key m.key.after m.value.before m.value.value
        (delimited_members m.value.after ms rest)
      have hrefuses (h : Read.Refuses (member fields ⟨first, keys, s⟩ key) _) :=
        Read.Refuses.iterate
          (hturn.refuses (Read.Becomes.refuses (.then hkey) (Read.Refuses.bind h)))
      have hagain {s' : ObjectState σ} {mid : List Char}
          (h : Read.Becomes (member fields ⟨first, keys, s⟩ key) _ (pure s') mid) :=
        Read.Becomes.again (hturn.trans (.trans (.then hkey) (.then h)))
      rw [entries_bind hstring]
      by_cases hknown : key ∈ fields.map (·.key)
      · by_cases htwice : key ∈ keys
        · rw [if_pos hknown, if_pos htwice] at hmember
          simp only [settleMembers?_twice hknown htwice, Option.bind_fun_none]
          exact hrefuses hmember
        · rw [if_pos hknown, if_neg htwice] at hmember
          simp only [settleMembers?_known hknown]
          cases hchange : change? key m.value.value with
          | none =>
            rw [hchange] at hmember
            simp only [Option.bind_none, Option.bind_fun_none]
            exact hrefuses hmember
          | some c =>
            rw [hchange] at hmember
            exact (hagain hmember).gives
              (ih false m.value.after (List.nodup_cons.2 ⟨htwice, hkeys⟩) (c s))
      · rw [if_neg hknown] at hmember
        simp only [settleMembers?_unknown hknown]
        exact (hagain hmember).gives (ih false m.value.after hkeys s)

/-! ### Records -/

/-- The known members of an object settle a record in the order of the text. -/
theorem object_fields?_bind (members : Body (Member Node)) (s : σ) :
    ((Node.object members).fields? names).bind (settle? change? s) =
      (members.toList.mapM Member.entry?).bind (settleMembers? names change? [] s) := by
  rw [Node.fields?]
  cases members.toList.mapM Member.entry? with
  | none => rfl
  | some entries =>
    simp only [Option.bind_eq_bind, Option.bind_some, settleMembers?, List.nil_append]
    split <;> rfl

/-- What is neither an array nor an object is no record. -/
theorem refuses_record {shape : Shape σ} (hlist : ∀ items, n ≠ .list items)
    (hobject : ∀ members, n ≠ .object members) (ws : Blanks) (rest : List Char) :
    Read.Refuses (Value.record shape).read (ws.chars ++ (n.text ++ rest)) := by
  refine (Read.refuses_opening (fun c hc hmem => ?_) ws rest).bind
  simp only [List.mem_cons, List.not_mem_nil, or_false] at hmem
  rw [Read.byte_inj hc.startsValue.1 (by decide),
    Read.byte_inj hc.startsValue.1 (by decide)] at hmem
  rcases hmem with hopen | hopen
  · obtain ⟨items, hitems⟩ := hc.kind.2.2.1 hopen
    exact hlist items hitems
  · obtain ⟨members, hmembers⟩ := hc.kind.2.2.2 hopen
    exact hobject members hmembers

theorem Means.record {shape : Shape σ} (hfields : Settles shape.fields change?) :
    (Value.record shape).Means fun n =>
      (n.fields? (shape.fields.map (·.key))).bind (settle? change? shape.empty) := by
  intro ws n rest _
  cases n with
  | list items =>
    obtain ⟨inside, htext⟩ := exists_listText items rest
    have hitems := gives_positional hfields items.toList true inside shape.empty rest
    rw [htext]
    refine Read.Becomes.gives
      (.trans (.then (Read.becomes_opening ⟨by decide, by decide⟩ (by decide) ws _))
        (.ite_pos rfl)) ?_
    simp only [Node.fields?, List.length_map]
    by_cases hle : items.toList.length ≤ shape.fields.length
    · simpa only [if_pos hle, Option.bind_some] using hitems
    · simpa only [if_neg hle, Option.bind_none] using hitems
  | object members =>
    obtain ⟨inside, htext⟩ := exists_objectText members rest
    have hmembers :=
      gives_members hfields members.toList true inside List.nodup_nil shape.empty rest
    rw [htext]
    refine Read.Becomes.gives
      (.trans (.then (Read.becomes_opening ⟨by decide, by decide⟩ (by decide) ws _))
        (.ite_neg (by decide))) ?_
    have hclose (s : σ) :
        Read.Becomes (do Read.discard; return s) ('}' :: rest) (pure s) rest :=
      .then (Read.becomes_discard (by decide) rest)
    simpa [object_fields?_bind] using hmembers.map hclose
  | _ => exact refuses_record (by simp) (by simp) ws rest

end Value

/-! ### Only records are passed -/

namespace Read

theorem yields_closeArray (cs : List Char) :
    Yields closeArray cs fun _ rest => ∃ ws : Blanks, cs = ws.chars ++ ']' :: rest := by
  refine yields_token_bind rfl fun ws c rest hcs => ?_
  refine .ite (fun hclose => ?_) fun _ => .ite (fun _ => ?_) fun _ => (refuses_failAhead _).yields
  · rw [leadByte_eq_byte_iff (by decide)] at hclose
    subst hclose
    exact (becomes_discard (by decide) rest).yields (.pure ⟨ws, hcs⟩)
  · refine ((Fails.after _ fun _ => .after _ fun b => ?_ : Fails _).refuses _).yields
    split
    · exact fails_failWith _
    · exact fails_failWith _

theorem yields_colon (cs : List Char) :
    Yields colon cs fun _ rest => ∃ ws : Blanks, cs = ws.chars ++ ':' :: rest := by
  refine yields_token_bind rfl fun ws c rest hcs => ?_
  refine .ite (fun hcolon => ?_) fun _ => (refuses_failAhead _).yields
  rw [leadByte_eq_byte_iff (by decide)] at hcolon
  subst hcolon
  exact (becomes_discard (by decide) rest).yields (.pure ⟨ws, hcs⟩)

/-- `mid` stands before a key of which `cs` has what comes before it, too. -/
def BeforeMember (first : Bool) (cs mid : List Char) : Prop :=
  ∃ mid', mid = '"' :: mid' ∧ ∀ (m : Member Node) (ms : List (Member Node)) (rest : List Char),
    mid' = piecesText m.key.value.pieces ++ '"' :: (m.key.after.chars ++ ':' ::
      (m.value.render Node.text ++ (Body.renderMore (Member.render Node.text) ms ++ rest))) →
    ∃ (ws : Blanks) (m' : Member Node),
      cs = partsText (Member.render Node.text) first ws (m' :: ms) ++ rest

theorem yields_hasMember (first : Bool) (cs : List Char) :
    Yields (hasMember first) cs fun more mid =>
      if more then BeforeMember first cs mid
      else ∃ ws : Blanks, cs = ws.chars ++ mid ∧ mid.head? = some '}' := by
  refine yields_token_bind rfl fun ws c cs₁ hcs => ?_
  refine .ite (fun hclose => .pure ?_) fun _ => .ite (fun hfirst => ?_) fun hfirst =>
    .ite (fun hcomma => ?_) fun _ => (refuses_failAhead _).yields
  · rw [leadByte_eq_byte_iff (by decide)] at hclose
    exact ⟨ws, hcs, by rw [hclose]; rfl⟩
  · refine .ite (fun hquote => .pure ?_) fun _ => (refuses_failAhead _).yields
    rw [leadByte_eq_byte_iff (by decide)] at hquote
    refine ⟨cs₁, by rw [hquote], ?_⟩
    rintro ⟨⟨before, l, after⟩, v⟩ ms rest hmid
    refine ⟨ws, ⟨⟨ws, l, after⟩, v⟩, ?_⟩
    rw [hcs, hquote, hmid, hfirst]
    simp [partsText, Member.render, Padded.render, Literal.text]
  · rw [leadByte_eq_byte_iff (by decide)] at hcomma
    subst hcomma
    refine (Becomes.then (becomes_discard (by decide) cs₁)).yields ?_
    refine yields_token_bind rfl fun ws' d cs₂ hcs₁ => ?_
    refine .ite (fun hquote => .pure ?_) fun _ => .ite (fun _ => (refuses_failAhead _).yields)
      fun _ => (refuses_failAhead _).yields
    rw [leadByte_eq_byte_iff (by decide)] at hquote
    refine ⟨cs₂, by rw [hquote], ?_⟩
    rintro ⟨⟨before, l, after⟩, v⟩ ms rest hmid
    refine ⟨ws, ⟨⟨ws', l, after⟩, v⟩, ?_⟩
    rw [hcs, hcs₁, hquote, hmid, Bool.eq_false_iff.2 hfirst, partsText_false]
    simp [Body.renderMore, Member.render, Padded.render, Literal.text]

end Read

namespace Value

variable {fields : List (Field σ)}

theorem yields_positional (hfields : ∀ f ∈ fields, f.value.PassesTree) (first : Bool) (s : σ)
    (cs : List Char) :
    Read.Yields (positional fields first s) cs fun _ mid =>
      ∀ (ws : Blanks) (rest : List Char), mid = ws.chars ++ ']' :: rest →
        ∃ (ws' : Blanks) (xs : List (Padded Node)),
          cs = partsText (Padded.render Node.text) first ws' xs ++ ']' :: rest := by
  induction fields generalizing first s cs with
  | nil => exact .pure fun ws rest h => ⟨ws, [], by rw [partsText_nil, h]⟩
  | cons f fields ih =>
    obtain ⟨hf, hfields⟩ := List.forall_mem_cons.1 hfields
    refine (Read.yields_hasElement first cs).bind fun more mid hmore => ?_
    refine .ite (fun htrue => ?_) fun hfalse => ?_
    · rw [if_pos htrue] at hmore
      refine (hf mid).bind fun c mid' hvalue => ?_
      obtain ⟨before, n, rfl⟩ := hvalue
      refine (ih hfields false (c s) mid').mono fun _ end' h ws rest hend => ?_
      obtain ⟨after, xs, rfl⟩ := h ws rest hend
      obtain ⟨ws', y, rfl⟩ := hmore ⟨before, n, after⟩ xs (']' :: rest)
        (by simp [partsText_false, Padded.render])
      exact ⟨ws', y :: xs, rfl⟩
    · rw [if_neg hfalse] at hmore
      obtain ⟨ws, rfl, -⟩ := hmore
      refine .pure fun ws' rest h => ⟨ws.append ws', [], ?_⟩
      rw [partsText_nil, h, Blanks.chars_append, List.append_assoc]

theorem yields_member (hfields : ∀ f ∈ fields, f.value.PassesTree) (s : ObjectState σ)
    (key : String) (cs : List Char) :
    Read.Yields (member fields s key) cs fun s' rest => s'.first = false ∧
      ∃ (after : Blanks) (before : Blanks) (n : Node),
        cs = after.chars ++ ':' :: (before.chars ++ (n.text ++ rest)) := by
  unfold member
  cases hfind : fields.find? (·.key == key) with
  | none =>
    refine (Read.yields_colon cs).bind fun _ mid hcolon => ?_
    obtain ⟨after, rfl⟩ := hcolon
    refine (Read.yields_skipValue mid).bind fun _ rest hvalue => .pure ⟨rfl, after, ?_⟩
    obtain ⟨before, n, rfl⟩ := hvalue
    exact ⟨before, n, rfl⟩
  | some f =>
    refine .ite (fun _ => ?_) fun _ => ?_
    · exact ((Read.Fails.after _ fun _ => Read.fails_failWith _ :
        Read.Fails (Read.duplicate key)).refuses _).yields
    · refine (Read.yields_colon cs).bind fun _ mid hcolon => ?_
      obtain ⟨after, rfl⟩ := hcolon
      refine (hfields f (List.mem_of_find?_eq_some hfind) mid).bind fun _ rest hvalue => .pure
        ⟨rfl, after, ?_⟩
      obtain ⟨before, n, rfl⟩ := hvalue
      exact ⟨before, n, rfl⟩

theorem yields_members (hfields : ∀ f ∈ fields, f.value.PassesTree) (s : ObjectState σ)
    (cs : List Char) :
    Read.Yields (iterate (memberStep fields) s) cs fun _ rest => rest.head? = some '}' ∧
      ∃ (ws : Blanks) (ms : List (Member Node)),
        cs = partsText (Member.render Node.text) s.first ws ms ++ rest := by
  refine Read.Yields.iterate (Q := fun (s : ObjectState σ) cs _ rest => rest.head? = some '}' ∧
    ∃ (ws : Blanks) (ms : List (Member Node)),
      cs = partsText (Member.render Node.text) s.first ws ms ++ rest) (fun s cs => ?_) s cs
  refine (Read.yields_hasMember s.first cs).bind fun more mid hmore => ?_
  refine .ite (fun htrue => ?_) fun hfalse => ?_
  · rw [if_pos htrue] at hmore
    obtain ⟨mid₁, rfl, hmore⟩ := hmore
    refine (Read.Becomes.then (Read.becomes_nextIn .string (by decide) mid₁)).yields ?_
    refine (Read.yields_text mid₁).bind fun key mid₂ hkey => ?_
    obtain ⟨ps, rfl⟩ := hkey
    refine (yields_member hfields s key mid₂).bind fun s' mid₃ hvalue => .pure fun _ rest h => ?_
    obtain ⟨hfirst, after, before, n, rfl⟩ := hvalue
    obtain ⟨hclose, after', ms, rfl⟩ := h
    obtain ⟨ws, m, rfl⟩ := hmore ⟨⟨.none, ⟨ps⟩, after⟩, ⟨before, n, after'⟩⟩ ms rest
      (by simp [hfirst, partsText_false, Padded.render])
    exact ⟨hclose, ws, m :: ms, rfl⟩
  · rw [if_neg hfalse] at hmore
    obtain ⟨ws, rfl, hclose⟩ := hmore
    exact .pure ⟨hclose, ws, [], by rw [partsText_nil]⟩

theorem PassesTree.record {shape : Shape σ} (hfields : ∀ f ∈ shape.fields, f.value.PassesTree) :
    (Value.record shape).PassesTree := by
  intro cs
  refine (Read.yields_opening ['[', '{'] (by simp) _ cs).bind fun b mid hopen => ?_
  obtain ⟨ws, c, rfl, hc, rfl⟩ := hopen
  simp only [List.mem_cons, List.not_mem_nil, or_false] at hc
  rcases hc with rfl | rfl
  · refine (Read.Becomes.ite_pos rfl).yields ?_
    refine (yields_positional hfields true shape.empty mid).bind fun s mid' h => ?_
    refine (Read.yields_closeArray mid').bind fun _ rest hclose => .pure ?_
    obtain ⟨ws', hclose⟩ := hclose
    obtain ⟨inside, xs, rfl⟩ := h ws' rest hclose
    obtain ⟨items, hitems⟩ := Body.exists_render (Padded.render Node.text) inside xs
    exact ⟨ws, .list items, by simp [Node.text_list, hitems]⟩
  · refine (Read.Becomes.ite_neg (by decide)).yields ?_
    refine (yields_members hfields ⟨true, [], shape.empty⟩ mid).bind fun s mid' h => ?_
    obtain ⟨hclose, inside, ms, rfl⟩ := h
    obtain ⟨rest, rfl⟩ := List.head?_eq_some_iff.1 hclose
    refine (Read.Becomes.then (Read.becomes_discard (by decide) rest)).yields (.pure ?_)
    obtain ⟨members, hmembers⟩ := Body.exists_render (Member.render Node.text) inside ms
    exact ⟨ws, .object members, by simp [Node.text_object, hmembers]⟩

/-! ### Documents -/

/-- A document that is the text of a tree gives what the tree stands for. -/
theorem document_text {v : Value α} {read? : Node → Option α} (h : v.Means read?) (d : Document) :
    (v.document (Utf8.ofString d.text)).toOption = read? d.value := by
  obtain ⟨before, n, after⟩ := d
  have hblank : Delimited after.chars := by
    simpa using delimited_blanks_append after delimited_nil
  have hgives := h before n after.chars hblank
  have hbytes : (Cursor.start (Utf8.ofString (Document.text ⟨before, n, after⟩))).rest =
      Utf8.encode (before.chars ++ (n.text ++ after.chars)) := by
    simp [Cursor.start, Utf8.ofString, Document.text, Padded.render]
  rw [document]
  cases hread : read? n with
  | none =>
    rw [hread] at hgives
    obtain ⟨fault, hfault⟩ := hgives _ hbytes
    simp [Reader.run_bind, hfault, Except.map, Except.toOption]
  | some a =>
    rw [hread] at hgives
    have hend := Read.becomes_peekToken after.chars
    rw [dropBlanks_blanks] at hend
    obtain ⟨c, -, hrun⟩ := (Read.Becomes.trans (.then hgives)
      (.trans (.then hend) (.ite_neg (by simp))) :
        Read.Becomes (do
          let a ← v.read
          if (← Read.peekToken).isSome then
            Read.failAhead .trailingCharacters
          else
            return a) _ (pure a) []) _ hbytes
    simp only [hrun, Reader.run_pure]
    rfl

/-- A document that gives something is the text of a tree. -/
theorem exists_document {v : Value α} (h : v.PassesTree) {t : String} {a : α}
    (hdocument : v.document (Utf8.ofString t) = .ok a) : ∃ d : Document, d.text = t := by
  have hyields : Read.Yields (do
      let a ← v.read
      if (← Read.peekToken).isSome then
        Read.failAhead .trailingCharacters
      else
        return a) t.toList fun _ _ => ∃ d : Document, d.text = t := by
    refine (h t.toList).bind fun a mid hvalue => ?_
    obtain ⟨before, n, hvalue⟩ := hvalue
    refine Read.yields_peekToken_bind (fun after hmid => .pure ⟨⟨before, n, after⟩, ?_⟩)
      fun _ _ _ _ => (Read.refuses_failAhead _).yields
    simp [Document.text, Padded.render, hmid ▸ hvalue.symm]
  rw [document, Except.map.eq_def] at hdocument
  split at hdocument
  · cases hdocument
  · next r hrun =>
    obtain ⟨-, -, hd⟩ := hyields (.start (Utf8.ofString t)) rfl r.1 r.2 hrun
    exact hd

end Value

end DeletionGuard.Json
