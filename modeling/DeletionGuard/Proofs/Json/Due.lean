import DeletionGuard.Proofs.Json.Shape

/-!
# Places where a value is due

A place in a document is known by what stands before it and by the type that is due there. Nothing
is wrong with what stands before it: each list and each record around it could be read if it ended
there. Where something of another type stands at the place, the reader fails for that reason, and
for the same one whatever is around the place and whatever follows.
-/

namespace DeletionGuard.Json

open Reader (Turn Step iterate)

variable {α σ : Type}

/-- Places in a value: what stands between its start and the place, and what is due there. -/
abbrev Places := List Char → String → Prop

/-- Parts with a comma behind each of them. -/
def partsBefore (f : α → List Char) (xs : List α) : List Char :=
  xs.flatMap fun x => f x ++ [',']

namespace Places

/-- The place of a value itself, and the places within it. -/
def of (due : String) (within : Places) : Places := fun before due' =>
  before = [] ∧ due' = due ∨ within before due'

def none : Places := fun _ _ => False

/-- The places in an element of a list, behind other elements. -/
inductive list (item? : Node → Option α) (item : Places) : Places
  | element (items : Body (Padded Node)) (ws : Blanks) {before : List Char} {due : String}
      (readable : ((Node.list items).list? item?).isSome = true) (place : item before due) :
      list item? item ('[' :: (partsBefore (Padded.render Node.text) items.toList ++
        (ws.chars ++ before))) due

/-- The places in a field of a record, behind other elements of an array or members of an object. -/
inductive record (read? : Node → Option α) (fields : List (String × Places)) : Places
  | element (items : Body (Padded Node)) (ws : Blanks) {field : String × Places}
      {before : List Char} {due : String} (readable : (read? (.list items)).isSome = true)
      (next : fields[items.toList.length]? = some field) (place : field.2 before due) :
      record read? fields ('[' :: (partsBefore (Padded.render Node.text) items.toList ++
        (ws.chars ++ before))) due
  | member (members : Body (Member Node)) (key : Padded Literal) (ws : Blanks)
      {field : String × Places} {before : List Char} {due : String}
      (readable : (read? (.object members)).isSome = true) (known : field ∈ fields)
      (named : key.value.string? = some field.1)
      (unset : ∀ m ∈ members.toList, m.key.value.string? ≠ some field.1)
      (place : field.2 before due) :
      record read? fields ('{' :: (partsBefore (Member.render Node.text) members.toList ++
        (key.render Literal.text ++ ':' :: (ws.chars ++ before)))) due

end Places

/-! ### Texts that do not start with `null` -/

/-- A value starts here that is not `null`. -/
def StartsPresent (cs : List Char) : Prop :=
  ∃ c rest, cs = c :: rest ∧ StartsValue c ∧ c ≠ 'n'

def IsNumberAhead (cs : List Char) : Prop :=
  ∃ (n : Numeral) (c : Char) (rest : List Char), cs = c :: rest ∧ (Node.number n).Head c

theorem Numeral.isNumberAhead (n : Numeral) (rest : List Char) : IsNumberAhead (n.text ++ rest) := by
  obtain ⟨c, cs, htext, hhead⟩ := (Node.number n).exists_text
  exact ⟨n, c, cs ++ rest, congrArg (· ++ rest) htext, hhead⟩

theorem IsNumberAhead.exists_head {cs : List Char} (h : IsNumberAhead cs) :
    ∃ c rest, cs = c :: rest ∧ StartsValue c ∧ ∀ d ∈ ['n', '"', '[', '{'], c ≠ d := by
  obtain ⟨n, c, rest, rfl, hhead⟩ := h
  obtain ⟨hnull, hquote, hlist, hobject⟩ := hhead.kind
  refine ⟨c, rest, rfl, hhead.startsValue, ?_⟩
  simp only [List.forall_mem_cons, List.not_mem_nil, IsEmpty.forall_iff, implies_true, and_true]
  refine ⟨fun h => ?_, fun h => ?_, fun h => ?_, fun h => ?_⟩
  · cases hnull h
  · cases (hquote h).choose_spec
  · cases (hlist h).choose_spec
  · cases (hobject h).choose_spec

theorem IsNumberAhead.startsPresent {cs : List Char} (h : IsNumberAhead cs) :
    StartsPresent cs := by
  obtain ⟨c, rest, rfl, hc, hne⟩ := h.exists_head
  exact ⟨c, rest, rfl, hc, hne 'n' (by decide)⟩

theorem startsPresent_list (cs : List Char) : StartsPresent ('[' :: cs) :=
  ⟨_, _, rfl, ⟨by decide, by decide⟩, by decide⟩

theorem startsPresent_object (cs : List Char) : StartsPresent ('{' :: cs) :=
  ⟨_, _, rfl, ⟨by decide, by decide⟩, by decide⟩

/-! ### Reading up to a place -/

/-- Where a number stands at one of the places, `v` fails for what is wrong with the number. -/
structure Value.FailsAt (v : Value α) (places : Places) : Prop where
  starts : ∀ {before due tail}, places before due → StartsPresent tail →
    StartsPresent (before ++ tail)
  fails : ∀ {before due tail cause}, places before due → IsNumberAhead tail →
    Read.RefusesFor (Read.mismatch due : Read UInt8) tail cause →
      ∀ ws : Blanks, Read.RefusesFor v.read (ws.chars ++ (before ++ tail)) cause

namespace Read

variable {heads : List Char} {due : String} {cause : Cause} {cs : List Char}

theorem refusesFor_opening (hheads : ∀ d ∈ heads, d ∈ ['n', '"', '[', '{'])
    (hstart : IsNumberAhead cs) (h : RefusesFor (mismatch due : Read UInt8) cs cause)
    (ws : Blanks) : RefusesFor (opening (heads.map byte) due) (ws.chars ++ cs) cause := by
  obtain ⟨c, rest, rfl, hc, hne⟩ := hstart.exists_head
  refine Becomes.refusesFor (.trans (.then (becomes_peekToken_cons hc.1 hc.isBlankChar ws rest))
    (.ite_neg ?_)) h
  intro hmem
  obtain ⟨d, hd, heq⟩ := List.mem_map.1 hmem
  have hd' := hheads d hd
  have hlt : ∀ d ∈ ['n', '"', '[', '{'], d.toNat < 0x80 := by simp
  exact hne d hd' ((byte_inj (hlt d hd') hc.1).1 heq).symm

end Read

theorem partsBefore_cons (f : α → List Char) (x : α) (xs : List α) (cs : List Char) :
    partsBefore f (x :: xs) ++ cs = f x ++ ',' :: (partsBefore f xs ++ cs) := by
  simp [partsBefore]

/-- A part in front of others is a part with something behind it. -/
theorem aheadText_partsBefore_cons (f : α → List Char) (first : Bool) (ws : Blanks) (x : α)
    (xs : List α) (cs : List Char) :
    aheadText first ws (partsBefore f (x :: xs) ++ cs) =
      partsText f first ws [x] ++ ',' :: (partsBefore f xs ++ cs) := by
  rw [partsBefore_cons, partsText_cons, aheadText_append]
  simp [Body.renderMore]

theorem partsText_nil_append (f : α → List Char) (ws : Blanks) (cs : List Char) :
    partsText f false ws [] ++ ',' :: cs = aheadText false ws cs := by
  rw [partsText_nil]
  rfl

theorem delimited_ahead (ws : Blanks) (cs : List Char) : Delimited (aheadText false ws cs) :=
  delimited_blanks_append ws (delimited_cons (by decide) cs)

theorem Read.becomes_hasElement_ahead (first : Bool) (ws : Blanks) (x : Padded Node)
    (xs : List (Padded Node)) (cs : List Char) :
    Becomes (hasElement first)
      (aheadText first ws (partsBefore (Padded.render Node.text) (x :: xs) ++ cs)) (pure true)
      (x.value.text ++ aheadText false x.after (partsBefore (Padded.render Node.text) xs ++ cs)) := by
  have hmore := becomes_hasElement_cons first ws x []
    (',' :: (partsBefore (Padded.render Node.text) xs ++ cs))
  rwa [partsText_nil_append, ← aheadText_partsBefore_cons] at hmore

namespace Value

variable {v : Value α} {item : Value α} {read? : Node → Option α} {places : Places}
  {cs : List Char} {cause : Cause}

/-! ### Lists -/

theorem refusesFor_elements (hitem : item.Means read?) (hstart : StartsPresent cs)
    (h : Read.RefusesFor item.read cs cause) (ws' : Blanks) (xs : List (Padded Node))
    (hread : (xs.mapM fun x => read? x.value).isSome = true) (first : Bool) (ws : Blanks)
    (before : List α) :
    Read.RefusesFor (iterate (elementStep item) ⟨first, before⟩)
      (aheadText first ws (partsBefore (Padded.render Node.text) xs ++ (ws'.chars ++ cs)))
      cause := by
  induction xs generalizing first ws before with
  | nil =>
    obtain ⟨c, rest, rfl, hc, -⟩ := hstart
    have hmore := Read.becomes_hasElement first ws ws' hc rest
    exact Read.RefusesFor.iterate
      (Read.Becomes.refusesFor (.trans (.then hmore) (.ite_pos rfl)) h.bind)
  | cons x xs ih =>
    rw [List.mapM_cons] at hread
    cases ha : read? x.value with
    | none =>
      rw [ha] at hread
      cases hread
    | some a =>
      have hxs : (xs.mapM fun x => read? x.value).isSome = true := by
        cases hrest : xs.mapM fun x => read? x.value with
        | none =>
          rw [ha, hrest] at hread
          cases hread
        | some as => rfl
      have hmore := Read.becomes_hasElement_ahead first ws x xs (ws'.chars ++ cs)
      have hx := hitem .none x.value _ (delimited_ahead x.after
        (partsBefore (Padded.render Node.text) xs ++ (ws'.chars ++ cs)))
      rw [ha] at hx
      have hagain : Read.Becomes (iterate (elementStep item) ⟨first, before⟩) _
          (iterate (elementStep item) ⟨false, a :: before⟩) _ :=
        .again (.trans (.then hmore) (.trans (.ite_pos rfl) (.then hx)))
      exact hagain.refusesFor (ih hxs false x.after (a :: before))

theorem FailsAt.text : text.FailsAt (.of "a string" .none) where
  starts h hstart := by
    rcases h with ⟨rfl, -⟩ | h
    · exact hstart
    · exact h.elim
  fails h hstart hmismatch ws := by
    rcases h with ⟨rfl, rfl⟩ | h
    · exact (@Read.refusesFor_opening ['"'] _ _ _ (by simp) hstart hmismatch ws).bind
    · exact h.elim

theorem FailsAt.list (hitem : item.FailsAt places) (hmeans : item.Means read?) :
    item.list.FailsAt (.of "a sequence" (.list read? places)) where
  starts h hstart := by
    rcases h with ⟨rfl, -⟩ | h
    · exact hstart
    · cases h
      exact startsPresent_list _
  fails h hstart hmismatch ws := by
    rcases h with ⟨rfl, rfl⟩ | h
    · exact (@Read.refusesFor_opening ['['] _ _ _ (by simp) hstart hmismatch ws).bind
    · obtain ⟨items, ws', hread, hplace⟩ := h
      have hvalue := hitem.fails hplace hstart hmismatch .none
      have hrest := refusesFor_elements hmeans (hitem.starts hplace hstart.startsPresent) hvalue ws'
        items.toList hread true .none []
      rw [List.cons_append, List.append_assoc, List.append_assoc]
      exact Read.Becomes.refusesFor
        (.then (Read.becomes_opening ⟨by decide, by decide⟩ (by decide) ws _)) hrest.bind

theorem FailsAt.orNull (hv : v.FailsAt places) (set : α → σ → σ) :
    (v.orNull set).FailsAt places where
  starts := hv.starts
  fails h hstart hmismatch ws := by
    obtain ⟨c, rest, htext, hc, hne⟩ := hv.starts h hstart.startsPresent
    have hfails := hv.fails h hstart hmismatch .none
    rw [htext] at hfails ⊢
    have hnull : ¬ some (byte c) = some (byte 'n') := by
      rwa [Option.some.injEq, Read.byte_inj hc.1 (by decide)]
    exact Read.Becomes.refusesFor
      (.trans (.then (Read.becomes_peekToken_cons hc.1 hc.isBlankChar ws rest)) (.ite_neg hnull))
      hfails.bind

/-! ### Records -/

variable {fields : List (Field σ)} {change? : String → Node → Option (σ → σ)} {f : Field σ}

theorem refusesFor_positional (hfields : Settles fields change?) (hstart : StartsPresent cs)
    (h : Read.RefusesFor f.value.read cs cause) (ws' : Blanks) (xs : List (Padded Node))
    (hnext : fields[xs.length]? = some f) (first : Bool) (ws : Blanks) (s : σ)
    (hread : (settle? change? s
      ((fields.map (·.key)).zip (xs.map (·.value)))).isSome = true) :
    Read.RefusesFor (positional fields first s)
      (aheadText first ws (partsBefore (Padded.render Node.text) xs ++ (ws'.chars ++ cs)))
      cause := by
  induction fields generalizing xs first ws s with
  | nil => cases hnext
  | cons g fields ih =>
    obtain ⟨hg, hfields⟩ := List.forall_mem_cons.1 hfields
    cases xs with
    | nil =>
      obtain rfl : g = f := Option.some.inj hnext
      obtain ⟨c, rest, rfl, hc, -⟩ := hstart
      have hmore := Read.becomes_hasElement first ws ws' hc rest
      exact Read.Becomes.refusesFor (.trans (.then hmore) (.ite_pos rfl)) h.bind
    | cons x xs =>
      rw [List.map_cons, List.map_cons, List.zip_cons_cons, settle?_cons] at hread
      cases hchange : change? g.key x.value with
      | none =>
        rw [hchange] at hread
        cases hread
      | some c =>
        rw [hchange] at hread
        have hmore := Read.becomes_hasElement_ahead first ws x xs (ws'.chars ++ cs)
        have hx := hg .none x.value _ (delimited_ahead x.after
          (partsBefore (Padded.render Node.text) xs ++ (ws'.chars ++ cs)))
        rw [hchange] at hx
        have hnextField : Read.Becomes (positional (g :: fields) first s) _
            (positional fields false (c s)) _ :=
          .trans (.then hmore) (.trans (.ite_pos rfl) (.then hx))
        exact hnextField.refusesFor (ih hfields xs hnext false x.after (c s) hread)

/-- The member that has the place in its value is read up to the place. -/
theorem refusesFor_memberTurn {key : Padded Literal} (hkey : key.value.string? = some f.key)
    (hfind : fields.find? (·.key == f.key) = some f)
    (h : Read.RefusesFor f.value.read cs cause) {keys : List String} (hunset : f.key ∉ keys)
    (first : Bool) (ws : Blanks) (s : σ) :
    Read.RefusesFor ((memberStep fields).turn ⟨first, keys, s⟩)
      (aheadText first ws (key.render Literal.text ++ ':' :: cs)) cause := by
  have hmember : Read.RefusesFor (member fields ⟨first, keys, s⟩ f.key)
      (key.after.chars ++ ':' :: cs) cause := by
    unfold member
    rw [hfind]
    dsimp only
    rw [if_neg hunset]
    exact Read.Becomes.refusesFor (.then (becomes_colon key.after cs)) h.bind
  have htext := Read.gives_text key.value (key.after.chars ++ ':' :: cs)
  rw [hkey] at htext
  have hrender : key.render Literal.text ++ ':' :: cs = key.before.chars ++
      '"' :: (piecesText key.value.pieces ++ '"' :: (key.after.chars ++ ':' :: cs)) := by
    simp [Padded.render, Literal.text]
  rw [hrender]
  refine Read.Becomes.refusesFor (.trans (.then (Read.becomes_hasMember first ws key.before _))
    (.ite_pos rfl)) ?_
  refine Read.Becomes.refusesFor (.then (Read.becomes_nextIn .string (by decide) _)) ?_
  exact Read.Becomes.refusesFor (.then htext) hmember.bind

theorem becomes_member_ahead (hfields : Settles fields change?) {m : Member Node} {name : String}
    (hname : m.key.value.string? = some name) {first : Bool} {keys : List String} {s : σ}
    {next : ObjectState σ}
    (hnext : (if name ∈ fields.map (·.key) then
        if name ∈ keys then none
        else (change? name m.value.value).map fun c => ⟨false, name :: keys, c s⟩
      else some ⟨false, keys, s⟩) = some next)
    (ms : List (Member Node)) (ws : Blanks) (cs : List Char) :
    Read.Becomes (iterate (memberStep fields) ⟨first, keys, s⟩)
      (aheadText first ws (partsBefore (Member.render Node.text) (m :: ms) ++ cs))
      (iterate (memberStep fields) next)
      (aheadText false m.value.after (partsBefore (Member.render Node.text) ms ++ cs)) := by
  have hturn := becomes_memberTurn fields ⟨first, keys, s⟩ ws m []
    (',' :: (partsBefore (Member.render Node.text) ms ++ cs))
  have hkey := Read.gives_text m.key.value (m.key.after.chars ++ ':' :: (m.value.before.chars ++
    (m.value.value.text ++
      aheadText false m.value.after (partsBefore (Member.render Node.text) ms ++ cs))))
  have hmember := gives_member hfields first keys s name m.key.after m.value.before m.value.value
    (delimited_ahead m.value.after (partsBefore (Member.render Node.text) ms ++ cs))
  rw [partsText_nil_append, ← aheadText_partsBefore_cons] at hturn
  rw [hname] at hkey
  rw [hnext] at hmember
  exact .again (hturn.trans (.trans (.then hkey) (.then hmember)))

/-- Behind a member that can be read the others can be read, and it takes no key but its own. -/
theorem exists_becomes_member (hfields : Settles fields change?) {key : String} {m : Member Node}
    (hm : m.key.value.string? ≠ some key) (ms : List (Member Node)) {keys : List String}
    (hunset : key ∉ keys) {s : σ}
    (hread : (((m :: ms).mapM Member.entry?).bind
      (settleMembers? (fields.map (·.key)) change? keys s)).isSome = true) :
    ∃ keys' s', key ∉ keys' ∧
      ((ms.mapM Member.entry?).bind
        (settleMembers? (fields.map (·.key)) change? keys' s')).isSome = true ∧
      ∀ first ws cs, Read.Becomes (iterate (memberStep fields) ⟨first, keys, s⟩)
        (aheadText first ws (partsBefore (Member.render Node.text) (m :: ms) ++ cs))
        (iterate (memberStep fields) ⟨false, keys', s'⟩)
        (aheadText false m.value.after (partsBefore (Member.render Node.text) ms ++ cs)) := by
  cases hname : m.key.value.string? with
  | none =>
    rw [List.mapM_cons, Member.entry?, hname] at hread
    cases hread
  | some name =>
    rw [entries_bind hname] at hread
    by_cases hknown : name ∈ fields.map (·.key)
    · by_cases htwice : name ∈ keys
      · simp only [settleMembers?_twice hknown htwice, Option.bind_fun_none] at hread
        cases hread
      · simp only [settleMembers?_known hknown] at hread
        cases hchange : change? name m.value.value with
        | none =>
          simp only [hchange, Option.bind_none, Option.bind_fun_none] at hread
          cases hread
        | some c =>
          simp only [hchange, Option.bind_some] at hread
          have hne : key ≠ name := by
            rintro rfl
            exact hm hname
          refine ⟨name :: keys, c s, List.not_mem_cons_of_ne_of_not_mem hne hunset, hread, ?_⟩
          intro first ws cs
          apply becomes_member_ahead hfields hname
          rw [if_pos hknown, if_neg htwice, hchange, Option.map_some]
    · simp only [settleMembers?_unknown hknown] at hread
      refine ⟨keys, s, hunset, hread, ?_⟩
      intro first ws cs
      apply becomes_member_ahead hfields hname
      rw [if_neg hknown]

theorem refusesFor_members (hfields : Settles fields change?) {key : Padded Literal}
    (hkey : key.value.string? = some f.key) (hfind : fields.find? (·.key == f.key) = some f)
    (h : Read.RefusesFor f.value.read cs cause) (ms : List (Member Node))
    (hms : ∀ m ∈ ms, m.key.value.string? ≠ some f.key) {keys : List String}
    (hunset : f.key ∉ keys) (first : Bool) (ws : Blanks) (s : σ)
    (hread : ((ms.mapM Member.entry?).bind
      (settleMembers? (fields.map (·.key)) change? keys s)).isSome = true) :
    Read.RefusesFor (iterate (memberStep fields) ⟨first, keys, s⟩)
      (aheadText first ws (partsBefore (Member.render Node.text) ms ++
        (key.render Literal.text ++ ':' :: cs))) cause := by
  induction ms generalizing first ws keys s with
  | nil => exact (refusesFor_memberTurn hkey hfind h hunset first ws s).iterate
  | cons m ms ih =>
    obtain ⟨hm, hms⟩ := List.forall_mem_cons.1 hms
    obtain ⟨keys', s', hunset', hread', hbecomes⟩ :=
      exists_becomes_member hfields hm ms hunset hread
    exact (hbecomes first ws _).refusesFor (ih hms hunset' false m.value.after s' hread')

theorem FailsAt.record {shape : Shape σ} {read? : Node → Option σ}
    {fields : List (String × Places)} (hsettles : Settles shape.fields change?)
    (hread : ∀ n : Node, read? n =
      (n.fields? (shape.fields.map (·.key))).bind (settle? change? shape.empty))
    (hnames : fields.map (·.1) = shape.fields.map (·.key))
    (hfields : ∀ f ∈ shape.fields, ∀ p ∈ fields, p.1 = f.key → f.value.FailsAt p.2) :
    (Value.record shape).FailsAt (.of shape.phrase (.record read? fields)) where
  starts h hstart := by
    rcases h with ⟨rfl, -⟩ | h
    · exact hstart
    · cases h with
      | element => exact startsPresent_list _
      | member => exact startsPresent_object _
  fails h hstart hmismatch ws := by
    rcases h with ⟨rfl, rfl⟩ | h
    · have hopening := @Read.refusesFor_opening ['[', '{'] _ _ _ (by simp) hstart hmismatch ws
      exact hopening.bind
    · cases h with
      | @element items ws' p before _ hreadable hnext hplace =>
        have hname : (shape.fields.map (·.key))[items.toList.length]? = some p.1 := by
          rw [← hnames, List.getElem?_map, hnext, Option.map_some]
        rw [List.getElem?_map] at hname
        obtain ⟨f, hf, hkey⟩ := Option.map_eq_some_iff.1 hname
        have hplaces := hfields f (List.mem_of_getElem? hf) p (List.mem_of_getElem? hnext) hkey.symm
        have hvalue := hplaces.fails hplace hstart hmismatch .none
        have hstarts := hplaces.starts hplace hstart.startsPresent
        have hsettled : (settle? change? shape.empty ((shape.fields.map (·.key)).zip
            (items.toList.map (·.value)))).isSome = true := by
          rw [hread, Node.fields?] at hreadable
          split at hreadable
          · exact hreadable
          · cases hreadable
        have hrest := refusesFor_positional hsettles hstarts hvalue ws' items.toList hf true .none
          shape.empty hsettled
        rw [List.cons_append, List.append_assoc, List.append_assoc]
        refine Read.Becomes.refusesFor (.trans
          (.then (Read.becomes_opening ⟨by decide, by decide⟩ (by decide) ws _)) (.ite_pos rfl)) ?_
        exact hrest.bind
      | @member members key ws' p before _ hreadable hknown hnamed hunset hplace =>
        obtain ⟨f, hf, hkey⟩ : ∃ f ∈ shape.fields, f.key = p.1 := by
          rw [← List.mem_map, ← hnames]
          exact List.mem_map_of_mem hknown
        obtain ⟨g, hfind⟩ : ∃ g, shape.fields.find? (·.key == p.1) = some g := by
          rw [← Option.isSome_iff_exists, List.find?_isSome]
          exact ⟨f, hf, by simpa using hkey⟩
        have hg : g.key = p.1 := by simpa using List.find?_some hfind
        have hplaces := hfields g (List.mem_of_find?_eq_some hfind) p hknown hg.symm
        have hvalue := hplaces.fails hplace hstart hmismatch ws'
        rw [hread, object_fields?_bind] at hreadable
        rw [← hg] at hnamed hunset hfind
        have hrest := refusesFor_members hsettles hnamed hfind hvalue members.toList hunset
          List.not_mem_nil true .none shape.empty hreadable
        rw [List.cons_append, List.append_assoc, List.append_assoc, List.cons_append,
          List.append_assoc]
        refine Read.Becomes.refusesFor (.trans
          (.then (Read.becomes_opening ⟨by decide, by decide⟩ (by decide) ws _))
          (.ite_neg (by decide))) ?_
        exact hrest.bind

end Value

end DeletionGuard.Json
