import DeletionGuard.Json.Skip
import DeletionGuard.Proofs.Json.Literal
import DeletionGuard.Proofs.Json.Number

/-!
# Values that are skipped

The skipper keeps a stack of the lists and objects that are open. It passes the text of any syntax
tree, however deep, and comes back with the stack that it had; and what it passes with an empty
stack is the text of one syntax tree.
-/

namespace DeletionGuard.Json

open Reader (Turn Step iterate runSteps)

/-! ### First characters -/

def StartsValue (c : Char) : Prop :=
  c.toNat < 0x80 ∧ Read.startsValue (byte c) = true

theorem StartsValue.isBlankChar {c : Char} (h : StartsValue c) : isBlankChar c = false := by
  have hall : ∀ n < 0x80, Read.startsValue (byte (Char.ofNat n)) = true →
      Json.isBlankChar (Char.ofNat n) = false := by decide +kernel
  simpa using hall c.toNat h.1 (by simpa using h.2)

theorem startsValue_of_isDigit {c : Char} (h : c.isDigit = true) : StartsValue c := by
  refine ⟨toNat_lt_of_isDigit h, ?_⟩
  have hdigit : isDigit (byte c) = true := by rwa [Read.isDigit_byte (toNat_lt_of_isDigit h)]
  simp [Read.startsValue, hdigit]

/-- A number starts with a digit, after its sign. -/
theorem Numeral.exists_magnitude (n : Numeral) :
    ∃ c cs, n.magnitude = c :: cs ∧ c.isDigit = true := by
  obtain ⟨c, cs, hchars⟩ := List.exists_cons_of_ne_nil n.whole.ne_nil
  exact ⟨c, cs ++ (fractionText n.fraction ++ exponentText n.exponent),
    by rw [magnitude, hchars, List.cons_append], n.whole.digits c (hchars ▸ List.mem_cons_self ..)⟩

/-- The characters that a value of the kind of `n` starts with. -/
def Node.Head : Node → Char → Prop
  | null, c => c = 'n'
  | boolean b, c => c = if b then 't' else 'f'
  | number _, c => c = '-' ∨ c.isDigit = true
  | string _, c => c = '"'
  | list _, c => c = '['
  | object _, c => c = '{'

theorem Node.Head.startsValue {n : Node} {c : Char} (h : n.Head c) : StartsValue c := by
  cases n with
  | boolean b => cases b <;> cases h <;> exact ⟨by decide, by decide⟩
  | number n =>
    rcases h with rfl | h
    · exact ⟨by decide, by decide⟩
    · exact startsValue_of_isDigit h
  | _ => cases h; exact ⟨by decide, by decide⟩

theorem Node.exists_text (n : Node) : ∃ c cs, n.text = c :: cs ∧ n.Head c := by
  cases n with
  | boolean b => cases b <;> exact ⟨_, _, rfl, rfl⟩
  | number n =>
    rw [text, Numeral.text]
    split
    · exact ⟨_, _, rfl, .inl rfl⟩
    · obtain ⟨c, cs, hcs, hc⟩ := n.exists_magnitude
      exact ⟨c, cs, hcs, .inr hc⟩
  | _ => exact ⟨_, _, rfl, rfl⟩

/-! ### The parts of lists and objects -/

namespace Frame

/-- What stands between the commas. -/
def Part : Frame → Type
  | list => Padded Node
  | object => Member Node

variable {frame : Frame}

def opener : Frame → Char
  | list => '['
  | object => '{'

def closer : Frame → Char
  | list => ']'
  | object => '}'

def node : (frame : Frame) → Body frame.Part → Node
  | list, items => .list items
  | object, members => .object members

namespace Part

def text : {frame : Frame} → frame.Part → List Char
  | list, x => Padded.render Node.text x
  | object, m => Member.render Node.text m

def value : {frame : Frame} → frame.Part → Padded Node
  | list, x => x
  | object, m => Member.value m

/-- The key and the colon. -/
def lead : {frame : Frame} → frame.Part → List Char
  | list, _ => []
  | object, m => (Member.key m).render Literal.text ++ [':']

theorem text_eq (p : frame.Part) : p.text = p.lead ++ p.value.render Node.text := by
  cases frame with
  | list => rfl
  | object => simp [text, lead, value, Member.render]

end Part

theorem closing_eq (frame : Frame) : frame.closing = byte frame.closer := by
  cases frame <;> rfl

theorem closer_lt (frame : Frame) : frame.closer.toNat < 0x80 := by
  cases frame <;> decide

theorem isBlankChar_closer (frame : Frame) : isBlankChar frame.closer = false := by
  cases frame <;> decide

theorem text_node (frame : Frame) (parts : Body frame.Part) :
    (frame.node parts).text = frame.opener :: parts.render Part.text ++ [frame.closer] := by
  cases frame
  · exact Node.text_list parts
  · exact Node.text_object parts

end Frame

theorem delimited_comma (cs : List Char) : Delimited (',' :: cs) :=
  delimited_cons (by decide) cs

theorem delimited_closer (frame : Frame) (cs : List Char) : Delimited (frame.closer :: cs) := by
  cases frame <;> exact delimited_cons (by decide) cs

/-- What follows a part of a list or object cannot be taken for more of a number. -/
theorem delimited_renderMore (frame : Frame) (parts : List frame.Part) (cs : List Char) :
    Delimited (Body.renderMore Frame.Part.text parts ++ frame.closer :: cs) := by
  cases parts with
  | nil => exact delimited_closer frame cs
  | cons p parts => exact delimited_comma _

namespace Read

variable {outer : List Frame} {frame : Frame} {rest mid cs : List Char}

/-! ### Every value is passed -/

theorem run_skipValue (c : Cursor) :
    skipValue.run c = (iterate skipper (.before [])).run c := by
  have hturn : skipper.turn (.before []) = skipHead [] >>= fun s => pure (.again s) := rfl
  rw [Reader.run_iterate, hturn, skipValue, Reader.run_bind, Reader.run_bind]
  cases (skipHead []).run c with
  | error fault => rfl
  | ok r => rfl

/-- A literal from its opening quote on, with blanks before it. -/
theorem becomes_skipKey (key : Padded Literal) (cs : List Char) :
    Becomes skipKey (key.render Literal.text ++ ':' :: cs) (pure ()) cs := by
  obtain ⟨before, ⟨pieces⟩, after⟩ := key
  have htext : Padded.render Literal.text ⟨before, ⟨pieces⟩, after⟩ ++ ':' :: cs =
      before.chars ++ '"' :: (piecesText pieces ++ '"' :: (after.chars ++ ':' :: cs)) := by
    simp [Padded.render, Literal.text]
  rw [htext]
  refine .trans (.then (becomes_peekToken_cons (by decide) (by decide) before _)) ?_
  refine .trans (.ite_pos rfl) (.trans (.then (becomes_discard (by decide) _)) ?_)
  refine .trans (.then (becomes_skipText pieces _)) ?_
  refine .trans (.then (becomes_peekToken_cons (by decide) (by decide) after _)) ?_
  exact .trans (.ite_pos rfl) (becomes_discard (by decide) cs)

theorem becomes_skipSeparator (outer : List Frame) (p : frame.Part) (cs : List Char) :
    Becomes (skipSeparator frame outer (byte ',')) (p.lead ++ cs)
      (pure (.before (frame :: outer))) cs := by
  unfold skipSeparator
  refine .trans (.ite_pos rfl) ?_
  cases frame with
  | list => exact .ite_neg (by decide)
  | object =>
    have hlead : Frame.Part.lead p ++ cs = (Member.key p).render Literal.text ++ ':' :: cs := by
      simp [Frame.Part.lead]
    rw [hlead]
    exact .trans (.ite_pos rfl) (.then (becomes_skipKey _ cs))

/-- What comes before the first value is passed, and blanks perhaps. -/
theorem becomes_enter (outer : List Frame) (p : frame.Part) (cs : List Char) :
    ∃ ws : Blanks, Becomes (enter frame outer) (p.text ++ cs) (pure (.before (frame :: outer)))
      (ws.chars ++ (p.value.value.text ++ (p.value.after.chars ++ cs))) := by
  unfold enter
  cases frame with
  | list =>
    obtain ⟨before, n, after⟩ := p
    obtain ⟨c, cs', hn, hhead⟩ := n.exists_text
    have hc := hhead.startsValue
    refine ⟨.none, ?_⟩
    have htext : @Frame.Part.text .list ⟨before, n, after⟩ ++ cs =
        before.chars ++ c :: (cs' ++ (after.chars ++ cs)) := by
      simp [Frame.Part.text, Padded.render, hn]
    have hclose : byte c ≠ Frame.list.closing := by
      intro h
      have hstart := hc.2
      rw [h] at hstart
      exact absurd hstart (by decide)
    rw [htext]
    refine .trans (.then (becomes_peekToken_cons hc.1 hc.isBlankChar before _)) ?_
    refine .trans (.ite_neg hclose) (.trans (.ite_neg (by decide)) ?_)
    simp only [Frame.Part.value, hn]
    exact .refl _ _
  | object =>
    obtain ⟨⟨before, key, after⟩, value⟩ := p
    refine ⟨value.before, ?_⟩
    let value' := value.before.chars ++ (value.value.text ++ (value.after.chars ++ cs))
    have htext : @Frame.Part.text .object ⟨⟨before, key, after⟩, value⟩ ++ cs =
        before.chars ++ '"' :: (piecesText key.pieces ++ '"' :: (after.chars ++ ':' :: value')) := by
      simp [Frame.Part.text, Member.render, Padded.render, Literal.text, value']
    have hkey : Becomes skipKey
        ('"' :: (piecesText key.pieces ++ '"' :: (after.chars ++ ':' :: value'))) (pure ()) value' := by
      simpa [Padded.render, Literal.text] using becomes_skipKey ⟨.none, key, after⟩ value'
    rw [htext]
    refine .trans (.then (becomes_peekToken_cons (by decide) (by decide) before _)) ?_
    exact .trans (.ite_neg (by decide)) (.trans (.ite_pos rfl) (.then hkey))

theorem becomes_skipNumeral (n : Numeral) (h : Delimited rest) {c : Char} {cs : List Char}
    (hn : n.text = c :: cs) :
    Becomes (skipFrom outer (byte c)) (cs ++ rest) (pure (.after outer)) rest := by
  obtain ⟨d, ds, hmagnitude, hd⟩ := n.exists_magnitude
  have hnumber := becomes_skipNumber n h hmagnitude
  have hlt := toNat_lt_of_isDigit hd
  rw [Numeral.text] at hn
  unfold skipFrom
  by_cases hnegative : n.negative = true
  · rw [if_pos hnegative, hmagnitude] at hn
    obtain ⟨rfl, rfl⟩ := List.cons.inj hn
    refine .trans (.ite_neg (by decide)) (.trans (.ite_neg (by decide)) ?_)
    refine .trans (.ite_neg (by decide)) (.trans (.ite_pos rfl) ?_)
    exact .trans (.then (becomes_next hlt (ds ++ rest))) (.then hnumber)
  · rw [if_neg hnegative, hmagnitude] at hn
    obtain ⟨rfl, rfl⟩ := List.cons.inj hn
    have hne (l : Char) (hl : l.toNat < 0x80) (hl' : l.isDigit = false) : byte d ≠ byte l := by
      rw [Ne, byte_inj hlt hl]
      rintro rfl
      rw [hl'] at hd
      cases hd
    refine .trans (.ite_neg (hne 'n' (by decide) (by decide))) ?_
    refine .trans (.ite_neg (hne 't' (by decide) (by decide))) ?_
    refine .trans (.ite_neg (hne 'f' (by decide) (by decide))) ?_
    refine .trans (.ite_neg (hne '-' (by decide) (by decide))) ?_
    exact .trans (.ite_pos (by rwa [isDigit_byte hlt])) (.then hnumber)

/-- A value is started after blanks by its first character. -/
theorem becomes_before {c : Char} (hc : StartsValue c) {s : SkipState} (ws : Blanks)
    (h : Becomes (skipFrom outer (byte c)) cs (pure s) mid) :
    Becomes (iterate skipper (.before outer)) (ws.chars ++ c :: cs) (iterate skipper s) mid := by
  have hhead : Becomes (skipHead outer) (ws.chars ++ c :: cs) (pure s) mid :=
    .trans (.then (becomes_peekToken_cons hc.1 hc.isBlankChar ws cs))
      (.trans (.ite_pos hc.2) (.trans (.then (becomes_nextIn .value hc.1 cs)) h))
  exact .again (.then hhead)

/-- A list or object is left at its closing bracket. -/
theorem becomes_after_closer (frame : Frame) (ws : Blanks) (rest : List Char) :
    Becomes (iterate skipper (.after (frame :: outer))) (ws.chars ++ frame.closer :: rest)
      (iterate skipper (.after outer)) rest := by
  have hlt := frame.closer_lt
  refine .again (.trans (.then (becomes_peekToken_cons hlt frame.isBlankChar_closer ws rest)) ?_)
  refine .trans (.ite_pos (.inr frame.closing_eq.symm)) ?_
  refine .trans (.then (becomes_nextIn .value hlt rest)) (.then ?_)
  unfold skipSeparator
  exact .ite_neg (by cases frame <;> decide)

/-- After a comma the next part is up to its value. -/
theorem becomes_after_comma (ws : Blanks) (p : frame.Part) (cs : List Char) :
    Becomes (iterate skipper (.after (frame :: outer))) (ws.chars ++ ',' :: (p.lead ++ cs))
      (iterate skipper (.before (frame :: outer))) cs := by
  refine .again ?_
  refine .trans (.then (becomes_peekToken_cons (by decide) (by decide) ws (p.lead ++ cs))) ?_
  refine .trans (.ite_pos (.inl rfl)) ?_
  refine .trans (.then (becomes_nextIn .value (by decide) (p.lead ++ cs))) ?_
  exact .then (becomes_skipSeparator outer p cs)

/-- The text of `n` is passed with any stack, and blanks before it. -/
def Skips (n : Node) : Prop :=
  ∀ (outer : List Frame) (ws : Blanks) (rest : List Char), Delimited rest →
    Becomes (iterate skipper (.before outer)) (ws.chars ++ (n.text ++ rest))
      (iterate skipper (.after outer)) rest

/-- A list or object is passed from behind one of its parts to its end. -/
theorem becomes_after_parts {parts : List frame.Part} (hparts : ∀ p ∈ parts, Skips p.value.value)
    (ws : Blanks) (rest : List Char) :
    Becomes (iterate skipper (.after (frame :: outer)))
      (ws.chars ++ (Body.renderMore Frame.Part.text parts ++ frame.closer :: rest))
      (iterate skipper (.after outer)) rest := by
  induction parts generalizing ws with
  | nil => exact becomes_after_closer frame ws rest
  | cons p parts ih =>
    obtain ⟨hp, hparts⟩ := List.forall_mem_cons.1 hparts
    let end' := Body.renderMore Frame.Part.text parts ++ frame.closer :: rest
    have hend : Delimited (p.value.after.chars ++ end') :=
      delimited_blanks_append _ (delimited_renderMore frame parts rest)
    have htext : Body.renderMore Frame.Part.text (p :: parts) ++ frame.closer :: rest =
        ',' :: (p.lead ++ (p.value.before.chars ++
          (p.value.value.text ++ (p.value.after.chars ++ end')))) := by
      simp [Body.renderMore, Frame.Part.text_eq, Padded.render, end']
    rw [htext]
    exact .trans (becomes_after_comma ws p _)
      (.trans (hp _ p.value.before _ hend) (ih hparts p.value.after))

theorem becomes_skipBracket (outer : List Frame) (frame : Frame) (cs : List Char)
    {s : SkipState} (h : Becomes (enter frame outer) cs (pure s) mid) :
    Becomes (skipFrom outer (byte frame.opener)) cs (pure s) mid := by
  unfold skipFrom
  cases frame with
  | list =>
    refine .trans (.ite_neg (by decide)) (.trans (.ite_neg (by decide)) ?_)
    refine .trans (.ite_neg (by decide)) (.trans (.ite_neg (by decide)) ?_)
    exact .trans (.ite_neg (by decide)) (.trans (.ite_neg (by decide)) (.trans (.ite_pos rfl) h))
  | object =>
    refine .trans (.ite_neg (by decide)) (.trans (.ite_neg (by decide)) ?_)
    refine .trans (.ite_neg (by decide)) (.trans (.ite_neg (by decide)) ?_)
    refine .trans (.ite_neg (by decide)) (.trans (.ite_neg (by decide)) ?_)
    exact .trans (.ite_neg (by decide)) h

theorem startsValue_opener (frame : Frame) : StartsValue frame.opener := by
  cases frame <;> exact ⟨by decide, by decide⟩

theorem becomes_enter_closer (frame : Frame) (outer : List Frame) (ws : Blanks) (rest : List Char) :
    Becomes (enter frame outer) (ws.chars ++ frame.closer :: rest) (pure (.after outer)) rest := by
  refine .trans (.then (becomes_peekToken_cons frame.closer_lt frame.isBlankChar_closer ws rest)) ?_
  exact .trans (.ite_pos frame.closing_eq.symm) (.then (becomes_discard frame.closer_lt rest))

/-- A list or object is passed if its values are. -/
theorem skips_node {parts : Body frame.Part} (hparts : ∀ p ∈ parts.toList, Skips p.value.value) :
    Skips (frame.node parts) := by
  intro outer ws rest hrest
  rw [Frame.text_node]
  cases parts with
  | blank inside =>
    have hbracket :=
      becomes_skipBracket outer frame _ (becomes_enter_closer frame outer inside rest)
    simpa [Body.render] using becomes_before (startsValue_opener frame) ws hbracket
  | filled p parts =>
    obtain ⟨hp, hparts⟩ := List.forall_mem_cons.1 hparts
    let end' := Body.renderMore Frame.Part.text parts ++ frame.closer :: rest
    obtain ⟨ws', henter⟩ := becomes_enter outer p end'
    have hbracket := becomes_skipBracket outer frame _ henter
    have hopen := becomes_before (startsValue_opener frame) ws hbracket
    have hend : Delimited (p.value.after.chars ++ end') :=
      delimited_blanks_append _ (delimited_renderMore frame parts rest)
    have hall := hopen.trans ((hp _ ws' _ hend).trans
      (becomes_after_parts hparts p.value.after rest))
    simpa [Body.render, end'] using hall

theorem skips (n : Node) : Skips n := by
  have hword (w : List Char) (hw : ∀ c ∈ w, c.toNat < 0x80) (outer : List Frame)
      (rest : List Char) :
      Becomes (do word w; return SkipState.after outer) (w ++ rest) (pure (.after outer)) rest :=
    .then (becomes_word hw rest)
  induction n with
  | null =>
    intro outer ws rest _
    exact becomes_before ⟨by decide, by decide⟩ ws
      (.trans (.ite_pos rfl) (hword "ull".toList (by simp) outer rest))
  | boolean b =>
    intro outer ws rest _
    cases b with
    | true =>
      exact becomes_before ⟨by decide, by decide⟩ ws (.trans (.ite_neg (by decide))
        (.trans (.ite_pos rfl) (hword "rue".toList (by simp) outer rest)))
    | false =>
      exact becomes_before ⟨by decide, by decide⟩ ws (.trans (.ite_neg (by decide))
        (.trans (.ite_neg (by decide)) (.trans (.ite_pos rfl)
          (hword "alse".toList (by simp) outer rest))))
  | number n =>
    intro outer ws rest hrest
    obtain ⟨c, cs, hn, hhead⟩ := (Node.number n).exists_text
    rw [hn]
    exact becomes_before hhead.startsValue ws (becomes_skipNumeral n hrest hn)
  | string l =>
    intro outer ws rest _
    have htext : (Node.string l).text ++ rest = '"' :: (piecesText l.pieces ++ '"' :: rest) := by
      simp [Node.text, Literal.text]
    rw [htext]
    refine becomes_before ⟨by decide, by decide⟩ ws ?_
    refine .trans (.ite_neg (by decide)) (.trans (.ite_neg (by decide)) ?_)
    refine .trans (.ite_neg (by decide)) (.trans (.ite_neg (by decide)) ?_)
    exact .trans (.ite_neg (by decide)) (.trans (.ite_pos rfl) (.then (becomes_skipText _ _)))
  | list items ih => exact @skips_node .list items ih
  | object members ih => exact @skips_node .object members ih

/-- Whatever value comes next, it is passed to its end and no further. -/
theorem becomes_skipValue (ws : Blanks) (n : Node) (h : Delimited rest) :
    Becomes skipValue (ws.chars ++ (n.text ++ rest)) (pure ()) rest := by
  intro c hc
  obtain ⟨c', hc', hrun⟩ := skips n [] ws rest h c hc
  exact ⟨c', hc', by rw [run_skipValue, hrun, Reader.run_iterate]; rfl⟩

/-! ### Only values are passed -/

/-- After a part of the innermost frame, `cs` goes on to the end of all frames and then with
`rest`. -/
def Closes : List Frame → List Char → List Char → Prop
  | [], cs, rest => cs = rest
  | frame :: outer, cs, rest => ∃ (ws : Blanks) (parts : List frame.Part) (mid : List Char),
      cs = ws.chars ++ (Body.renderMore Frame.Part.text parts ++ frame.closer :: mid) ∧
        Closes outer mid rest

/-- What the skipper has passed when it is done with `rest` left. -/
def Passed : SkipState → List Char → List Char → Prop
  | .before outer, cs, rest => ∃ (ws : Blanks) (n : Node) (mid : List Char),
      cs = ws.chars ++ (n.text ++ mid) ∧ Closes outer mid rest
  | .after outer, cs, rest => Closes outer cs rest

/-- What may stand before a value in a part of `frame`. -/
def Leads (frame : Frame) (lead : List Char) : Prop :=
  ∀ v : Padded Node, ∃ p : frame.Part, p.text = lead ++ v.render Node.text

theorem leads_blanks (ws : Blanks) : Leads .list ws.chars := by
  intro ⟨before, n, after⟩
  exact ⟨⟨ws.append before, n, after⟩, by simp [Frame.Part.text, Padded.render]⟩

theorem leads_key (ws : Blanks) (key : Padded Literal) :
    Leads .object (ws.chars ++ (key.render Literal.text ++ [':'])) := by
  intro v
  obtain ⟨before, l, after⟩ := key
  exact ⟨⟨⟨ws.append before, l, after⟩, v⟩,
    by simp [Frame.Part.text, Member.render, Padded.render]⟩

/-- A value inside `frame` makes a part of it, which others may follow. -/
theorem Passed.part {lead : List Char} (hlead : Leads frame lead)
    (h : Passed (.before (frame :: outer)) mid rest) :
    ∃ (p : frame.Part) (parts : List frame.Part) (mid' : List Char),
      lead ++ mid = p.text ++ (Body.renderMore Frame.Part.text parts ++ frame.closer :: mid') ∧
        Closes outer mid' rest := by
  obtain ⟨ws, n, _, rfl, ws', parts, mid', rfl, hclose⟩ := h
  obtain ⟨p, hp⟩ := hlead ⟨ws, n, ws'⟩
  exact ⟨p, parts, mid', by simp [hp, Padded.render], hclose⟩

theorem yields_skipKey (cs : List Char) :
    Yields skipKey cs fun _ rest =>
      ∃ key : Padded Literal, cs = key.render Literal.text ++ ':' :: rest := by
  refine yields_token_bind rfl fun before c cs₁ hcs => ?_
  refine .ite (fun hquote => ?_) fun _ => (refuses_failAhead _).yields
  obtain rfl := (leadByte_eq_byte_iff (by decide)).1 hquote
  refine (Becomes.then (becomes_discard (by decide) cs₁)).yields ?_
  refine (yields_skipText cs₁).bind fun _ cs₂ hps => ?_
  obtain ⟨ps, hcs₁⟩ := hps
  refine yields_token_bind rfl fun after d rest hcs₂ => ?_
  refine .ite (fun hcolon => ?_) fun _ => (refuses_failAhead _).yields
  obtain rfl := (leadByte_eq_byte_iff (by decide)).1 hcolon
  refine (becomes_discard (by decide) rest).yields (.pure ⟨⟨before, ⟨ps⟩, after⟩, ?_⟩)
  simp [hcs, hcs₁, hcs₂, Padded.render, Literal.text]

theorem yields_skipSeparator (frame : Frame) (outer : List Frame) (cs : List Char) :
    Yields (skipSeparator frame outer (byte ',')) cs fun s mid =>
      s = .before (frame :: outer) ∧ ∃ lead, Leads frame lead ∧ cs = lead ++ mid := by
  unfold skipSeparator
  refine (Becomes.ite_pos rfl).yields ?_
  cases frame with
  | list => exact (Becomes.ite_neg (by decide)).yields (.pure ⟨rfl, [], leads_blanks .none, rfl⟩)
  | object =>
    refine (Becomes.ite_pos rfl).yields ((yields_skipKey cs).bind fun _ mid hkey => .pure ⟨rfl, ?_⟩)
    obtain ⟨key, rfl⟩ := hkey
    exact ⟨_, leads_key .none key, by simp⟩

/-- What follows an opening bracket is the body of a list or object, if the rest of it is. -/
theorem yields_enter (frame : Frame) (outer : List Frame) (cs : List Char) :
    Yields (enter frame outer) cs fun s mid => ∀ rest, Passed s mid rest →
      ∃ (parts : Body frame.Part) (mid' : List Char),
        cs = parts.render Frame.Part.text ++ frame.closer :: mid' ∧ Closes outer mid' rest := by
  have hpart {lead mid rest : List Char} (hlead : Leads frame lead)
      (h : Passed (.before (frame :: outer)) mid rest) :
      ∃ (parts : Body frame.Part) (mid' : List Char),
        lead ++ mid = parts.render Frame.Part.text ++ frame.closer :: mid' ∧
          Closes outer mid' rest := by
    obtain ⟨p, parts, mid', htext, hclose⟩ := h.part hlead
    exact ⟨.filled p parts, mid', by simpa [Body.render] using htext, hclose⟩
  refine yields_token_bind rfl fun ws c cs₁ hcs => ?_
  refine .ite (fun hcloser => ?_) fun _ => .ite (fun hobject => ?_) fun hlist => ?_
  · rw [frame.closing_eq, leadByte_eq_byte_iff frame.closer_lt] at hcloser
    subst hcloser
    refine (Becomes.then (becomes_discard frame.closer_lt cs₁)).yields (.pure fun rest h => ?_)
    exact ⟨.blank ws, cs₁, hcs, h⟩
  · subst hobject
    refine (yields_skipKey (c :: cs₁)).bind fun _ mid hkey => .pure fun rest h => ?_
    obtain ⟨key, hkey⟩ := hkey
    have hcs' : cs = (ws.chars ++ (key.render Literal.text ++ [':'])) ++ mid := by simp [hcs, hkey]
    rw [hcs']
    exact hpart (leads_key ws key) h
  · obtain rfl : frame = .list := by cases frame <;> simp_all
    refine .pure fun rest h => ?_
    rw [hcs]
    exact hpart (leads_blanks ws) h

/-- A value that starts with `c` is passed, if the rest of it is. -/
theorem yields_skipFrom (outer : List Frame) {c : Char} (hc : StartsValue c) (cs : List Char) :
    Yields (skipFrom outer (byte c)) cs fun s mid => ∀ rest, Passed s mid rest →
      ∃ (n : Node) (mid' : List Char), c :: cs = n.text ++ mid' ∧ Closes outer mid' rest := by
  have hchar {d : Char} (hd : d.toNat < 0x80) (h : byte c = byte d) : c = d :=
    (byte_inj hc.1 hd).1 h
  have hscalar {n : Node} {mid : List Char} (h : c :: cs = n.text ++ mid) :
      ∀ rest, Passed (.after outer) mid rest →
        ∃ (n : Node) (mid' : List Char), c :: cs = n.text ++ mid' ∧ Closes outer mid' rest :=
    fun _ hrest => ⟨n, mid, h, hrest⟩
  have hword {n : Node} {w : List Char} (hw : ∀ c ∈ w, c.toNat < 0x80) (hn : n.text = c :: w) :
      Yields (do word w; return SkipState.after outer) cs fun s mid => ∀ rest, Passed s mid rest →
        ∃ (n : Node) (mid' : List Char), c :: cs = n.text ++ mid' ∧ Closes outer mid' rest := by
    refine (yields_word hw cs).bind fun _ mid hcs => .pure (hscalar (n := n) ?_)
    rw [hn, hcs, List.cons_append]
  have hbracket (frame : Frame) (h : c = frame.opener) :
      Yields (enter frame outer) cs fun s mid => ∀ rest, Passed s mid rest →
        ∃ (n : Node) (mid' : List Char), c :: cs = n.text ++ mid' ∧ Closes outer mid' rest := by
    refine (yields_enter frame outer cs).mono fun s mid hparts rest hs => ?_
    obtain ⟨parts, mid', hcs, hclose⟩ := hparts rest hs
    exact ⟨frame.node parts, mid', by simp [Frame.text_node, h, hcs], hclose⟩
  unfold skipFrom
  refine .ite (fun h => ?_) fun hn => .ite (fun h => ?_) fun ht => .ite (fun h => ?_) fun hf =>
    .ite (fun h => ?_) fun hminus => .ite (fun h => ?_) fun hdigit =>
      .ite (fun h => ?_) fun hquote => .ite (fun h => ?_) fun hopen => ?_
  · obtain rfl := hchar (by decide) h
    exact hword (n := .null) (by simp) rfl
  · obtain rfl := hchar (by decide) h
    exact hword (n := .boolean true) (by simp) rfl
  · obtain rfl := hchar (by decide) h
    exact hword (n := .boolean false) (by simp) rfl
  · obtain rfl := hchar (by decide) h
    refine yields_next_bind (fun _ => (refuses_fail _).bind.bind.yields)
      (fun d cs₁ hcs hd => ?_) fun b hb => ?_
    · by_cases hdigit : d.isDigit = true
      · refine (yields_skipNumber hdigit cs₁).bind fun _ mid hnumber => .pure ?_
        obtain ⟨n, -, hcs₁⟩ := hnumber
        refine hscalar (n := .number { n with negative := true }) ?_
        rw [hcs, hcs₁]
        rfl
      · have hfails := fails_skipNumber (b := byte d) (by rwa [isDigit_byte hd, ← Bool.not_eq_true])
        exact ((hfails.refuses cs₁).bind).yields
    · have hfails := fails_skipNumber (isDigit_eq_false_of_le hb)
      intro cur
      obtain ⟨fault, hfault⟩ := hfails cur
      exact ⟨fault, by rw [Reader.run_bind, hfault]⟩
  · rw [isDigit_byte hc.1] at h
    refine (yields_skipNumber h cs).bind fun _ mid hnumber => .pure ?_
    obtain ⟨n, hpositive, hcs⟩ := hnumber
    exact hscalar (n := .number n) (by rw [Node.text, Numeral.text, hpositive]; exact hcs)
  · obtain rfl := hchar (by decide) h
    refine (yields_skipText cs).bind fun _ mid hps => .pure ?_
    obtain ⟨ps, hcs⟩ := hps
    exact hscalar (n := .string ⟨ps⟩) (by simp [Node.text, Literal.text, hcs])
  · exact hbracket .list (hchar (by decide) h)
  · refine hbracket .object (hchar (by decide) ?_)
    have hstart := hc.2
    simp only [startsValue, Bool.or_eq_true, beq_iff_eq] at hstart
    tauto

theorem yields_skipHead (outer : List Frame) (cs : List Char) :
    Yields (skipHead outer) cs fun s mid =>
      ∀ rest, Passed s mid rest → Passed (.before outer) cs rest := by
  refine yields_token_bind rfl fun ws c cs₁ hcs => ?_
  refine .ite (fun hstart => ?_) fun _ => (refuses_failAhead _).yields
  have hlt : c.toNat < 0x80 := by
    by_contra hle
    have hall : ∀ n < 256, 0x80 ≤ n → startsValue (UInt8.ofNat n) = false := by decide +kernel
    have hlead := UInt8.le_iff_toNat_le.1 (le_leadByte (Nat.not_lt.1 hle))
    rw [← UInt8.ofNat_toNat (x := leadByte c), hall _ (leadByte c).toNat_lt hlead] at hstart
    cases hstart
  rw [leadByte_of_lt hlt] at hstart
  refine (Becomes.then (becomes_nextIn .value hlt cs₁)).yields ?_
  refine (yields_skipFrom outer ⟨hlt, hstart⟩ cs₁).mono fun s mid hvalue rest hs => ?_
  obtain ⟨n, mid', htext, hclose⟩ := hvalue rest hs
  exact ⟨ws, n, mid', by rw [hcs, htext], hclose⟩

/-- Each turn passes what is due in its state, if the turns after it do. -/
theorem yields_skipStep (s : SkipState) (cs : List Char) :
    Yields (skipper.turn s) cs (Turned (fun _ mid => Passed s cs mid) fun s' mid =>
      ∀ (_ : Unit) rest, Passed s' mid rest → Passed s cs rest) := by
  match s with
  | .before outer => exact (yields_skipHead outer cs).bind fun _ _ h => .pure fun _ => h
  | .after [] => exact .pure rfl
  | .after (frame :: outer) =>
    refine yields_token_bind rfl fun ws c cs₁ hcs => ?_
    refine .ite (fun h => ?_) fun _ => (refuses_failAhead _).yields
    by_cases hcomma : c = ','
    · subst hcomma
      refine (Becomes.then (becomes_nextIn .value (by decide) cs₁)).yields ?_
      refine (yields_skipSeparator frame outer cs₁).bind fun s mid hs =>
        .pure fun _ rest hpassed => ?_
      obtain ⟨rfl, lead, hlead, hcs₁⟩ := hs
      obtain ⟨p, parts, mid', htext, hclose⟩ := hpassed.part hlead
      exact ⟨ws, p :: parts, mid', by simp [Body.renderMore, hcs, hcs₁, htext], hclose⟩
    · rw [leadByte_eq_byte_iff (by decide), frame.closing_eq,
        leadByte_eq_byte_iff frame.closer_lt] at h
      obtain rfl := h.resolve_left hcomma
      refine (Becomes.then (becomes_nextIn .value frame.closer_lt cs₁)).yields ?_
      unfold skipSeparator
      rw [if_neg (by cases frame <;> decide)]
      exact .pure fun _ rest hclose => ⟨ws, [], cs₁, hcs, hclose⟩

/-- What is skipped is the text of one value, with blanks before it. -/
theorem yields_skipValue (cs : List Char) :
    Yields skipValue cs fun _ rest =>
      ∃ (ws : Blanks) (n : Node), cs = ws.chars ++ (n.text ++ rest) := by
  intro c hc a c' hrun
  rw [run_skipValue] at hrun
  obtain ⟨rest, hrest, ws, n, mid, hcs, hmid⟩ :=
    Yields.iterate (Q := fun s cs _ rest => Passed s cs rest) yields_skipStep (.before []) cs c hc
      a c' hrun
  obtain rfl : mid = rest := hmid
  exact ⟨mid, hrest, ws, n, hcs⟩

end Read

end DeletionGuard.Json
