import DeletionGuard.Proofs.Json.Value
import DeletionGuard.Proofs.Json.Written

/-!
# Trees that are read back

Nothing of a tree is lost when it is written: whatever syntax tree has the text that is written
stands for that tree and for no other one. Nothing is assumed of how the text is taken apart, so
this is also to say that it can be taken apart in one way only.
-/

namespace DeletionGuard.Json

namespace Node

mutual

/-- The tree that a syntax tree stands for. A literal stands for the string that `Read.text` gives
for it, a number for nothing. -/
def tree? : Node → Option Tree
  | null => some .null
  | boolean b => some (.boolean b)
  | number _ => none
  | string l => l.string?.map .text
  | list items => (itemTrees? items).map .list
  | object members => (memberTrees? members).map .object

def itemTrees? : Body (Padded Node) → Option (List Tree)
  | .blank _ => some []
  | .filled x xs => do return (← paddedTree? x) :: (← moreItemTrees? xs)

def moreItemTrees? : List (Padded Node) → Option (List Tree)
  | [] => some []
  | x :: xs => do return (← paddedTree? x) :: (← moreItemTrees? xs)

def memberTrees? : Body (Member Node) → Option (List (String × Tree))
  | .blank _ => some []
  | .filled m ms => do return (← memberTree? m) :: (← moreMemberTrees? ms)

def moreMemberTrees? : List (Member Node) → Option (List (String × Tree))
  | [] => some []
  | m :: ms => do return (← memberTree? m) :: (← moreMemberTrees? ms)

def memberTree? : Member Node → Option (String × Tree)
  | ⟨key, value⟩ => do return (← key.value.string?, ← paddedTree? value)

def paddedTree? : Padded Node → Option Tree
  | ⟨_, value, _⟩ => tree? value

end

theorem tree?_list (items : Body (Padded Node)) :
    (list items).tree? = (items.toList.mapM paddedTree?).map Tree.list := by
  have hmore (xs : List (Padded Node)) : moreItemTrees? xs = xs.mapM paddedTree? := by
    induction xs with
    | nil => rfl
    | cons x xs ih => rw [moreItemTrees?, List.mapM_cons, ih]
  cases items with
  | blank ws => rfl
  | filled x xs => rw [tree?, itemTrees?, hmore, Body.toList, List.mapM_cons]

theorem tree?_object (members : Body (Member Node)) :
    (object members).tree? = (members.toList.mapM memberTree?).map Tree.object := by
  have hmore (ms : List (Member Node)) : moreMemberTrees? ms = ms.mapM memberTree? := by
    induction ms with
    | nil => rfl
    | cons m ms ih => rw [moreMemberTrees?, List.mapM_cons, ih]
  cases members with
  | blank ws => rfl
  | filled m ms => rw [tree?, memberTrees?, hmore, Body.toList, List.mapM_cons]

end Node

/-! ### What is written is read back -/

/-- A literal that looks like a written text stands for that text and ends where it does. -/
theorem Literal.string?_of_text {l : Literal} {s : String} {rest rest' : List Char}
    (h : l.text ++ rest = Tree.textChars s ++ rest') : l.string? = some s ∧ rest = rest' := by
  obtain ⟨l', htext, hs⟩ := Tree.exists_literal s
  rw [← htext] at h
  simp only [Literal.text, List.cons_append, List.append_assoc, List.nil_append, List.cons.injEq,
    true_and] at h
  let c : Cursor := .start (Utf8.encode (piecesText l.pieces ++ '"' :: rest))
  have hgives := Read.gives_text l rest
  have hgives' := Read.gives_text l' rest'
  rw [hs] at hgives'
  obtain ⟨c₂, hc₂, hrun₂⟩ := hgives' c (by rw [← h]; rfl)
  cases hl : l.string? with
  | none =>
    rw [hl] at hgives
    obtain ⟨fault, hfault⟩ := hgives c rfl
    rw [hrun₂] at hfault
    cases hfault
  | some s₁ =>
    rw [hl] at hgives
    obtain ⟨c₁, hc₁, hrun₁⟩ := hgives c rfl
    rw [hrun₂] at hrun₁
    cases hrun₁
    exact ⟨rfl, Utf8.encode_injective (hc₁.symm.trans hc₂)⟩

/-- A part of a list or an object ends here. -/
def EndsPart (cs : List Char) : Prop :=
  cs.head? = some ',' ∨ ∃ frame : Frame, cs.head? = some frame.closer

theorem EndsPart.isBlankChar {c : Char} {cs : List Char} (h : EndsPart (c :: cs)) :
    isBlankChar c = false := by
  rcases h with h | ⟨frame, h⟩
  · cases h
    decide
  · cases h
    exact frame.isBlankChar_closer

theorem EndsPart.delimited {cs : List Char} (h : EndsPart cs) : Delimited cs := by
  rcases h with h | ⟨frame, h⟩
  · obtain ⟨cs, rfl⟩ := List.head?_eq_some_iff.1 h
    exact delimited_comma cs
  · obtain ⟨cs, rfl⟩ := List.head?_eq_some_iff.1 h
    exact delimited_closer frame cs

/-- No blanks stand before a character that is no blank itself. -/
theorem Blanks.eq_nil {ws : Blanks} {cs cs' : List Char} {c : Char} (hc : isBlankChar c = false)
    (h : ws.chars ++ cs = c :: cs') : ws.chars = [] := by
  cases hchars : ws.chars with
  | nil => rfl
  | cons b bs =>
    rw [hchars, List.cons_append] at h
    obtain rfl := (List.cons.inj h).1
    rw [ws.blank b (hchars ▸ List.mem_cons_self ..)] at hc
    cases hc

theorem EndsPart.blanks_eq_nil {ws : Blanks} {cs cs' : List Char} (h : EndsPart cs')
    (heq : ws.chars ++ cs = cs') : ws.chars = [] := by
  cases hcs : cs' with
  | nil =>
    rw [hcs] at heq
    exact (List.append_eq_nil_iff.1 heq).1
  | cons c rest =>
    rw [hcs] at heq h
    exact Blanks.eq_nil h.isBlankChar heq

theorem head?_blanks_ne {ws : Blanks} {cs : List Char} {c d : Char} (hc : c ≠ d)
    (hd : isBlankChar d = false) : (ws.chars ++ c :: cs).head? ≠ some d := by
  cases hchars : ws.chars with
  | nil => simpa using hc
  | cons b bs =>
    have hb := ws.blank b (hchars ▸ List.mem_cons_self ..)
    rintro ⟨⟩
    rw [hd] at hb
    cases hb

section Parts

variable {α β : Type} {f : α → List Char} {read? : α → Option β} {g : β → List Char}

/-- Where `g b` is written, `b` is read, and as far as it is written. -/
def ReadsBack (f : α → List Char) (read? : α → Option β) (g : β → List Char) (b : β) : Prop :=
  ∀ (a : α) (rest rest' : List Char), EndsPart rest → EndsPart rest' →
    f a ++ rest = g b ++ rest' → read? a = some b ∧ rest = rest'

theorem endsPart_renderMore (frame : Frame) (as : List α) (rest : List Char) :
    EndsPart (Body.renderMore f as ++ frame.closer :: rest) := by
  cases as with
  | nil => exact .inr ⟨frame, rfl⟩
  | cons a as => exact .inl rfl

theorem readsBack_more {bs : List β} (hparts : ∀ b ∈ bs, ReadsBack f read? g b) {frame : Frame}
    {as : List α} {rest rest' : List Char}
    (h : Body.renderMore f as ++ frame.closer :: rest =
      Body.renderMore g bs ++ frame.closer :: rest') :
    as.mapM read? = some bs ∧ rest = rest' := by
  have hcomma : frame.closer ≠ ',' := by cases frame <;> decide
  induction bs generalizing as with
  | nil =>
    cases as with
    | nil => exact ⟨rfl, (List.cons.inj h).2⟩
    | cons a as => exact absurd (List.cons.inj h).1.symm hcomma
  | cons b bs ih =>
    obtain ⟨hb, hbs⟩ := List.forall_mem_cons.1 hparts
    cases as with
    | nil => exact absurd (List.cons.inj h).1 hcomma
    | cons a as =>
      simp only [Body.renderMore, List.flatMap_cons, List.cons_append, List.append_assoc,
        List.cons.injEq, true_and] at h
      obtain ⟨ha, hmore⟩ := hb a _ _ (endsPart_renderMore frame as rest)
        (endsPart_renderMore frame bs rest') h
      obtain ⟨has, hrest⟩ := ih hbs hmore
      exact ⟨by rw [List.mapM_cons, ha, has]; rfl, hrest⟩

/-- What stands between brackets is read back part by part. -/
theorem readsBack_body {bs : List β} (hparts : ∀ b ∈ bs, ReadsBack f read? g b) {frame : Frame}
    (hf : ∀ a rest, (f a ++ rest).head? ≠ some frame.closer)
    (hg : ∀ b ∈ bs, ∃ c cs, g b = c :: cs ∧ isBlankChar c = false ∧ c ≠ frame.closer)
    {body : Body α} {rest rest' : List Char}
    (h : body.render f ++ frame.closer :: rest = (bodyOf bs).render g ++ frame.closer :: rest') :
    body.toList.mapM read? = some bs ∧ rest = rest' := by
  cases bs with
  | nil =>
    cases body with
    | blank ws =>
      have hws : ws.chars = [] := Blanks.eq_nil frame.isBlankChar_closer h
      rw [Body.render, hws] at h
      exact ⟨rfl, (List.cons.inj h).2⟩
    | filled a as =>
      rw [Body.render, List.append_assoc] at h
      refine absurd ?_ (hf a (Body.renderMore f as ++ frame.closer :: rest))
      rw [h]
      rfl
  | cons b bs =>
    obtain ⟨hb, hbs⟩ := List.forall_mem_cons.1 hparts
    cases body with
    | blank ws =>
      obtain ⟨c, cs, hc, hblank, hcloser⟩ := hg b (List.mem_cons_self ..)
      have hwritten : (bodyOf (b :: bs)).render g ++ frame.closer :: rest' =
          c :: (cs ++ (Body.renderMore g bs ++ frame.closer :: rest')) := by
        simp [bodyOf, Body.render, hc]
      rw [hwritten] at h
      have hws : ws.chars = [] := Blanks.eq_nil hblank h
      rw [Body.render, hws] at h
      exact absurd (List.cons.inj h).1.symm hcloser
    | filled a as =>
      change (f a ++ Body.renderMore f as) ++ frame.closer :: rest =
        (g b ++ Body.renderMore g bs) ++ frame.closer :: rest' at h
      rw [List.append_assoc, List.append_assoc] at h
      obtain ⟨ha, hmore⟩ := hb a _ _ (endsPart_renderMore frame as rest)
        (endsPart_renderMore frame bs rest') h
      obtain ⟨has, hrest⟩ := readsBack_more hbs hmore
      exact ⟨by rw [Body.toList, List.mapM_cons, ha, has]; rfl, hrest⟩

end Parts

/-- A syntax tree that looks like `t` when it is written stands for `t`. -/
def Tree.IsReadBack (t : Tree) : Prop :=
  ∀ (n : Node) (rest rest' : List Char), Delimited rest → Delimited rest' →
    n.text ++ rest = t.chars ++ rest' → n.tree? = some t ∧ rest = rest'

theorem Tree.exists_chars (t : Tree) : ∃ c cs, t.chars = c :: cs ∧ StartsValue c := by
  obtain ⟨n, hn⟩ := t.exists_node
  obtain ⟨c, cs, htext, hhead⟩ := n.exists_text
  exact ⟨c, cs, hn.symm.trans htext, hhead.startsValue⟩

theorem StartsValue.ne_closer {c : Char} (h : StartsValue c) (frame : Frame) :
    c ≠ frame.closer := by
  rintro rfl
  cases frame <;> exact absurd h.2 (by decide)

theorem Node.head_of_text {n : Node} {rest cs : List Char} {c : Char}
    (h : n.text ++ rest = c :: cs) : n.Head c := by
  obtain ⟨c', cs', hn, hhead⟩ := n.exists_text
  rw [hn, List.cons_append] at h
  rwa [← (List.cons.inj h).1]

theorem Node.Head.eq_boolean {n : Node} {b : Bool} (h : n.Head (if b then 't' else 'f')) :
    n = .boolean b := by
  cases n with
  | boolean b' => cases b <;> cases b' <;> simp [Head] at h ⊢
  | number n => cases b <;> simp [Head] at h
  | _ => cases b <;> simp [Head] at h

/-- An element of a list, with the blanks around it, is read back as its value. -/
theorem Tree.IsReadBack.padded {t : Tree} (ht : t.IsReadBack) :
    ReadsBack (Padded.render Node.text) Node.paddedTree? chars t := by
  rintro ⟨before, n, after⟩ rest rest' hrest hrest' h
  obtain ⟨c, cs, hc, hstart⟩ := t.exists_chars
  have hwhole : before.chars ++ (n.text ++ (after.chars ++ rest)) = c :: (cs ++ rest') := by
    simpa [Padded.render, hc] using h
  have hbefore : before.chars = [] := Blanks.eq_nil hstart.isBlankChar hwhole
  have htext : n.text ++ (after.chars ++ rest) = t.chars ++ rest' := by
    simpa [hbefore, hc] using hwhole
  obtain ⟨htree, hafter⟩ :=
    ht n _ rest' (delimited_blanks_append after hrest.delimited) hrest'.delimited htext
  have hnil : after.chars = [] := hrest'.blanks_eq_nil hafter
  rw [hnil, List.nil_append] at hafter
  exact ⟨htree, hafter⟩

theorem Tree.IsReadBack.member {m : String × Tree} (hm : m.2.IsReadBack) :
    ReadsBack (Member.render Node.text) Node.memberTree? memberChars m := by
  rintro ⟨⟨before, l, after⟩, v⟩ rest rest' hrest hrest' h
  obtain ⟨key, t⟩ := m
  have hwhole : before.chars ++ (l.text ++ (after.chars ++ ':' :: (v.render Node.text ++ rest))) =
      textChars key ++ ':' :: (t.chars ++ rest') := by
    simpa [Member.render, Padded.render, memberChars] using h
  have hbefore : before.chars = [] := Blanks.eq_nil (by decide : isBlankChar '"' = false) hwhole
  rw [hbefore, List.nil_append] at hwhole
  obtain ⟨hkey, hcolon⟩ := Literal.string?_of_text hwhole
  have hafter : after.chars = [] := Blanks.eq_nil (by decide) hcolon
  rw [hafter] at hcolon
  obtain ⟨hvalue, hend⟩ := hm.padded v rest rest' hrest hrest' (List.cons.inj hcolon).2
  refine ⟨?_, hend⟩
  rw [Node.memberTree?, hkey, hvalue]
  rfl

theorem Node.head?_padded_ne_closer (x : Padded Node) (rest : List Char) (frame : Frame) :
    (x.render Node.text ++ rest).head? ≠ some frame.closer := by
  obtain ⟨c, cs, hc, hhead⟩ := x.value.exists_text
  have hx : x.render Node.text ++ rest =
      x.before.chars ++ c :: (cs ++ (x.after.chars ++ rest)) := by
    simp [Padded.render, hc]
  rw [hx]
  exact head?_blanks_ne (hhead.startsValue.ne_closer frame) frame.isBlankChar_closer

theorem Node.head?_member_ne_closer (m : Member Node) (rest : List Char) (frame : Frame) :
    (m.render Node.text ++ rest).head? ≠ some frame.closer := by
  obtain ⟨⟨before, l, after⟩, v⟩ := m
  have hm : Member.render Node.text ⟨⟨before, l, after⟩, v⟩ ++ rest =
      before.chars ++ '"' :: (piecesText l.pieces ++ '"' :: (after.chars ++
        ':' :: (v.render Node.text ++ rest))) := by
    simp [Member.render, Padded.render, Literal.text]
  rw [hm]
  refine head?_blanks_ne ?_ frame.isBlankChar_closer
  cases frame <;> decide

theorem Tree.IsReadBack.list {items : List Tree} (h : ∀ t ∈ items, t.IsReadBack) :
    (Tree.list items).IsReadBack := by
  intro n rest rest' _ _ heq
  rw [chars_list] at heq
  obtain ⟨body, rfl⟩ := (Node.head_of_text heq).kind.2.2.1 rfl
  rw [Node.text_list] at heq
  have hbody : body.render (Padded.render Node.text) ++ Frame.list.closer :: rest =
      (bodyOf items).render chars ++ Frame.list.closer :: rest' := by
    simpa [Frame.closer] using heq
  have hstart : ∀ t ∈ items, ∃ c cs, t.chars = c :: cs ∧ isBlankChar c = false ∧
      c ≠ Frame.list.closer := by
    intro t _
    obtain ⟨c, cs, hc, hc'⟩ := t.exists_chars
    exact ⟨c, cs, hc, hc'.isBlankChar, hc'.ne_closer .list⟩
  obtain ⟨hitems, hrest⟩ := readsBack_body (fun t ht => (h t ht).padded)
    (fun x cs => Node.head?_padded_ne_closer x cs .list) hstart hbody
  exact ⟨by rw [Node.tree?_list, hitems]; rfl, hrest⟩

theorem Tree.IsReadBack.object {members : List (String × Tree)}
    (h : ∀ m ∈ members, m.2.IsReadBack) : (Tree.object members).IsReadBack := by
  intro n rest rest' _ _ heq
  rw [chars_object] at heq
  obtain ⟨body, rfl⟩ := (Node.head_of_text heq).kind.2.2.2 rfl
  rw [Node.text_object] at heq
  have hbody : body.render (Member.render Node.text) ++ Frame.object.closer :: rest =
      (bodyOf members).render memberChars ++ Frame.object.closer :: rest' := by
    simpa [Frame.closer] using heq
  have hstart : ∀ m ∈ members, ∃ c cs, memberChars m = c :: cs ∧ isBlankChar c = false ∧
      c ≠ Frame.object.closer := by
    intro m _
    exact ⟨'"', _, rfl, by decide, by decide⟩
  obtain ⟨hmembers, hrest⟩ := readsBack_body (fun m hm => (h m hm).member)
    (fun m cs => Node.head?_member_ne_closer m cs .object) hstart hbody
  exact ⟨by rw [Node.tree?_object, hmembers]; rfl, hrest⟩

theorem Tree.isReadBack (t : Tree) : t.IsReadBack := by
  induction t with
  | null =>
    intro n rest rest' _ _ h
    obtain rfl := (Node.head_of_text h).kind.1 rfl
    exact ⟨rfl, List.append_cancel_left h⟩
  | boolean b =>
    intro n rest rest' _ _ h
    obtain rfl : n = .boolean b := by
      apply Node.Head.eq_boolean
      cases b <;> exact Node.head_of_text h
    cases b <;> exact ⟨rfl, List.append_cancel_left h⟩
  | text s =>
    intro n rest rest' _ _ h
    obtain ⟨l, rfl⟩ := (Node.head_of_text h).kind.2.1 rfl
    obtain ⟨hl, hrest⟩ := Literal.string?_of_text h
    exact ⟨by rw [Node.tree?, hl]; rfl, hrest⟩
  | list items ih => exact IsReadBack.list ih
  | object members ih => exact IsReadBack.object ih

/-- A document is the text of a tree only if it stands for it. -/
theorem Tree.tree?_of_document {t : Tree} {d : Document} (h : d.render Node.text = t.chars) :
    d.value.tree? = some t := by
  obtain ⟨before, n, after⟩ := d
  obtain ⟨c, cs, hc, hstart⟩ := t.exists_chars
  have hwhole : before.chars ++ (n.text ++ after.chars) = c :: cs := by
    rw [← hc, ← h]
    simp [Padded.render]
  have hbefore : before.chars = [] := Blanks.eq_nil hstart.isBlankChar hwhole
  rw [hbefore, List.nil_append, ← hc, ← List.append_nil t.chars] at hwhole
  have hafter : Delimited after.chars := by
    simpa using delimited_blanks_append after delimited_nil
  exact (t.isReadBack n _ _ hafter delimited_nil hwhole).1

end DeletionGuard.Json
