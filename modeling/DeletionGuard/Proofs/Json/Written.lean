import DeletionGuard.Json.Writer
import DeletionGuard.Proofs.Plan.Rendering

/-!
# Trees that are written

What is written of a tree is the text of a JSON value, and all of it stands on one line.
-/

namespace DeletionGuard.Json

namespace Tree

/-- Induction on a tree, with the trees inside a list or an object at hand. -/
@[induction_eliminator]
theorem induct {P : Tree → Prop} (null : P null) (boolean : ∀ b, P (boolean b))
    (text : ∀ s, P (text s)) (list : ∀ items, (∀ t ∈ items, P t) → P (list items))
    (object : ∀ members, (∀ m ∈ members, P m.2) → P (object members)) (t : Tree) : P t :=
  Tree.rec (motive_1 := P) (motive_2 := fun items => ∀ t ∈ items, P t)
    (motive_3 := fun members => ∀ m ∈ members, P m.2) (motive_4 := fun m => P m.2)
    null boolean text list object
    (fun _ h => nomatch h) (fun _ _ ht hts => List.forall_mem_cons.2 ⟨ht, hts⟩)
    (fun _ h => nomatch h) (fun _ _ hm hms => List.forall_mem_cons.2 ⟨hm, hms⟩)
    (fun _ _ h => h) t

/-! ### The characters of a tree -/

def chars (t : Tree) : List Char :=
  t.pieces.flatMap String.toList

def textChars (s : String) : List Char :=
  (textPieces s).flatMap String.toList

def memberChars (m : String × Tree) : List Char :=
  textChars m.1 ++ ':' :: m.2.chars

/-- Parts that are written with commas between them. -/
theorem flatMap_separated {α : Type} {separated : List α → List String} {part : α → List String}
    (hnil : separated [] = []) (hone : ∀ a, separated [a] = part a)
    (hmore : ∀ a b as, separated (a :: b :: as) = part a ++ "," :: separated (b :: as))
    (as : List α) :
    (separated as).flatMap String.toList =
      (bodyOf as).render fun a => (part a).flatMap String.toList := by
  cases as with
  | nil => rw [hnil]; rfl
  | cons a as =>
    change _ = (part a).flatMap String.toList ++ Body.renderMore _ as
    induction as generalizing a with
    | nil => rw [hone]; simp [Body.renderMore]
    | cons b as ih =>
      rw [hmore, List.flatMap_append, List.flatMap_cons, ih b]
      simp [Body.renderMore]

theorem chars_list (items : List Tree) :
    (list items).chars = '[' :: (bodyOf items).render chars ++ [']'] := by
  have hitems := @flatMap_separated _ listPieces pieces (by rw [listPieces])
    (fun t => by rw [listPieces]) (fun t u ts => by rw [listPieces]; simp) items
  rw [chars, pieces, List.flatMap_append, List.flatMap_cons, hitems]
  rfl

theorem chars_object (members : List (String × Tree)) :
    (object members).chars = '{' :: (bodyOf members).render memberChars ++ ['}'] := by
  let part : String × Tree → List String := fun m => textPieces m.1 ++ ":" :: m.2.pieces
  have hpart : (fun m => (part m).flatMap String.toList) = memberChars := by
    funext m
    simp [part, memberChars, textChars, chars]
  have hmembers := @flatMap_separated _ memberPieces part (by rw [memberPieces])
    (fun m => by rw [memberPieces]) (fun m m' ms => by rw [memberPieces]; simp) members
  rw [chars, pieces, List.flatMap_append, List.flatMap_cons, hmembers, hpart]
  rfl

/-! ### What is written is JSON -/

theorem fourHexDigits_eq {c : Char} (h : c.toNat < 0x20) :
    (fourHexDigits c.toNat).toList = (controlUnit c h).chars := by
  have hhigh : c.toNat / 0x1000 = 0 ∧ c.toNat / 0x100 = 0 := by omega
  have hlow : c.toNat / 0x10 % 0x10 = c.toNat / 16 := by omega
  simp [fourHexDigits, hhigh.1, hhigh.2, hlow, CodeUnit.chars, controlUnit, hexDigit]

/-- A character is written as a piece that stands for it. -/
theorem exists_piece (c : Char) :
    ∃ p : Piece, p.text = (escapeChar c).toList ∧
      ∀ ps cs, Spells ps cs → Spells (p :: ps) (c :: cs) := by
  have hescape (e : Escape) (h : c = e.char) : ∃ p : Piece, p.text = ['\\', e.letter] ∧
      ∀ ps cs, Spells ps cs → Spells (p :: ps) (c :: cs) :=
    ⟨.escape e, rfl, fun _ _ hps => h ▸ .escape e hps⟩
  unfold escapeChar
  split
  · next h => exact hescape .quote h
  · next hquote =>
    split
    · next h => exact hescape .backslash h
    · next hbackslash =>
      split
      · next h => exact hescape .backspace h
      · split
        · next h => exact hescape .tab h
        · split
          · next h => exact hescape .lineFeed h
          · split
            · next h => exact hescape .formFeed h
            · split
              · next h => exact hescape .carriageReturn h
              · split
                · next hcontrol =>
                  refine ⟨.unit (controlUnit c hcontrol), ?_, fun _ _ => .unit ?_⟩
                  · rw [String.toList_append, fourHexDigits_eq hcontrol]
                    rfl
                  · simp only [CodeUnit.value, controlUnit, value_hexDigit]
                    omega
                · next hcontrol =>
                  have hraw : isUnescaped c = true := by
                    simp [isUnescaped, hquote, hbackslash, Nat.not_lt.1 hcontrol]
                  exact ⟨.raw c hraw, by simp [Piece.text], fun _ _ => .raw c hraw⟩

theorem exists_literal (s : String) :
    ∃ l : Literal, l.text = textChars s ∧ l.string? = some s := by
  have hpieces (cs : List Char) : ∃ ps, piecesText ps = cs.flatMap (fun c => (escapeChar c).toList) ∧
      Spells ps cs := by
    induction cs with
    | nil => exact ⟨[], rfl, .nil⟩
    | cons c cs ih =>
      obtain ⟨p, hp, hspells⟩ := exists_piece c
      obtain ⟨ps, hps, hcs⟩ := ih
      exact ⟨p :: ps, by simp [hp, hps], hspells ps cs hcs⟩
  obtain ⟨ps, hps, hspells⟩ := hpieces s.toList
  refine ⟨⟨ps⟩, ?_, SpellsString.string?_eq hspells⟩
  rw [Literal.text, hps, textChars, textPieces, List.flatMap_append, List.flatMap_cons,
    List.flatMap_map]
  rfl

theorem exists_body {α β : Type} {f : α → List Char} {g : β → List Char} {bs : List β}
    (h : ∀ b ∈ bs, ∃ a, f a = g b) : ∃ body : Body α, body.render f = (bodyOf bs).render g := by
  have hmap : ∃ as : List α, as.map f = bs.map g := by
    induction bs with
    | nil => exact ⟨[], rfl⟩
    | cons b bs ih =>
      obtain ⟨⟨a, ha⟩, hbs⟩ := List.forall_mem_cons.1 h
      obtain ⟨as, has⟩ := ih hbs
      exact ⟨a :: as, congrArg₂ List.cons ha has⟩
  obtain ⟨as, has⟩ := hmap
  refine ⟨bodyOf as, ?_⟩
  have hmore {γ : Type} (k : γ → List Char) (xs : List γ) :
      Body.renderMore k xs = (xs.map k).flatMap (',' :: ·) := by
    rw [Body.renderMore, List.flatMap_map]
  cases as with
  | nil =>
    obtain rfl : bs = [] := List.map_eq_nil_iff.1 has.symm
    rfl
  | cons a as =>
    cases bs with
    | nil => cases has
    | cons b bs =>
      obtain ⟨hhead, htail⟩ := List.cons.inj has
      change f a ++ Body.renderMore f as = g b ++ Body.renderMore g bs
      rw [hhead, hmore, hmore, htail]

theorem exists_node (t : Tree) : ∃ n : Node, n.text = t.chars := by
  induction t with
  | null => exact ⟨.null, rfl⟩
  | boolean b => exact ⟨.boolean b, by cases b <;> rfl⟩
  | text s =>
    obtain ⟨l, hl, -⟩ := exists_literal s
    exact ⟨.string l, by rw [Node.text, hl]; rfl⟩
  | list items ih =>
    have hitem : ∀ t ∈ items, ∃ x : Padded Node, x.render Node.text = t.chars := by
      intro t ht
      obtain ⟨n, hn⟩ := ih t ht
      exact ⟨bare n, by simp [Padded.render, bare, hn]⟩
    obtain ⟨body, hbody⟩ := exists_body hitem
    exact ⟨.list body, by rw [Node.text_list, chars_list, hbody]⟩
  | object members ih =>
    have hmember : ∀ m ∈ members, ∃ x : Member Node, x.render Node.text = memberChars m := by
      intro m hm
      obtain ⟨n, hn⟩ := ih m hm
      obtain ⟨l, hl, -⟩ := exists_literal m.1
      exact ⟨⟨bare l, bare n⟩, by simp [Member.render, Padded.render, bare, hl, hn, memberChars]⟩
    obtain ⟨body, hbody⟩ := exists_body hmember
    exact ⟨.object body, by rw [Node.text_object, chars_object, hbody]⟩

/-! ### No control characters -/

theorem le_toNat_hexDigit (d : HexDigit) : 0x20 ≤ d.char.toNat := by
  by_contra hlt
  have hall : ∀ n < 0x20, (digitOf? 16 (Char.ofNat n)).isSome = false := by decide
  have hnone := hall d.char.toNat (Nat.not_le.1 hlt)
  rw [Char.ofNat_toNat, d.hex] at hnone
  cases hnone

theorem le_toNat_literal (l : Literal) : ∀ c ∈ l.text, 0x20 ≤ c.toNat := by
  have hpiece (p : Piece) : ∀ c ∈ p.text, 0x20 ≤ c.toNat := by
    cases p with
    | raw c hc =>
      simp only [isUnescaped, Bool.and_eq_true, decide_eq_true_eq] at hc
      simpa [Piece.text] using hc.1.1
    | escape e => cases e <;> simp [Piece.text, Escape.letter]
    | unit u => simp [Piece.text, CodeUnit.chars, le_toNat_hexDigit]
  intro c hc
  simp only [Literal.text, List.cons_append, List.mem_cons, List.mem_append, List.not_mem_nil,
    or_false] at hc
  rcases hc with rfl | hc | rfl
  · decide
  · obtain ⟨p, -, hp⟩ := List.mem_flatMap.1 hc
    exact hpiece p c hp
  · decide

theorem le_toNat_body {β : Type} {g : β → List Char} {bs : List β}
    (h : ∀ b ∈ bs, ∀ c ∈ g b, 0x20 ≤ c.toNat) : ∀ c ∈ (bodyOf bs).render g, 0x20 ≤ c.toNat := by
  cases bs with
  | nil => simp [bodyOf, Body.render]
  | cons b bs =>
    obtain ⟨hb, hbs⟩ := List.forall_mem_cons.1 h
    intro c hc
    rcases List.mem_append.1 hc with hc | hc
    · exact hb c hc
    · obtain ⟨b', hb', hc⟩ := List.mem_flatMap.1 hc
      rcases List.mem_cons.1 hc with rfl | hc
      · decide
      · exact hbs b' hb' c hc

theorem le_toNat (t : Tree) : ∀ c ∈ t.chars, 0x20 ≤ c.toNat := by
  have htext (s : String) : ∀ c ∈ textChars s, 0x20 ≤ c.toNat := by
    obtain ⟨l, hl, -⟩ := exists_literal s
    rw [← hl]
    exact le_toNat_literal l
  have hbrackets {opener closer : Char} {cs : List Char} (hopener : 0x20 ≤ opener.toNat)
      (hcloser : 0x20 ≤ closer.toNat) (hcs : ∀ c ∈ cs, 0x20 ≤ c.toNat) :
      ∀ c ∈ opener :: cs ++ [closer], 0x20 ≤ c.toNat := by
    intro c hc
    simp only [List.cons_append, List.mem_cons, List.mem_append, List.not_mem_nil, or_false] at hc
    rcases hc with rfl | hc | rfl
    · exact hopener
    · exact hcs c hc
    · exact hcloser
  induction t with
  | null => simp [chars, pieces]
  | boolean b => cases b <;> simp [chars, pieces]
  | text s => exact htext s
  | list items ih =>
    rw [chars_list]
    exact hbrackets (by decide) (by decide) (le_toNat_body ih)
  | object members ih =>
    rw [chars_object]
    refine hbrackets (by decide) (by decide) (le_toNat_body fun m hm c hc => ?_)
    rcases List.mem_append.1 hc with hc | hc
    · exact htext m.1 c hc
    · rcases List.mem_cons.1 hc with rfl | hc
      · decide
      · exact ih m hm c hc

end Tree

end DeletionGuard.Json
