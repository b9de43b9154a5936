import DeletionGuard.Proofs.Plan.Tree

/-!
# The ways to write a plan

A plan can be written in many ways: records as objects or as arrays, fields with a default left out
or written `null`, characters as they are or escaped, and any blanks between the tokens, which a
syntax tree has everywhere. `RendersPlan` relates a plan to the trees that write it, and each of
them is read as the plan.
-/

namespace DeletionGuard

open Json

/-! ### Strings -/

/-- The pieces write the characters, each of them in one of the ways there are. -/
inductive Spells : List Piece → List Char → Prop
  | nil : Spells [] []
  | raw (c : Char) (unescaped : isUnescaped c = true) {ps : List Piece} {cs : List Char}
      (more : Spells ps cs) : Spells (.raw c unescaped :: ps) (c :: cs)
  | escape (e : Escape) {ps : List Piece} {cs : List Char} (more : Spells ps cs) :
      Spells (.escape e :: ps) (e.char :: cs)
  | unit {u : CodeUnit} {c : Char} (value : u.value = c.toNat) {ps : List Piece} {cs : List Char}
      (more : Spells ps cs) : Spells (.unit u :: ps) (c :: cs)
  | pair {u v : CodeUnit} {c : Char} (above : 0x10000 ≤ c.toNat)
      (leading : u.value = 0xD800 + (c.toNat - 0x10000) / 0x400)
      (trailing : v.value = 0xDC00 + (c.toNat - 0x10000) % 0x400) {ps : List Piece}
      {cs : List Char} (more : Spells ps cs) : Spells (.unit u :: .unit v :: ps) (c :: cs)

theorem Spells.unescape?_eq {ps : List Piece} {cs : List Char} (h : Spells ps cs) :
    unescape? ps = some cs := by
  induction h with
  | nil => rfl
  | raw c hc _ ih => rw [unescape?, ih]; rfl
  | escape e _ ih => rw [unescape?, ih]; rfl
  | @unit u c hvalue ps cs _ ih =>
    have hvalid : c.toNat < 0xD800 ∨ 0xDFFF < c.toNat ∧ c.toNat < 0x110000 := c.valid
    have htrailing : ¬ u.IsTrailing := by
      rw [CodeUnit.IsTrailing]
      omega
    have hleading : ¬ u.IsLeading := by
      rw [CodeUnit.IsLeading]
      omega
    rw [unescape?.eq_def]
    simp only [if_neg htrailing, if_neg hleading, ih, hvalue, Char.ofNat_toNat, Option.map_some]
  | @pair u v c habove hu hv ps cs _ ih =>
    have hlt := Utf8.toNat_lt c
    have hleading : u.IsLeading := by
      rw [CodeUnit.IsLeading]
      omega
    have htrailing : v.IsTrailing := by
      rw [CodeUnit.IsTrailing]
      omega
    have hpaired : u.paired v = c := by
      have hvalue : 0x10000 + (u.value - 0xD800) * 0x400 + (v.value - 0xDC00) = c.toNat := by omega
      rw [CodeUnit.paired, hvalue, Char.ofNat_toNat]
    rw [unescape?, if_neg (CodeUnit.not_isTrailing hleading), if_pos hleading, if_pos htrailing, ih,
      hpaired]
    rfl

def SpellsString (l : Literal) (s : String) : Prop :=
  Spells l.pieces s.toList

theorem SpellsString.string?_eq {l : Literal} {s : String} (h : SpellsString l s) :
    l.string? = some s := by
  rw [Literal.string?, Spells.unescape?_eq h, Option.map_some, String.ofList_toList]

def RendersString (s : String) (n : Node) : Prop :=
  ∃ l, n = .string l ∧ SpellsString l s

/-! ### Lists and fields -/

variable {α : Type}

/-- A list is written as its elements in order. -/
def RendersList (renders : α → Node → Prop) (as : List α) (n : Node) : Prop :=
  ∃ items, n = .list items ∧ List.Forall₂ (fun a x => renders a x.value) as items.toList

/-- A field that equals its default may be left out or written `null`. -/
def RendersField (renders : α → Node → Prop) (default a : α) : Option Node → Prop
  | none => a = default
  | some n => renders a n ∨ n = .null ∧ a = default

/-- The fields that are not left out. -/
def present (fields : List (String × Option Node)) : List (String × Node) :=
  fields.filterMap fun field => field.2.map (field.1, ·)

/-- A record as an object with its fields in any order, or as an array of them, of which the last
may be left out. -/
inductive RendersRecord (fields : List (String × Option Node)) : Node → Prop
  | object {entries : List (String × Node)} {members : Body (Member Node)}
      (order : entries.Perm (present fields))
      (written : List.Forall₂ (fun e m => SpellsString m.key.value e.1 ∧ m.value.value = e.2)
        entries members.toList) : RendersRecord fields (.object members)
  | array {items : Body (Padded Node)} {omitted : Nat}
      (written : fields.map (·.2) =
        items.toList.map (some ·.value) ++ List.replicate omitted none) :
      RendersRecord fields (.list items)

/-! ### Plans -/

/-- The block of a change, which holds its actions. -/
def RendersActions (actions : List String) (n : Node) : Prop :=
  ∃ slot, RendersField (RendersList RendersString) [] actions slot ∧
    RendersRecord [("actions", slot)] n

def RendersChange (rc : ResourceChange) (n : Node) : Prop :=
  ∃ address block, RendersField RendersString "" rc.address address ∧
    RendersField RendersActions [] rc.actions block ∧
    RendersRecord [("address", address), ("change", block)] n

def RendersPlan (plan : Plan) (n : Node) : Prop :=
  ∃ slot, RendersField (RendersList RendersChange) [] plan.changes slot ∧
    RendersRecord [("resource_changes", slot)] n

/-! ### Every way to write a plan is read -/

/-- What is written as `renders` says is read by `read?`. -/
def Undoes (read? : Node → Option α) (renders : α → Node → Prop) : Prop :=
  ∀ a n, renders a n → read? n = some a

theorem undoes_string : Undoes Node.string? RendersString := by
  rintro s _ ⟨l, rfl, hl⟩
  exact hl.string?_eq

variable {renders : α → Node → Prop} {read? : Node → Option α}

theorem Undoes.list (hread : Undoes read? renders) :
    Undoes (Node.list? read?) (RendersList renders) := by
  rintro as _ ⟨items, rfl, hitems⟩
  rw [Node.list?]
  generalize items.toList = xs at hitems
  induction hitems with
  | nil => rfl
  | cons ha _ ih => rw [List.mapM_cons, hread _ _ ha, ih]; rfl

theorem Undoes.field (hread : Undoes read? renders) (hnull : read? .null = none) {default a : α}
    {slot : Option Node} (h : RendersField renders default a slot) :
    Node.fieldOr default read? slot = some a := by
  cases slot with
  | none =>
    obtain rfl : a = default := h
    rfl
  | some n =>
    rcases h with h | ⟨rfl, rfl⟩
    · have hn := hread a n h
      cases n with
      | null => exact absurd (hn.symm.trans hnull) (by simp)
      | _ => exact hn
    · rfl

theorem mem_present {fields : List (String × Option Node)} {name : String} {n : Node} :
    (name, n) ∈ present fields ↔ (name, some n) ∈ fields := by
  simp only [present, List.mem_filterMap, Option.map_eq_some_iff, Prod.mk.injEq, Prod.exists]
  constructor
  · rintro ⟨_, _, h, _, rfl, rfl, rfl⟩
    exact h
  · exact fun h => ⟨name, some n, h, n, rfl, rfl, rfl⟩

theorem present_sublist (fields : List (String × Option Node)) :
    ((present fields).map (·.1)).Sublist (fields.map (·.1)) := by
  induction fields with
  | nil => exact .slnil
  | cons field fields ih =>
    obtain ⟨name, slot⟩ := field
    cases slot with
    | none => exact ih.cons name
    | some n => exact ih.cons_cons name

theorem lookup_of_perm {fields : List (String × Option Node)} (hnames : (fields.map (·.1)).Nodup)
    {entries : List (String × Node)} (hperm : entries.Perm (present fields)) {name : String}
    {slot : Option Node} (h : (name, slot) ∈ fields) : entries.lookup name = slot := by
  have hnodup : (entries.map (·.1)).Nodup :=
    (hperm.map _).nodup_iff.2 (hnames.sublist (present_sublist fields))
  have hlookup (n : Node) : entries.lookup name = some n ↔ (name, some n) ∈ fields := by
    rw [lookup_eq_some_iff hnodup, hperm.mem_iff, mem_present]
  cases slot with
  | some n => exact (hlookup n).2 h
  | none =>
    refine Option.eq_none_iff_forall_ne_some.2 fun n hn => ?_
    have heq := List.inj_on_of_nodup_map hnames h ((hlookup n).1 hn) rfl
    cases heq

theorem zip_eq_present (fields : List (String × Option Node)) (values : List Node) (omitted : Nat)
    (h : fields.map (·.2) = values.map some ++ List.replicate omitted none) :
    values.length ≤ fields.length ∧ (fields.map (·.1)).zip values = present fields := by
  induction fields generalizing values omitted with
  | nil =>
    obtain ⟨hvalues, -⟩ := List.append_eq_nil_iff.1 h.symm
    rw [List.map_eq_nil_iff.1 hvalues]
    exact ⟨Nat.le_refl _, rfl⟩
  | cons field fields ih =>
    obtain ⟨name, slot⟩ := field
    cases values with
    | nil =>
      cases omitted with
      | zero => cases h
      | succ omitted =>
        obtain ⟨rfl, hrest⟩ := List.cons.inj (h.trans List.replicate_succ)
        obtain ⟨-, hzip⟩ := ih [] omitted hrest
        exact ⟨Nat.zero_le _, List.zip_nil_right.symm.trans hzip⟩
    | cons n values =>
      obtain ⟨rfl, hrest⟩ := List.cons.inj h
      obtain ⟨hle, hzip⟩ := ih values omitted hrest
      refine ⟨Nat.succ_le_succ hle, ?_⟩
      rw [List.map_cons, List.zip_cons_cons, hzip]
      rfl

/-- A record gives the fields that it writes. -/
theorem RendersRecord.exists_fields {fields : List (String × Option Node)} {n : Node}
    (h : RendersRecord fields n) (hnames : (fields.map (·.1)).Nodup) :
    ∃ entries, n.fields? (fields.map (·.1)) = some entries ∧
      ∀ name slot, (name, slot) ∈ fields → entries.lookup name = slot := by
  suffices ∃ entries, n.fields? (fields.map (·.1)) = some entries ∧
      entries.Perm (present fields) by
    obtain ⟨entries, hentries, hperm⟩ := this
    exact ⟨entries, hentries, fun _ _ => lookup_of_perm hnames hperm⟩
  cases h with
  | @object entries members horder hwritten =>
    have hentries : members.toList.mapM Member.entry? = some entries := by
      clear horder
      generalize members.toList = ms at hwritten
      induction hwritten with
      | nil => rfl
      | cons hm _ ih =>
        obtain ⟨hkey, hvalue⟩ := hm
        rw [List.mapM_cons, Member.entry?, hkey.string?_eq, ih, hvalue]
        rfl
    have hsublist := present_sublist fields
    have hknown : entries.filter (·.1 ∈ fields.map (·.1)) = entries := by
      refine List.filter_eq_self.2 fun e he => decide_eq_true ?_
      exact hsublist.subset (List.mem_map_of_mem (horder.mem_iff.1 he))
    have hnodup : (entries.map (·.1)).Nodup :=
      (horder.map _).nodup_iff.2 (hnames.sublist hsublist)
    refine ⟨entries, ?_, horder⟩
    simp only [Node.fields?, hentries, Option.bind_eq_bind, Option.bind_some, hknown, if_pos hnodup]
  | @array items omitted hwritten =>
    obtain ⟨hle, hzip⟩ := zip_eq_present fields (items.toList.map (·.value)) omitted
      (by simpa only [List.map_map, Function.comp_def] using hwritten)
    refine ⟨_, ?_, .of_eq hzip⟩
    rw [Node.fields?, if_pos (by simpa using hle)]

theorem undoes_actions : Undoes Node.actions? RendersActions := by
  rintro actions n ⟨slot, hslot, hrecord⟩
  obtain ⟨entries, hentries, hlookup⟩ := hrecord.exists_fields (by decide : ["actions"].Nodup)
  have hfields : n.fields? ["actions"] = some entries := hentries
  rw [Node.actions?, hfields]
  change Node.fieldOr [] (Node.list? Node.string?) (entries.lookup "actions") = some actions
  rw [hlookup "actions" slot (by simp)]
  exact undoes_string.list.field rfl hslot

theorem undoes_change : Undoes Node.change? RendersChange := by
  rintro rc n ⟨address, block, haddress, hblock, hrecord⟩
  obtain ⟨entries, hentries, hlookup⟩ :=
    hrecord.exists_fields (by decide : ["address", "change"].Nodup)
  have hfields : n.fields? ["address", "change"] = some entries := hentries
  have haddress := undoes_string.field rfl haddress
  have hactions := undoes_actions.field rfl hblock
  rw [← hlookup "address" address (by simp)] at haddress
  rw [← hlookup "change" block (by simp)] at hactions
  simp only [Node.change?, hfields, Option.bind_eq_bind, Option.bind_some, haddress, hactions]
  rfl

theorem undoes_plan : Undoes Node.plan? RendersPlan := by
  rintro plan n ⟨slot, hslot, hrecord⟩
  obtain ⟨entries, hentries, hlookup⟩ :=
    hrecord.exists_fields (by decide : ["resource_changes"].Nodup)
  have hfields : n.fields? ["resource_changes"] = some entries := hentries
  have hchanges := undoes_change.list.field rfl hslot
  rw [← hlookup "resource_changes" slot (by simp)] at hchanges
  simp only [Node.plan?, hfields, Option.bind_eq_bind, Option.bind_some, hchanges]
  rfl

/-! ### One way to write a plan -/

def hexDigit (n : Nat) (h : n < 16) : HexDigit where
  char := Nat.digitChar n
  hex := by
    have hall : ∀ n < 16, (digitOf? 16 (Nat.digitChar n)).isSome = true := by decide
    exact hall n h

theorem value_hexDigit {n : Nat} (h : n < 16) : (hexDigit n h).value = n := by
  have hall : ∀ n < 16, digitOf? 16 (Nat.digitChar n) = some n := by decide
  simp [HexDigit.value, hexDigit, hall n h]

/-- The code unit of a control character. -/
def controlUnit (c : Char) (h : c.toNat < 0x20) : CodeUnit :=
  ⟨hexDigit 0 (by decide), hexDigit 0 (by decide), hexDigit (c.toNat / 16) (by omega),
    hexDigit (c.toNat % 16) (by omega)⟩

/-- A character as it is, unless it has to be escaped. -/
def spell (c : Char) : Piece :=
  if hquote : c = '"' then .escape .quote
  else if hbackslash : c = '\\' then .escape .backslash
  else if hcontrol : c.toNat < 0x20 then .unit (controlUnit c hcontrol)
  else .raw c (by simp [isUnescaped, hquote, hbackslash, Nat.not_lt.1 hcontrol])

theorem Spells.spell_cons (c : Char) {ps : List Piece} {cs : List Char} (h : Spells ps cs) :
    Spells (spell c :: ps) (c :: cs) := by
  unfold spell
  split
  · next hquote => exact hquote ▸ .escape .quote h
  · split
    · next hbackslash => exact hbackslash ▸ .escape .backslash h
    · split
      · next hcontrol =>
        refine .unit ?_ h
        simp only [CodeUnit.value, controlUnit, value_hexDigit]
        omega
      · exact .raw c _ h

def spelled (s : String) : Literal :=
  ⟨s.toList.map spell⟩

theorem spellsString_spelled (s : String) : SpellsString (spelled s) s := by
  rw [SpellsString, spelled]
  induction s.toList with
  | nil => exact .nil
  | cons c cs ih => exact ih.spell_cons c

/-- With no blanks around it. -/
def bare {α : Type} (a : α) : Padded α :=
  ⟨.none, a, .none⟩

def bodyOf {α : Type} : List α → Body α
  | [] => .blank .none
  | x :: xs => .filled x xs

theorem toList_bodyOf {α : Type} (xs : List α) : (bodyOf xs).toList = xs := by
  cases xs <;> rfl

def objectOf (fields : List (String × Node)) : Node :=
  .object (bodyOf (fields.map fun field => ⟨bare (spelled field.1), bare field.2⟩))

def listOf (tree : α → Node) (as : List α) : Node :=
  .list (bodyOf (as.map fun a => bare (tree a)))

theorem rendersRecord_objectOf (fields : List (String × Node)) :
    RendersRecord (fields.map fun field => (field.1, some field.2)) (objectOf fields) := by
  have horder : fields.Perm (present (fields.map fun field => (field.1, some field.2))) :=
    .of_eq (by simp [present, List.filterMap_map])
  refine .object horder ?_
  rw [toList_bodyOf, List.forall₂_map_right_iff, List.forall₂_same]
  exact fun field _ => ⟨spellsString_spelled field.1, rfl⟩

theorem rendersList_listOf {tree : α → Node} (h : ∀ a, renders a (tree a)) (as : List α) :
    RendersList renders as (listOf tree as) := by
  refine ⟨_, rfl, ?_⟩
  rw [toList_bodyOf, List.forall₂_map_right_iff, List.forall₂_same]
  exact fun a _ => h a

def stringOf (s : String) : Node :=
  .string (spelled s)

theorem rendersString_stringOf (s : String) : RendersString s (stringOf s) :=
  ⟨_, rfl, spellsString_spelled s⟩

namespace Plan

def changeTree (rc : ResourceChange) : Node :=
  objectOf [("address", stringOf rc.address),
    ("change", objectOf [("actions", listOf stringOf rc.actions)])]

/-- A plan as a document of objects. -/
def document (plan : Plan) : Document :=
  bare (objectOf [("resource_changes", listOf changeTree plan.changes)])

theorem rendersPlan_document (plan : Plan) : RendersPlan plan plan.document.value := by
  have hactions (actions : List String) :
      RendersActions actions (objectOf [("actions", listOf stringOf actions)]) :=
    ⟨some _, .inl (rendersList_listOf rendersString_stringOf actions),
      rendersRecord_objectOf [("actions", _)]⟩
  have hchange (rc : ResourceChange) : RendersChange rc (changeTree rc) :=
    ⟨some _, some _, .inl (rendersString_stringOf rc.address), .inl (hactions rc.actions),
      rendersRecord_objectOf [("address", _), ("change", _)]⟩
  exact ⟨some _, .inl (rendersList_listOf hchange plan.changes),
    rendersRecord_objectOf [("resource_changes", _)]⟩

/-- Every plan can be written, and is read back. -/
theorem parse_document (plan : Plan) : parse plan.document.text = .ok plan :=
  parse_text_eq_ok_iff.2 (undoes_plan plan _ (rendersPlan_document plan))

/-- However a plan is written, it is read. -/
theorem parse_of_rendersPlan {plan : Plan} {d : Document} (h : RendersPlan plan d.value) :
    parse d.text = .ok plan :=
  parse_text_eq_ok_iff.2 (undoes_plan plan d.value h)

theorem parse_of_rendersPlan_arrays :
    parse " [[[null,\x7b\"actions\":[\"delete\"]\x7d]]]\n" = .ok ⟨[⟨"", ["delete"]⟩]⟩ := by
  let block := objectOf [("actions", listOf stringOf ["delete"])]
  let change : Node := .list (bodyOf [bare .null, bare block])
  let d : Document := ⟨⟨[' '], by simp [isBlankChar]⟩,
    .list (bodyOf [bare (.list (bodyOf [bare change]))]), ⟨['\n'], by simp [isBlankChar]⟩⟩
  have hblock : RendersActions ["delete"] block :=
    ⟨some _, .inl (rendersList_listOf rendersString_stringOf _),
      rendersRecord_objectOf [("actions", _)]⟩
  have hchange : RendersChange ⟨"", ["delete"]⟩ change :=
    ⟨some .null, some block, .inr ⟨rfl, rfl⟩, .inl hblock, @RendersRecord.array _ _ 0 rfl⟩
  have hchanges : RendersList RendersChange [⟨"", ["delete"]⟩] (.list (bodyOf [bare change])) :=
    ⟨_, rfl, .cons hchange .nil⟩
  have hplan : RendersPlan ⟨[⟨"", ["delete"]⟩]⟩ d.value :=
    ⟨some _, .inl hchanges, @RendersRecord.array _ _ 0 rfl⟩
  have htext : d.text = " [[[null,\x7b\"actions\":[\"delete\"]\x7d]]]\n" := by decide +kernel
  exact htext ▸ parse_of_rendersPlan hplan

end Plan

end DeletionGuard
