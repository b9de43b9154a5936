import DeletionGuard.Proofs.Json.Kept
import DeletionGuard.Proofs.Json.Literal
import DeletionGuard.Proofs.Json.Shape
import DeletionGuard.Proofs.Json.Truncation.Basic

/-!
# Documents that are text

The pieces of a string literal make characters if those of the document do: the literal begins
behind a quote and ends at one, and an escape stands for a whole character. So a document that is
UTF-8 is refused for many causes, but never for its characters.
-/

namespace DeletionGuard.Json

open Utf8 (encode)

/-- What comes of reading in a document is not a fault of its characters. -/
abbrev Decodes {α : Type} (bytes : List UInt8) : Except Fault (α × Cursor) → Prop :=
  Ends (·.rest <:+ bytes) (·.cause ≠ .invalidUtf8)

/-- Wherever in the document `r` begins, nothing is wrong with the characters. -/
abbrev Spares {α : Type} (bytes : List UInt8) (r : Read α) : Prop :=
  Keeps (·.rest <:+ bytes) (·.cause ≠ .invalidUtf8) r

variable {α β : Type} {bytes : List UInt8} {c : Cursor}

/-- Readers in which no text is decoded. -/
theorem spares_of_built {r : Read α} (h : Built (fun _ => False) r) : Spares bytes r := by
  have hpass {c : Cursor} (hc : c.rest <:+ bytes) (n : Nat) : (c.pass n).rest <:+ bytes :=
    (List.drop_suffix n c.rest).trans hc
  have hplain {cause : Cause} (h : cause.isPlain = true) : cause ≠ .invalidUtf8 := by
    rintro rfl
    cases h
  apply h.keeps
  constructor
  · intro c hc
    rwa [Cursor.rest_look]
  · exact fun hc => hpass hc 1
  · intro c n hc _
    rw [Cursor.rest_look]
    exact hpass hc n
  · exact fun _ h => hplain (h.resolve_right id)
  · exact fun _ h => hplain h
  · exact fun _ h => h.elim
  · exact fun _ => nofun

/-! ### Texts -/

/-- What stands behind an ASCII character of a text is text. -/
theorem exists_encode_of_suffix {cs : List Char} {b : UInt8} (hb : b < 0x80) {rest : List UInt8}
    (h : b :: rest <:+ encode cs) : ∃ ds, rest = encode ds := by
  obtain ⟨before, hbefore⟩ := h
  induction cs generalizing before with
  | nil =>
    have hne := List.append_ne_nil_of_right_ne_nil before (List.cons_ne_nil b rest)
    exact absurd hbefore hne
  | cons c cs ih =>
    rw [Utf8.encode_cons] at hbefore
    rcases List.append_eq_append_iff.1 hbefore with ⟨part, hchar, hpart⟩ | ⟨more, -, hmore⟩
    · cases part with
      | nil => exact ih [] hpart
      | cons x part =>
        obtain ⟨rfl, hrest⟩ := List.cons.inj hpart
        have hmem : b ∈ Utf8.encodeChar c := by
          rw [hchar]
          exact List.mem_append_right before List.mem_cons_self
        rcases Nat.lt_or_ge c.toNat 0x80 with hlt | hge
        · have hlength := congrArg List.length hchar
          simp only [Utf8.encodeChar_of_lt hlt, List.length_append, List.length_cons,
            List.length_nil] at hlength
          obtain rfl : part = [] := List.eq_nil_of_length_eq_zero (by omega)
          exact ⟨cs, hrest⟩
        · exact absurd (Utf8.le_of_mem_encodeChar hge hmem) (UInt8.not_le.2 hb)
    · exact ih more hmore.symm

/-- A text that begins behind a quote is decoded. -/
theorem decodes_text {cs : List Char} {c : Cursor} (hc : byte '"' :: c.rest <:+ encode cs) :
    Decodes (encode cs) (Read.text.run c) := by
  obtain ⟨ds, hds⟩ := exists_encode_of_suffix (by decide) hc
  have hpieces := spares_of_built (.pieces []) c ((List.suffix_cons _ _).trans hc)
  refine .bind hpieces fun piece c' hrun hc' => ?_
  obtain ⟨rest, hrest, ps, rfl⟩ := Read.yields_iterate_textStep [] ds c hds _ _ hrun
  have hgives := Read.gives_iterate_textStep ps [] rest
  cases hvalue : unescape? ps with
  | none =>
    rw [hvalue] at hgives
    obtain ⟨f, hf⟩ := hgives c hds
    rw [hrun] at hf
    cases hf
  | some es =>
    rw [hvalue] at hgives
    obtain ⟨_, -, hsome⟩ := hgives c hds
    rw [hrun] at hsome
    obtain rfl : piece = encode es := by cases hsome; rfl
    rw [Utf8.decode_encode]
    exact hc'

theorem Cursor.rest_pass_one {c : Cursor} {b : UInt8} {bs : List UInt8} (h : c.rest = b :: bs) :
    (c.pass 1).rest = bs := by
  change c.rest.drop 1 = bs
  rw [h]
  rfl

/-- A text whose opening quote is next is decoded. -/
theorem decodes_quoted {cs : List Char} {p : Read α} {q : String → Read β} {c : Cursor}
    (hrest : c.rest <:+ encode cs) (hc : c.rest.head? = some (byte '"'))
    (hp : ∀ b bs, c.rest = b :: bs → ∃ a, p.run c = .ok (a, c.pass 1))
    (hq : ∀ s, Spares (encode cs) (q s)) :
    Decodes (encode cs) ((do let _ ← p; q (← Read.text)).run c) := by
  obtain ⟨bs, hbs⟩ := List.head?_eq_some_iff.1 hc
  obtain ⟨a, hrun⟩ := hp _ bs hbs
  rw [Reader.run_bind_of_eq hrun]
  refine .bind (decodes_text ?_) fun s c' _ hc' => hq s c' hc'
  rw [Cursor.rest_pass_one hbs, ← hbs]
  exact hrest

/-! ### Values of known shapes -/

namespace Read

theorem head?_of_peek {a : Option UInt8} {c c' : Cursor} (h : peek.run c = .ok (a, c')) :
    c'.rest.head? = a := by
  change Except.ok (c.rest.head?, c.look) = .ok (a, c') at h
  obtain ⟨rfl, rfl⟩ := Prod.mk.inj (Except.ok.inj h)
  rw [Cursor.rest_look]

/-- The byte of a token that has been looked at is the next one. -/
theorem head?_of_peekToken {a : Option UInt8} {c c' : Cursor} (h : peekToken.run c = .ok (a, c')) :
    c'.rest.head? = a := by
  obtain ⟨c₁, hrun, -⟩ := run_peekToken c
  rw [hrun] at h
  cases h
  rfl

/-- If another member comes next, then its key does. -/
theorem head?_of_hasMember {first : Bool} {c c' : Cursor}
    (h : (hasMember first).run c = .ok (true, c')) : c'.rest.head? = some (byte '"') := by
  obtain ⟨a, c₁, hpeek, hmember⟩ := Reader.run_bind_eq_ok.1 h
  have hhead := head?_of_peekToken hpeek
  cases a with
  | none => cases hmember
  | some b =>
    dsimp only at hmember
    rw [Reader.run_ite] at hmember
    split at hmember
    · cases hmember
    rw [Reader.run_ite] at hmember
    split at hmember
    · rw [Reader.run_ite] at hmember
      split at hmember
      · next hb =>
        cases hmember
        rw [hhead, hb]
      · cases hmember
    rw [Reader.run_ite] at hmember
    split at hmember
    · obtain ⟨_, c₂, -, hmore⟩ := Reader.run_bind_eq_ok.1 hmember
      obtain ⟨a, c₃, hpeek', hkey⟩ := Reader.run_bind_eq_ok.1 hmore
      have hhead' := head?_of_peekToken hpeek'
      cases a with
      | none => cases hkey
      | some b =>
        dsimp only at hkey
        rw [Reader.run_ite] at hkey
        split at hkey
        · next hb =>
          cases hkey
          rw [hhead', hb]
        · rw [Reader.run_ite] at hkey
          split at hkey <;> cases hkey
    · cases hmember

/-- Behind an opening quote nothing but the quote has been passed since the token before. -/
theorem suffix_of_opening {b b' : UInt8} {expected : String} {c c' : Cursor}
    (h : (opening [b] expected).run c = .ok (b', c')) : b :: c'.rest <:+ c.rest := by
  obtain ⟨a, c₁, hpeek, hopening⟩ := Reader.run_bind_eq_ok.1 h
  have hhead := head?_of_peekToken hpeek
  have hsuffix : c₁.rest <:+ c.rest := by
    obtain ⟨c₂, hrun, hrest⟩ := run_peekToken c
    rw [hrun] at hpeek
    cases hpeek
    rw [hrest]
    exact List.dropWhile_suffix isBlank
  cases a with
  | none => cases hopening
  | some x =>
    dsimp only at hopening
    rw [Reader.run_ite] at hopening
    split at hopening
    · next hx =>
      obtain rfl : x = b := List.mem_singleton.1 hx
      obtain ⟨bs, hbs⟩ := List.head?_eq_some_iff.1 hhead
      rw [run_nextIn_cons .value hbs] at hopening
      cases hopening
      rw [Cursor.rest_pass_one hbs, ← hbs]
      exact hsuffix
    · obtain ⟨f, hf⟩ := fails_mismatch expected c₁
      rw [hf] at hopening
      cases hopening

end Read

namespace Spares

variable {cs : List Char}

theorem found : Spares (encode cs) Read.found := by
  intro c hc
  refine .bind (spares_of_built .peek c hc) fun b c' hrun hc' => ?_
  cases b with
  | none => exact spares_of_built (.failAhead .expectedValue rfl) c' hc'
  | some b =>
    have hhead := Read.head?_of_peek hrun
    have hword (w : List Char) (f : Found) :
        Decodes (encode cs) ((do Read.discard; Read.word w; return f : Read Found).run c') :=
      spares_of_built (.bind .discard fun _ => .bind (.word w) fun _ => .pure f) c' hc'
    refine .ite (fun _ => hword _ _) fun _ => .ite (fun _ => hword _ _) fun _ => .ite
      (fun _ => hword _ _) fun _ => .ite (fun _ => ?_) fun _ => .ite (fun _ => ?_) fun _ =>
      .ite (fun hquote => ?_) fun _ => ?_
    · exact spares_of_built (.bind .discard fun _ => .bind (.number true) fun _ => .pure _) c' hc'
    · exact spares_of_built (.bind (.number false) fun _ => .pure _) c' hc'
    · rw [hquote] at hhead
      exact decodes_quoted hc' hhead (fun _ _ _ => ⟨(), rfl⟩) fun s => spares_of_built (.pure _)
    · exact spares_of_built (.ite (.pure _) (.ite (.pure _) (.failAhead _ rfl))) c' hc'

theorem mismatch (expected : String) : Spares (encode cs) (Read.mismatch expected : Read α) :=
  .bind found fun _ => fun _ _ => nofun

theorem opening (heads : List UInt8) (expected : String) :
    Spares (encode cs) (Read.opening heads expected) := by
  refine .bind (spares_of_built .peekToken) fun b => ?_
  cases b with
  | none => exact spares_of_built (.failAhead _ rfl)
  | some b => exact .ite (spares_of_built (.nextIn .value)) (mismatch expected)

end Spares

namespace Value

variable {cs : List Char} {σ : Type}

/-- The reader of a value finds nothing wrong with the characters of a text. -/
abbrev IsSpared (cs : List Char) (v : Value α) : Prop := Spares (encode cs) v.read

theorem isSpared_text : text.IsSpared cs := by
  intro c hc
  refine .bind (Spares.opening _ _ c hc) fun b c' hrun _ => ?_
  exact decodes_text ((Read.suffix_of_opening hrun).trans hc)

theorem IsSpared.list {item : Value α} (h : item.IsSpared cs) : item.list.IsSpared cs := by
  have hturn (s : ListState α) : Spares (encode cs) ((elementStep item).turn s) :=
    .bind (spares_of_built (.hasElement _)) fun _ =>
      .ite (.bind h fun _ => spares_of_built (.pure _)) (spares_of_built (.pure _))
  exact .bind (Spares.opening _ _) fun _ => .bind (.iterate hturn _) fun _ =>
    spares_of_built (.bind .discard fun _ => .pure _)

theorem IsSpared.orNull {v : Value α} (h : v.IsSpared cs) (set : α → σ → σ) :
    (v.orNull set).IsSpared cs := by
  refine .bind (spares_of_built .peekToken) fun _ => .ite ?_ ?_
  · exact spares_of_built (.bind (.nextIn .value) fun _ => .bind (.word _) fun _ => .pure id)
  · exact .bind h fun _ => spares_of_built (.pure _)

variable {fields : List (Field σ)}

theorem spares_positional (h : ∀ f ∈ fields, f.value.IsSpared cs) (first : Bool) (s : σ) :
    Spares (encode cs) (positional fields first s) := by
  induction fields generalizing first s with
  | nil => exact spares_of_built (.pure s)
  | cons f fields ih =>
    obtain ⟨hf, hfields⟩ := List.forall_mem_cons.1 h
    exact .bind (spares_of_built (.hasElement first)) fun _ =>
      .ite (.bind hf fun change => ih hfields false (change s)) (spares_of_built (.pure s))

theorem spares_member (h : ∀ f ∈ fields, f.value.IsSpared cs) (s : ObjectState σ) (key : String) :
    Spares (encode cs) (member fields s key) := by
  unfold member
  cases hfind : fields.find? (·.key == key) with
  | none => exact spares_of_built (.bind .colon fun _ => .bind .skipValue fun _ => .pure _)
  | some f =>
    have hf := h f (List.mem_of_find?_eq_some hfind)
    have hclose : Built (fun _ => False) Read.tryCloseObject :=
      .bind .peekToken fun _ => .ite .discard (.pure ())
    refine .ite (.bind (spares_of_built hclose) fun _ _ _ => nofun) ?_
    exact .bind (spares_of_built .colon) fun _ => .bind hf fun _ => spares_of_built (.pure _)

theorem IsSpared.record {shape : Shape σ} (h : ∀ f ∈ shape.fields, f.value.IsSpared cs) :
    (record shape).IsSpared cs := by
  have hturn (s : ObjectState σ) : Spares (encode cs) ((memberStep shape.fields).turn s) := by
    intro c hc
    refine .bind (spares_of_built (.hasMember _) c hc) fun more c' hrun hc' => ?_
    cases more with
    | false => exact spares_of_built (.pure _) c' hc'
    | true =>
      have hhead := Read.head?_of_hasMember hrun
      have hquote (b : UInt8) (bs : List UInt8) (hbs : c'.rest = b :: bs) :
          ∃ a, (Read.nextIn .string).run c' = .ok (a, c'.pass 1) :=
        ⟨b, Read.run_nextIn_cons .string hbs⟩
      refine decodes_quoted hc' hhead hquote fun key => ?_
      exact .bind (spares_member h s key) fun _ => spares_of_built (.pure _)
  refine .bind (Spares.opening _ _) fun b => .ite ?_ ?_
  · exact .bind (spares_positional h true _) fun _ =>
      spares_of_built (.bind .closeArray fun _ => .pure _)
  · exact .bind (.iterate hturn _) fun _ => spares_of_built (.bind .discard fun _ => .pure _)

/-- A document that is UTF-8 is not refused for its characters. -/
theorem IsSpared.cause_ne {v : Value α} (h : v.IsSpared cs) {f : Fault}
    (hdocument : v.document (encode cs) = .error f) : f.cause ≠ .invalidUtf8 := by
  have hwhole : Spares (encode cs) v.whole :=
    .bind h fun _ => spares_of_built (.bind .peekToken fun _ => .ite (.failAhead _ rfl) (.pure _))
  have hdecodes := hwhole (.start (encode cs)) (List.suffix_refl _)
  rwa [document_eq_error_iff.1 hdocument] at hdecodes

end Value

end DeletionGuard.Json
