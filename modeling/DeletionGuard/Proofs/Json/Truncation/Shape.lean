import DeletionGuard.Proofs.Json.Truncation.Skip

/-!
# Values of known shapes that are cut short

A list or a record is read up to its closing bracket, and nothing else ends it: where the document
is cut before that, no shorter list and no smaller record is made of what is there.
-/

namespace DeletionGuard.Json

open Read (endsAt_failAhead)

/-- Before another part there is `P`, and after the last one the closing bracket. -/
def Standing.continues (P : Standing) (close : UInt8) : Bool → Standing
  | true => P
  | false => .facing .outside close

/-- Behind the last field of an array a comma is out of place. -/
theorem Read.fails_trailingComma :
    Read.Fails (do
      Read.discard
      if (← Read.peekToken) = some (byte ']') then
        Read.failAhead .trailingComma
      else
        Read.failAhead .trailingCharacters : Read Unit) := by
  refine .after _ fun _ => .after _ fun t => ?_
  split
  · exact Read.fails_failWith _
  · exact Read.fails_failWith _

namespace Truncates

variable {α : Type}

theorem opening {heads : List UInt8} (expected : String) :
    Truncates (.within .outside) (Read.opening heads expected)
      fun b s _ => b ∈ heads ∧ s = Quotation.outside.next b := by
  refine peekToken_bind (fun c _ => endsAt_failAhead .value c) fun b _ => ?_
  refine .ite (fun hb => ?_) fun _ => .fails (.after _ fun _ => Read.fails_failWith _)
  refine (nextIn_facing .value).post ?_
  rintro b' s _ ⟨rfl, rfl⟩
  exact ⟨hb, rfl⟩

theorem hasElement (first : Bool) :
    Truncates (.within .outside) (Read.hasElement first)
      (.continues (.within .outside) (byte ']')) := by
  refine peekToken_bind (fun c _ => endsAt_failAhead .list c) fun b _ => ?_
  refine .ite (fun hclose => .pure fun s bs hs => ?_) fun _ => .ite (fun _ => .pure fun s bs hs => hs.1)
    fun _ => .ite (fun hcomma => ?_) fun _ => .failAhead _
  · rwa [hclose] at hs
  · have hb : b ≠ byte '"' := by
      rw [hcomma]
      decide
    refine (discard_mark hb).bind fun _ => ?_
    refine peekToken_bind (fun c _ => endsAt_failAhead .value c) fun b _ => ?_
    exact .ite (fun _ => .failAhead _) fun _ => .pure fun s bs hs => hs.1

theorem closeArray :
    Truncates (.within .outside) Read.closeArray fun _ => .within .outside := by
  refine peekToken_bind (fun c _ => endsAt_failAhead .list c) fun b _ => ?_
  refine .ite (fun hclose => discard_mark ?_) fun _ => .ite (fun _ => .fails ?_) fun _ => .failAhead _
  · rw [hclose]
    decide
  · exact Read.fails_trailingComma

theorem hasMember (first : Bool) :
    Truncates (.within .outside) (Read.hasMember first)
      (.continues (.facing .outside (byte '"')) (byte '}')) := by
  refine peekToken_bind (fun c _ => endsAt_failAhead .object c) fun b _ => ?_
  refine .ite (fun hclose => .pure fun s bs hs => ?_) fun _ => .ite (fun _ => ?_) fun _ =>
    .ite (fun hcomma => ?_) fun _ => .failAhead _
  · rwa [hclose] at hs
  · refine .ite (fun hquote => .pure fun s bs hs => ?_) fun _ => .failAhead _
    rwa [hquote] at hs
  · have hb : b ≠ byte '"' := by
      rw [hcomma]
      decide
    refine (discard_mark hb).bind fun _ => ?_
    refine peekToken_bind (fun c _ => endsAt_failAhead .value c) fun b _ => ?_
    refine .ite (fun hquote => .pure fun s bs hs => ?_) fun _ => .ite (fun _ => .failAhead _)
      fun _ => .failAhead _
    rwa [hquote] at hs

theorem colon : Truncates (.within .outside) Read.colon fun _ => .within .outside := by
  refine peekToken_bind (fun c _ => endsAt_failAhead .object c) fun b _ => ?_
  refine .ite (fun hcolon => discard_mark ?_) fun _ => .failAhead _
  rw [hcolon]
  decide

end Truncates

namespace Value

variable {α σ : Type}

/-- The reader of a value comes to the end where there is nothing, and wherever the value is cut. -/
structure IsTruncated (v : Value α) : Prop where
  endsAt : ∀ c : Cursor, c.rest = [] → v.read.EndsAt c
  truncates : Truncates (.within .outside) v.read fun _ => .within .outside

theorem endsAt_opening_bind {heads : List UInt8} {expected : String} {q : UInt8 → Read α}
    {c : Cursor} (hc : c.rest = []) : (Read.opening heads expected >>= q).EndsAt c := by
  refine Read.EndsAt.bind (Read.endsAt_peekToken_bind (fun c _ => endsAt_failAhead .value c) ?_)
  rw [hc]
  rfl

theorem isTruncated_text : text.IsTruncated where
  endsAt c hc := endsAt_opening_bind hc
  truncates := by
    refine (Truncates.opening _).bind fun b => Truncates.text.pre ?_
    rintro s _ ⟨hb, rfl⟩
    rw [List.mem_singleton.1 hb]
    rfl

/-- The closing bracket is passed when there is nothing more in front of it. -/
theorem truncates_close {close : UInt8} (hclose : close ≠ byte '"') (a : α) :
    Truncates (.facing .outside close) (do Read.discard; return a) fun _ => .within .outside :=
  (Truncates.discard_mark hclose).bind fun _ => .pure fun _ _ => id

theorem IsTruncated.list {item : Value α} (h : item.IsTruncated) : item.list.IsTruncated where
  endsAt c hc := endsAt_opening_bind hc
  truncates := by
    have hturn (s : ListState α) : Truncates (.within .outside) ((elementStep item).turn s)
        (AfterTurn (fun _ => .facing .outside (byte ']')) fun _ => .within .outside) := by
      refine (Truncates.hasElement s.first).bind fun more => ?_
      cases more with
      | true => exact h.truncates.bind fun a => .pure fun _ _ => id
      | false => exact .pure fun _ _ => id
    refine (Truncates.opening _).bind fun b => Truncates.pre (P := .within .outside) ?_ ?_
    · refine (Truncates.iterate hturn ⟨true, []⟩).bind fun items => ?_
      exact truncates_close (by decide) items
    · rintro s _ ⟨hb, rfl⟩
      rw [List.mem_singleton.1 hb]
      rfl

theorem IsTruncated.orNull {v : Value α} (h : v.IsTruncated) (set : α → σ → σ) :
    (v.orNull set).IsTruncated := by
  have hnone (c : Cursor) (hc : c.rest = []) : (v.read >>= fun a => pure (set a)).EndsAt c :=
    (h.endsAt c hc).bind
  refine ⟨fun c hc => Read.endsAt_peekToken_bind hnone (by rw [hc]; rfl), ?_⟩
  refine Truncates.peekToken_bind hnone fun b _ => .ite (fun hb => ?_) fun _ => ?_
  · obtain rfl := Option.some.inj hb
    refine Truncates.nextIn_bind .value ((Truncates.word ?_).bind fun _ => .pure fun _ _ => id)
    decide
  · exact h.truncates.facing.bind fun a => .pure fun _ _ => id

variable {fields : List (Field σ)}

theorem truncates_positional (h : ∀ f ∈ fields, f.value.IsTruncated) (first : Bool) (s : σ) :
    Truncates (.within .outside) (positional fields first s) fun _ => .within .outside := by
  induction fields generalizing first s with
  | nil => exact .pure fun _ _ => id
  | cons f fields ih =>
    obtain ⟨hf, hfields⟩ := List.forall_mem_cons.1 h
    refine (Truncates.hasElement first).bind fun more => ?_
    cases more with
    | true => exact hf.truncates.bind fun change => ih hfields false (change s)
    | false => exact .pure fun _ _ hs => hs.1

theorem truncates_member (h : ∀ f ∈ fields, f.value.IsTruncated) (s : ObjectState σ)
    (key : String) :
    Truncates (.within .outside) (member fields s key) fun _ => .within .outside := by
  unfold member
  cases hfind : fields.find? (·.key == key) with
  | none =>
    exact Truncates.colon.bind fun _ => Truncates.skipValue.bind fun _ => .pure fun _ _ => id
  | some f =>
    have hf := h f (List.mem_of_find?_eq_some hfind)
    refine .ite (fun _ => .fails (.after _ fun _ => Read.fails_failWith _)) fun _ => ?_
    exact Truncates.colon.bind fun _ => hf.truncates.bind fun _ => .pure fun _ _ => id

theorem truncates_members (h : ∀ f ∈ fields, f.value.IsTruncated) (s : ObjectState σ) :
    Truncates (.within .outside) (Reader.iterate (memberStep fields) s)
      fun _ => .facing .outside (byte '}') := by
  have hturn (s : ObjectState σ) : Truncates (.within .outside) ((memberStep fields).turn s)
      (AfterTurn (fun _ => .facing .outside (byte '}')) fun _ => .within .outside) := by
    refine (Truncates.hasMember s.first).bind fun more => ?_
    cases more with
    | true =>
      refine Truncates.nextIn_bind .string (Truncates.text.bind fun key => ?_)
      exact (truncates_member h s key).bind fun _ => .pure fun _ _ => id
    | false => exact .pure fun _ _ => id
  exact Truncates.iterate hturn s

theorem IsTruncated.record {shape : Shape σ} (h : ∀ f ∈ shape.fields, f.value.IsTruncated) :
    (record shape).IsTruncated where
  endsAt c hc := endsAt_opening_bind hc
  truncates := by
    refine (Truncates.opening _).bind fun b => Truncates.pre (P := .within .outside) ?_ ?_
    · refine .ite (fun _ => ?_) fun _ => ?_
      · refine (truncates_positional h true _).bind fun s => ?_
        exact Truncates.closeArray.bind fun _ => .pure fun _ _ => id
      · refine (truncates_members h _).bind fun s => ?_
        exact truncates_close (by decide) s
    · rintro s _ ⟨hb, rfl⟩
      simp only [List.mem_cons, List.not_mem_nil, or_false] at hb
      rcases hb with rfl | rfl <;> rfl

/-! ### The closing bracket of a record -/

def IsClosing (b : UInt8) : Prop :=
  b = byte ']' ∨ b = byte '}'

theorem exists_close_of_closeArray {c c' : Cursor} (hrun : Read.closeArray.run c = .ok ((), c')) :
    ∃ blanks, c.rest = blanks ++ byte ']' :: c'.rest := by
  obtain ⟨c₁, hpeek, hrest⟩ := Read.run_peekToken c
  rw [Read.closeArray, Reader.run_bind, hpeek] at hrun
  cases hbytes : c₁.rest with
  | nil =>
    rw [hbytes] at hrun
    cases hrun
  | cons b bs =>
    rw [hbytes, List.head?_cons] at hrun
    dsimp only at hrun
    split at hrun
    · next hclose =>
      cases hrun
      refine ⟨c.rest.takeWhile isBlank, ?_⟩
      have hleft : (c₁.pass 1).rest = bs := by simp [Cursor.pass, hbytes]
      rw [hleft, ← hclose, ← hbytes, hrest, List.takeWhile_append_dropWhile]
    · split at hrun
      · obtain ⟨f, hf⟩ := Read.fails_trailingComma c₁
        rw [hf] at hrun
        cases hrun
      · cases hrun

theorem exists_close {shape : Shape σ} (h : ∀ f ∈ shape.fields, f.value.IsTruncated)
    {c c' : Cursor} {s : σ} (hrun : (record shape).read.run c = .ok (s, c')) :
    ∃ body close, c.rest = body ++ close :: c'.rest ∧ IsClosing close := by
  obtain ⟨b, c₁, hopen, hrun⟩ := Reader.run_bind_eq_ok.1 hrun
  obtain ⟨opened, hc, -⟩ := (Truncates.opening shape.phrase).run (s := .outside) rfl hopen
  split at hrun
  · obtain ⟨s', c₂, hfields, hrun⟩ := Reader.run_bind_eq_ok.1 hrun
    obtain ⟨_, c₃, hclose, hrun⟩ := Reader.run_bind_eq_ok.1 hrun
    cases hrun
    obtain ⟨passed, hc₁, -⟩ := (truncates_positional h true shape.empty).run rfl hfields
    obtain ⟨blanks, hc₂⟩ := exists_close_of_closeArray hclose
    exact ⟨opened ++ (passed ++ blanks), byte ']', by rw [hc, hc₁, hc₂]; simp, .inl rfl⟩
  · obtain ⟨s', c₂, hmembers, hrun⟩ := Reader.run_bind_eq_ok.1 hrun
    cases hrun
    obtain ⟨passed, hc₁, -, hclose⟩ := (truncates_members h _).run rfl hmembers
    obtain ⟨bs, hc₂⟩ := List.head?_eq_some_iff.1 hclose
    have hleft : (c₂.pass 1).rest = bs := by simp [Cursor.pass, hc₂]
    refine ⟨opened ++ passed, byte '}', ?_, .inr rfl⟩
    rw [hc, hc₁, hc₂, hleft, List.append_assoc]

/-! ### Documents -/

theorem document_eq_error {v : Value α} {bytes : List UInt8} {f : Fault}
    (h : v.read.run (.start bytes) = .error f) : v.document bytes = .error f := by
  unfold document
  dsimp only
  rw [Reader.run_bind, h]
  rfl

theorem document_eq_ok {v : Value α} {bytes : List UInt8} {a : α} (h : v.document bytes = .ok a) :
    ∃ c, v.read.run (.start bytes) = .ok (a, c) ∧ ∀ b ∈ c.rest, isBlank b = true := by
  unfold document at h
  dsimp only at h
  rw [Reader.run_bind] at h
  cases hrun : v.read.run (.start bytes) with
  | error f =>
    rw [hrun] at h
    cases h
  | ok r =>
    obtain ⟨a', c⟩ := r
    obtain ⟨c₁, hpeek, hrest⟩ := Read.run_peekToken c
    rw [hrun] at h
    dsimp only at h
    rw [Reader.run_bind, hpeek] at h
    cases hbytes : c₁.rest with
    | cons b bs =>
      rw [hbytes] at h
      cases h
    | nil =>
      rw [hbytes] at h
      cases h
      exact ⟨c, rfl, List.dropWhile_eq_nil_iff.1 (hrest.symm.trans hbytes)⟩

theorem not_isClosing_of_cutsNumber {left right : List UInt8} (h : CutsNumber .outside left right)
    {body : List UInt8} {close : UInt8} (hleft : left = body ++ [close]) : ¬ IsClosing close := by
  obtain ⟨before, n, u, v, after, rfl, -, hu, -, htext, -⟩ := h
  obtain ⟨u', b, rfl⟩ := (List.eq_nil_or_concat u).resolve_left hu
  have hlast : b = close := by
    have hlast := congrArg List.getLast? hleft
    simpa using hlast
  have hb : b ∈ Utf8.encode n.text := by
    rw [← htext]
    simp
  rw [← hlast]
  rintro (h | h)
  · exact Numeral.ne_of_mem_encode hb (by decide) (by decide) (by decide) h
  · exact Numeral.ne_of_mem_encode hb (by decide) (by decide) (by decide) h

/-- A record that is cut before its closing bracket is refused because the document has ended,
unless the cut falls inside a number. -/
theorem document_take {shape : Shape σ} (h : ∀ f ∈ shape.fields, f.value.IsTruncated)
    {bytes : List UInt8} {s : σ} (hdocument : (record shape).document bytes = .ok s) :
    ∃ body close blanks, bytes = body ++ close :: blanks ∧ IsClosing close ∧
      (∀ b ∈ blanks, isBlank b = true) ∧ ∀ k ≤ body.length,
        ∃ f, (record shape).document (bytes.take k) = .error f ∧
          (f.IsEnd ∨ CutsNumber .outside (bytes.take k) (bytes.drop k)) := by
  obtain ⟨c, hrun, hblank⟩ := document_eq_ok hdocument
  obtain ⟨body, close, hbytes, hclose⟩ := exists_close h hrun
  refine ⟨body, close, c.rest, hbytes, hclose, hblank, fun k hk => ?_⟩
  let d := Cursor.start (bytes.take k)
  have hcut : bytes = d.rest ++ bytes.drop k := (List.take_append_drop k bytes).symm
  have hlength : d.rest.length ≤ body.length := (List.length_take_le k bytes).trans hk
  rcases (IsTruncated.record h).truncates .outside (.start bytes) d _ hcut rfl s c hrun with
    @⟨passed, d', -, hsplit, hrest, -⟩ | ⟨f, hf, hend⟩ | ⟨hnumber, ⟨f, hf⟩ | ⟨_, d', hd, hnil, -⟩⟩
  · have hall := congrArg List.length (hbytes.symm.trans hcut)
    have hleft := congrArg List.length hsplit
    have hbehind := congrArg List.length hrest
    simp only [List.length_append, List.length_cons] at hall hleft hbehind
    omega
  · exact ⟨f, document_eq_error hf, .inl hend⟩
  · exact ⟨f, document_eq_error hf, .inr hnumber⟩
  · obtain ⟨body', close', hbytes', hclose'⟩ := exists_close h hd
    rw [hnil] at hbytes'
    exact absurd hclose' (not_isClosing_of_cutsNumber hnumber hbytes')

end Value

end DeletionGuard.Json
