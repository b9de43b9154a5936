import DeletionGuard.Json.Shape
import DeletionGuard.Proofs.Json.Literal

/-!
# Documents that are cut short

What a reader comes to where a document is cut short that it can read. `Truncates` compares the two
runs: either the reader has not come to the cut, and then nothing is changed, or it fails as a
reader does that has come to the end too early, or the cut falls inside a number, which can be a
number even so. A number that is cut short leaves nothing, so the reader behind it is at the end.

`Truncates` is kept by sequencing and repetition, but does not hold of looking at a byte, which
behaves well only together with what goes by the byte that is seen.
-/

namespace DeletionGuard.Json

open Reader (Turn Step iterate runSteps)

/-! ### Quotes -/

/-- Where a byte stands to the literals of a document. -/
inductive Quotation where
  | outside
  | inside
  /-- Behind a backslash in a literal. -/
  | escaped
  deriving DecidableEq, Repr

namespace Quotation

def next : Quotation → UInt8 → Quotation
  | outside, b => if b = byte '"' then inside else outside
  | inside, b => if b = byte '"' then outside else if b = byte '\\' then escaped else inside
  | escaped, _ => inside

def after (s : Quotation) (bytes : List UInt8) : Quotation :=
  bytes.foldl next s

theorem after_append (s : Quotation) (bytes bytes' : List UInt8) :
    s.after (bytes ++ bytes') = (s.after bytes).after bytes' :=
  List.foldl_append

theorem next_outside {b : UInt8} (h : b ≠ byte '"') : outside.next b = outside :=
  if_neg h

theorem next_inside {b : UInt8} (hquote : b ≠ byte '"') (hescape : b ≠ byte '\\') :
    inside.next b = inside := by
  rw [next, if_neg hquote, if_neg hescape]

theorem after_outside {bytes : List UInt8} (h : ∀ b ∈ bytes, b ≠ byte '"') :
    outside.after bytes = outside := by
  induction bytes with
  | nil => rfl
  | cons b bytes ih =>
    obtain ⟨hb, hbytes⟩ := List.forall_mem_cons.1 h
    change (outside.next b).after bytes = outside
    rw [next_outside hb]
    exact ih hbytes

end Quotation

/-- A cut between `left` and `right` falls inside a number that stands outside literals. -/
def CutsNumber (s : Quotation) (left right : List UInt8) : Prop :=
  ∃ (before : List UInt8) (n : Numeral) (u v after : List UInt8),
    left = before ++ u ∧ right = v ++ after ∧ u ≠ [] ∧ v ≠ [] ∧ u ++ v = Utf8.encode n.text ∧
      s.after before = .outside

theorem CutsNumber.prepend {s : Quotation} {passed left right : List UInt8}
    (h : CutsNumber (s.after passed) left right) : CutsNumber s (passed ++ left) right := by
  obtain ⟨before, n, u, v, after, rfl, hright, hu, hv, htext, hbefore⟩ := h
  refine ⟨passed ++ before, n, u, v, after, ?_, hright, hu, hv, htext, ?_⟩
  · rw [List.append_assoc]
  · rw [Quotation.after_append, hbefore]

theorem CutsNumber.ne_nil {s : Quotation} {left right : List UInt8} (h : CutsNumber s left right) :
    left ≠ [] ∧ right ≠ [] := by
  obtain ⟨before, n, u, v, after, rfl, rfl, hu, hv, -⟩ := h
  exact ⟨List.append_ne_nil_of_right_ne_nil _ hu, List.append_ne_nil_of_left_ne_nil hv _⟩

/-! ### Two runs -/

/-- What is known of the quotes and of the bytes that are left. -/
abbrev Standing := Quotation → List UInt8 → Prop

/-- A fault that says that the document has ended. -/
def Fault.IsEnd (f : Fault) : Prop :=
  ∃ inside, f.cause = .endOfInput inside

/-- `r` fails before `c` because the document has ended. -/
def Read.EndsAt {α : Type} (r : Read α) (c : Cursor) : Prop :=
  ∃ f, r.run c = .error f ∧ f.IsEnd

/-- What `r` comes to before `d` if it gives `a` where `right` follows, and then leaves `rest`. -/
inductive Truncated {α : Type} (r : Read α) (Q : α → Standing) (s : Quotation) (d : Cursor)
    (right rest : List UInt8) (a : α) : Prop
  | before (passed : List UInt8) {d' : Cursor} (run : r.run d = .ok (a, d'))
      (split : d.rest = passed ++ d'.rest) (rest_eq : rest = d'.rest ++ right)
      (post : Q a (s.after passed) d'.rest)
  | ended (ends : r.EndsAt d)
  | inNumber (cut : CutsNumber s d.rest right)
      (outcome : (∃ f, r.run d = .error f) ∨
        ∃ s' d', r.run d = .ok (a, d') ∧ d'.rest = [] ∧ Q a s' [])

/-- From a standing `P` on, `r` is truncated by every cut, and leads to a standing `Q`. -/
def Truncates {α : Type} (P : Standing) (r : Read α) (Q : α → Standing) : Prop :=
  ∀ (s : Quotation) (c d : Cursor) (right : List UInt8), c.rest = d.rest ++ right → P s d.rest →
    ∀ a c', r.run c = .ok (a, c') → Truncated r Q s d right c'.rest a

namespace Truncates

variable {α β τ : Type} {P P' : Standing} {Q Q' : α → Standing} {R : β → Standing}
  {p r r' : Read α} {q : α → Read β}

theorem mono (h : Truncates P r Q) (hpre : ∀ s bs, P' s bs → P s bs)
    (hpost : ∀ a s bs, Q a s bs → Q' a s bs) : Truncates P' r Q' := by
  intro s c d right hc hs a c' hrun
  rcases h s c d right hc (hpre s _ hs) a c' hrun with ⟨passed, hd, hsplit, hrest, ha⟩ | hends | ⟨hcut, hd⟩
  · exact .before passed hd hsplit hrest (hpost _ _ _ ha)
  · exact .ended hends
  · refine .inNumber hcut (hd.imp id ?_)
    rintro ⟨s', d', hd, hrest, ha⟩
    exact ⟨s', d', hd, hrest, hpost _ _ _ ha⟩

theorem pre (h : Truncates P r Q) (hpre : ∀ s bs, P' s bs → P s bs) : Truncates P' r Q :=
  h.mono hpre fun _ _ _ => id

theorem post (h : Truncates P r Q) (hpost : ∀ a s bs, Q a s bs → Q' a s bs) : Truncates P r Q' :=
  h.mono (fun _ _ => id) hpost

theorem pure {a : α} (h : ∀ s bs, P s bs → Q a s bs) : Truncates P (pure a) Q := by
  intro s c d right hc hs b c' hrun
  cases hrun
  exact .before [] rfl rfl hc (h s _ hs)

theorem fails (h : Read.Fails r) : Truncates P r Q := by
  intro s c d right _ _ a c' hrun
  obtain ⟨f, hf⟩ := h c
  rw [hf] at hrun
  cases hrun

theorem fail (cause : Cause) : Truncates P (Read.fail cause : Read α) Q :=
  fails (Read.fails_failWith _)

theorem failAhead (cause : Cause) : Truncates P (Read.failAhead cause : Read α) Q :=
  fails (Read.fails_failWith _)

theorem ite {C : Prop} [Decidable C] (h : C → Truncates P r Q) (h' : ¬ C → Truncates P r' Q) :
    Truncates P (if C then r else r') Q := by
  split
  · next hC => exact h hC
  · next hC => exact h' hC

end Truncates

/-! ### Sequencing and repetition -/

section

variable {α β τ : Type} {s : Quotation} {d : Cursor} {right rest rest₁ : List UInt8}

/-- Only the run before the cut counts. -/
theorem Truncated.congr {r r' : Read α} {Q : α → Standing} {a : α} (hrun : r.run d = r'.run d)
    (h : Truncated r Q s d right rest a) : Truncated r' Q s d right rest a := by
  rcases h with ⟨passed, hd, hsplit, hrest, ha⟩ | ⟨f, hd, hend⟩ | ⟨hcut, hd⟩
  · exact .before passed (hrun.symm.trans hd) hsplit hrest ha
  · exact .ended ⟨f, hrun.symm.trans hd, hend⟩
  · rw [hrun] at hd
    exact .inNumber hcut hd

theorem Truncated.bind {p : Read α} {q : α → Read β} {Q : α → Standing} {R : β → Standing}
    {a : α} {b : β} (hp : Truncated p Q s d right rest₁ a)
    (hq : ∀ s' d₁ right', rest₁ = d₁.rest ++ right' → Q a s' d₁.rest →
      Truncated (q a) R s' d₁ right' rest b) :
    Truncated (p >>= q) R s d right rest b := by
  have hbind {d₁ : Cursor} (hd : p.run d = .ok (a, d₁)) :
      (p >>= q).run d = (q a).run d₁ := by rw [Reader.run_bind, hd]
  rcases hp with @⟨passed, d₁, hd, hsplit, hrest, ha⟩ | ⟨f, hd, hend⟩ | ⟨hcut, hd⟩
  · rcases hq _ d₁ right hrest ha with ⟨passed', hd', hsplit', hrest', hb⟩ | ⟨f, hd', hend⟩ | ⟨hcut, hd'⟩
    · refine .before (passed ++ passed') ((hbind hd).trans hd') ?_ hrest' (Quotation.after_append s _ _ ▸ hb)
      rw [List.append_assoc, ← hsplit', hsplit]
    · exact .ended ⟨f, (hbind hd).trans hd', hend⟩
    · refine .inNumber (hsplit ▸ hcut.prepend) ?_
      rw [hbind hd]
      exact hd'
  · exact .ended ⟨f, by rw [Reader.run_bind, hd], hend⟩
  · rcases hd with ⟨f, hd⟩ | ⟨s', d₁, hd, hnil, ha⟩
    · exact .inNumber hcut (.inl ⟨f, by rw [Reader.run_bind, hd]⟩)
    · have hrest : rest₁ = d₁.rest ++ rest₁ := by rw [hnil, List.nil_append]
      refine .inNumber hcut ?_
      rw [hbind hd]
      rcases hq s' d₁ rest₁ hrest (hnil ▸ ha) with
        ⟨_, hd', hsplit, -, hb⟩ | ⟨f, hd', -⟩ | ⟨hcut', -⟩
      · rw [hnil] at hsplit
        obtain ⟨-, hnil'⟩ := List.append_eq_nil_iff.1 hsplit.symm
        exact .inr ⟨_, _, hd', hnil', hnil' ▸ hb⟩
      · exact .inl ⟨f, hd'⟩
      · exact absurd hnil hcut'.ne_nil.1

theorem Truncates.bind {P : Standing} {p : Read α} {q : α → Read β} {Q : α → Standing}
    {R : β → Standing} (hp : Truncates P p Q) (hq : ∀ a, Truncates (Q a) (q a) R) :
    Truncates P (p >>= q) R := by
  intro s c d right hc hs b c' hrun
  obtain ⟨a, c₁, hrun₁, hrun₂⟩ := Reader.run_bind_eq_ok.1 hrun
  refine (hp s c d right hc hs a c₁ hrun₁).bind fun s' d₁ right' hc₁ ha => ?_
  exact hq a s' c₁ d₁ right' hc₁ ha b c' hrun₂

/-- What a turn leads to: `Q` if it is the last one, and `I` if another one follows. -/
def AfterTurn (Q : α → Standing) (I : τ → Standing) : Turn τ α → Standing
  | .done a => Q a
  | .again t => I t

theorem Truncates.iterate {step : Step Cursor Fault τ α} {Q : α → Standing} {I : τ → Standing}
    (h : ∀ t, Truncates (I t) (step.turn t) (AfterTurn Q I)) (t : τ) :
    Truncates (I t) (iterate step t) Q := by
  intro s c d right hc hs a c' hrun
  let goOn : Turn τ α → Read α
    | .done a => Pure.pure a
    | .again t => Reader.iterate step t
  have hunfold (t : τ) (d : Cursor) :
      (step.turn t >>= goOn).run d = (Reader.iterate step t).run d := by
    rw [Reader.run_iterate, Reader.run_bind]
    rcases (step.turn t).run d with f | ⟨_ | _, d'⟩ <;> rfl
  change runSteps step t c = .ok (a, c') at hrun
  fun_induction runSteps step t c generalizing s d right with
  | case1 => cases hrun
  | case2 t c a' c₁ hturn =>
    cases hrun
    refine .congr (hunfold t d) ((h t s c d right hc hs _ _ hturn).bind fun s' d₁ right' hc₁ ha => ?_)
    exact .before [] rfl rfl hc₁ ha
  | case3 t c t' c₁ hturn ih =>
    refine .congr (hunfold t d) ((h t s c d right hc hs _ _ hturn).bind fun s' d₁ right' hc₁ ht => ?_)
    exact ih s' d₁ right' hc₁ ht hrun

/-- A document that is not cut is read up to a standing that the reader leads to. -/
theorem Truncates.run {P : Standing} {r : Read α} {Q : α → Standing} (h : Truncates P r Q)
    {s : Quotation} {c c' : Cursor} {a : α} (hs : P s c.rest) (hrun : r.run c = .ok (a, c')) :
    ∃ passed, c.rest = passed ++ c'.rest ∧ Q a (s.after passed) c'.rest := by
  rcases h s c c [] (List.append_nil _).symm hs a c' hrun with
    @⟨passed, d', hd, hsplit, -, ha⟩ | ⟨f, hd, -⟩ | ⟨hcut, -⟩
  · rw [hrun] at hd
    cases hd
    exact ⟨passed, hsplit, ha⟩
  · rw [hrun] at hd
    cases hd
  · exact absurd rfl hcut.ne_nil.2

end

/-! ### Readers of a byte -/

namespace Standing

def within (s₀ : Quotation) : Standing :=
  fun s _ => s = s₀

/-- The next byte is `b`. -/
def facing (s₀ : Quotation) (b : UInt8) : Standing :=
  fun s bytes => s = s₀ ∧ bytes.head? = some b

end Standing

namespace Truncates

variable {α : Type} {P : Standing} {Q : α → Standing} {s₀ : Quotation} {b : UInt8}

theorem facing {r : Read α} (h : Truncates (.within s₀) r Q) : Truncates (.facing s₀ b) r Q :=
  h.pre fun _ _ hs => hs.1

theorem next_byte (inside : Construct) :
    Truncates P (Read.nextIn inside) fun b s bs => ∃ s₁, s = s₁.next b ∧ P s₁ (b :: bs) := by
  intro s c d right hc hs a c' hrun
  cases hd : d.rest with
  | nil =>
    refine .ended ⟨⟨.endOfInput inside, d.offset, d.seen⟩, ?_, inside, rfl⟩
    rw [Read.nextIn, Reader.run_bind]
    simp only [Read.next, hd]
    rfl
  | cons b bs =>
    rw [hd, List.cons_append] at hc
    rw [hd] at hs
    rw [Read.run_nextIn_cons inside hc] at hrun
    cases hrun
    have hleft : (d.pass 1).rest = bs := by simp [Cursor.pass, hd]
    refine .before [a] (Read.run_nextIn_cons inside hd) (by rw [hd, hleft]; rfl) ?_ ?_
    · rw [hleft]
      simp [Cursor.pass, hc]
    · rw [hleft]
      exact ⟨s, rfl, hs⟩

theorem nextIn (inside : Construct) :
    Truncates (.within s₀) (Read.nextIn inside) fun b => .within (s₀.next b) := by
  refine (next_byte inside).post ?_
  rintro b _ bs ⟨s₁, rfl, rfl⟩
  rfl

theorem nextIn_facing (inside : Construct) :
    Truncates (.facing s₀ b) (Read.nextIn inside) fun b' s _ => b' = b ∧ s = s₀.next b := by
  refine (next_byte inside).post ?_
  rintro b' _ bs ⟨s₁, rfl, rfl, hb⟩
  obtain rfl := Option.some.inj hb
  exact ⟨rfl, rfl⟩

theorem discard : Truncates (.facing s₀ b) Read.discard fun _ => .within (s₀.next b) := by
  intro s c d right hc hs a c' hrun
  obtain ⟨rfl, hb⟩ := hs
  obtain ⟨bs, hd⟩ := List.head?_eq_some_iff.1 hb
  cases hrun
  have hleft : (d.pass 1).rest = bs := by simp [Cursor.pass, hd]
  refine .before [b] rfl (by rw [hd, hleft]; rfl) ?_ rfl
  rw [hleft]
  simp [Cursor.pass, hc, hd]

end Truncates

namespace Read

variable {α : Type} {f : Option UInt8 → Read α}

theorem run_peekToken (c : Cursor) : ∃ c', peekToken.run c = .ok (c'.rest.head?, c') ∧
    c'.rest = c.rest.dropWhile isBlank := by
  let c₁ := (c.pass (c.rest.takeWhile isBlank).length).look
  have hrest : c₁.rest = c.rest.dropWhile isBlank := by
    rw [Cursor.rest_look]
    change c.rest.drop (c.rest.takeWhile isBlank).length = _
    nth_rewrite 2 [← List.takeWhile_append_dropWhile (p := isBlank) (l := c.rest)]
    exact List.drop_left
  refine ⟨c₁.look, ?_, ?_⟩
  · rw [Cursor.rest_look]
    rfl
  · rw [Cursor.rest_look, hrest]

theorem endsAt_failAhead (inside : Construct) (c : Cursor) :
    (failAhead (.endOfInput inside) : Read α).EndsAt c :=
  ⟨_, rfl, inside, rfl⟩

theorem EndsAt.bind {β : Type} {p : Read α} {q : α → Read β} {c : Cursor} (h : p.EndsAt c) :
    (p >>= q).EndsAt c := by
  obtain ⟨f, hf, hend⟩ := h
  exact ⟨f, by rw [Reader.run_bind, hf], hend⟩

/-- At the end there is no token. -/
theorem endsAt_peekToken_bind (hnone : ∀ c : Cursor, c.rest = [] → (f none).EndsAt c) {c : Cursor}
    (hc : c.rest.dropWhile isBlank = []) : (peekToken >>= f).EndsAt c := by
  obtain ⟨c', hrun, hrest⟩ := run_peekToken c
  obtain ⟨fault, hfault, hend⟩ := hnone c' (hrest.trans hc)
  refine ⟨fault, ?_, hend⟩
  rw [Reader.run_bind, hrun, hrest, hc]
  exact hfault

end Read

namespace Truncates

variable {α : Type} {Q : α → Standing} {f : Option UInt8 → Read α}

theorem isBlank_ne_quote {b : UInt8} (h : isBlank b = true) : b ≠ byte '"' := by
  rintro rfl
  exact absurd h (by decide)

/-- A token is looked for, and the cut may have taken it away. -/
theorem peekToken_bind (hnone : ∀ c : Cursor, c.rest = [] → (f none).EndsAt c)
    (hsome : ∀ b, isBlank b = false → Truncates (.facing .outside b) (f (some b)) Q) :
    Truncates (.within .outside) (Read.peekToken >>= f) Q := by
  intro s c d right hc hs a c' hrun
  obtain rfl : s = .outside := hs
  obtain ⟨d₁, hd, hd₁⟩ := Read.run_peekToken d
  cases hdrop : d.rest.dropWhile isBlank with
  | nil => exact .ended (Read.endsAt_peekToken_bind hnone hdrop)
  | cons b bs =>
    let ws := d.rest.takeWhile isBlank
    have hblank : ∀ b ∈ ws, isBlank b = true := fun _ h => List.mem_takeWhile_imp h
    have hb : isBlank b = false := by
      have hhead := List.head?_dropWhile_not isBlank d.rest
      rw [hdrop] at hhead
      simpa using hhead
    have hsplit : d.rest = ws ++ d₁.rest := by
      rw [hd₁]
      exact (List.takeWhile_append_dropWhile ..).symm
    have houtside : Quotation.outside.after ws = .outside :=
      Quotation.after_outside fun b h => isBlank_ne_quote (hblank b h)
    obtain ⟨c₁, hrun₁, hc₁⟩ := Read.run_peekToken c
    have hc₁' : c₁.rest = d₁.rest ++ right := by
      rw [hc₁, hc, hsplit, List.append_assoc, List.dropWhile_append_of_pos hblank, hd₁, hdrop,
        List.cons_append, List.dropWhile_cons_of_neg (by simp [hb])]
    rw [hd₁, hdrop] at hd hc₁'
    rw [Reader.run_bind, hrun₁, hc₁'] at hrun
    have hpeek : Truncated Read.peekToken (fun t s bs => t = some b ∧ Standing.facing .outside b s bs)
        .outside d right c₁.rest (some b) := by
      refine .before ws hd hsplit (hc₁'.trans (by rw [hd₁, hdrop])) ⟨rfl, houtside, ?_⟩
      rw [hd₁, hdrop]
      rfl
    refine hpeek.bind fun s' d' right' hc' ht => ?_
    exact hsome b hb s' c₁ d' right' hc' ht.2 a c' hrun

theorem word {cs : List Char} (h : byte '"' ∉ cs.map byte) :
    Truncates (.within .outside) (Read.word cs) fun _ => .within .outside := by
  induction cs with
  | nil => exact .pure fun _ _ hs => hs
  | cons c cs ih =>
    rw [List.map_cons, List.mem_cons, not_or] at h
    obtain ⟨hc, hcs⟩ := h
    refine (nextIn .value).bind fun b => .ite (fun hb => ?_) fun _ => .fail _
    refine (ih hcs).pre ?_
    rintro s _ rfl
    rw [Standing.within, hb, Quotation.next_outside (Ne.symm hc)]

end Truncates

end DeletionGuard.Json
