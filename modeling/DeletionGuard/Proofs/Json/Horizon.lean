import DeletionGuard.Proofs.Json.Place
import DeletionGuard.Proofs.Reading
import Mathlib.Data.List.TakeWhile

/-!
# What a fault depends on

A cursor keeps count of the bytes that have been looked at, and no reader decides anything by the
bytes behind them. So whatever stands there, what has been read stays the same, and so does a fault.
The exception is a text that turns out not to be UTF-8, which is told of at a place far back.
-/

namespace DeletionGuard.Json

open Reader (Turn Step iterate runSteps)

namespace Cursor

/-- The bytes that have been looked at are there, and there is one at most that has not been
passed. -/
def IsSound (c : Cursor) : Prop :=
  c.IsNear ∧ c.seen ≤ c.offset + c.rest.length

/-- The same cursor before other bytes. -/
def before (c : Cursor) (rest : List UInt8) : Cursor :=
  { c with rest }

variable {c : Cursor}

theorem seen_look (h : c.rest ≠ []) : c.look.seen = c.offset + 1 := by
  rw [look, if_neg (by simpa using h)]

theorem look_of_ne_nil (h : c.rest ≠ []) : c.look = ⟨c.offset, c.offset + 1, c.rest⟩ := by
  rw [look, if_neg (by simpa using h)]

theorem look_of_nil (h : c.rest = []) : c.look = c := by
  rw [look, if_pos (by simpa using h)]

theorem isSound_start (bytes : List UInt8) : (start bytes).IsSound :=
  ⟨isNear_start bytes, Nat.zero_le _⟩

theorem IsSound.look (h : c.IsSound) : c.look.IsSound ∧ c.seen ≤ c.look.seen := by
  obtain ⟨hnear, hseen⟩ := h
  by_cases hrest : c.rest = []
  · rw [look_of_nil hrest]
    exact ⟨⟨hnear, hseen⟩, Nat.le_refl _⟩
  · have hlength := List.length_pos_iff.2 hrest
    rw [look_of_ne_nil hrest]
    exact ⟨⟨⟨Nat.le_succ _, Nat.le_refl _⟩, by dsimp only; omega⟩, hnear.2⟩

/-- Bytes that are there are passed, and the next one is looked at. -/
theorem IsSound.pass_look (h : c.IsSound) {n : Nat} (hn : n ≤ c.rest.length) :
    (c.pass n).look.IsSound ∧ c.seen ≤ (c.pass n).look.seen := by
  obtain ⟨⟨hle, hnear⟩, hseen⟩ := h
  have hlength : (c.pass n).rest.length = c.rest.length - n := List.length_drop
  have hpass : (c.pass n).IsSound := ⟨c.isNear_pass n, Nat.le_add_right _ _⟩
  refine ⟨hpass.look.1, ?_⟩
  by_cases hrest : (c.pass n).rest = []
  · rw [look_of_nil hrest]
    rw [hrest, List.length_nil] at hlength
    change c.seen ≤ c.offset + n
    omega
  · rw [seen_look hrest]
    change c.seen ≤ c.offset + n + 1
    omega

theorem isSound_pass (c : Cursor) (n : Nat) : (c.pass n).IsSound :=
  ⟨c.isNear_pass n, Nat.le_add_right _ _⟩

end Cursor

/-! ### Bytes that have been looked at -/

section

variable {P : Cause → Prop} {α : Type} {r : Read α} {c : Cursor}

/-- No reader looks at less than has been looked at, also where it fails. -/
theorem Built.keepsSeen (h : Built P r) (n : Nat) :
    Keeps (fun c => c.IsSound ∧ n ≤ c.seen)
      (fun f => f.cause ≠ .invalidUtf8 → n ≤ f.inStream) r := by
  apply h.keeps
  constructor
  · exact fun hc => ⟨hc.1.look.1, Nat.le_trans hc.2 hc.1.look.2⟩
  · exact fun {c} hc => ⟨c.isSound_pass 1, Nat.le_trans hc.2 hc.1.1.2⟩
  · exact fun hc hn => ⟨(hc.1.pass_look hn).1, Nat.le_trans hc.2 (hc.1.pass_look hn).2⟩
  · exact fun hc _ _ => hc.2
  · exact fun hc _ _ => hc.2
  · exact fun _ _ hcause => absurd rfl hcause
  · intro c k hc _
    have hnear := hc.1.1.2
    have hseen := hc.2
    dsimp only
    omega

theorem Built.isSound_of_ok (h : Built P r) (hc : c.IsSound) {a : α} {c' : Cursor}
    (hrun : r.run c = .ok (a, c')) : c'.IsSound ∧ c.seen ≤ c'.seen :=
  (h.keepsSeen c.seen).ok ⟨hc, Nat.le_refl _⟩ hrun

theorem Built.seen_le_of_error (h : Built P r) (hc : c.IsSound) {f : Fault}
    (hrun : r.run c = .error f) (hcause : f.cause ≠ .invalidUtf8) : c.seen ≤ f.inStream :=
  (h.keepsSeen c.seen).error ⟨hc, Nat.le_refl _⟩ hrun hcause

end

/-! ### Bytes that have not been looked at -/

/-- Before `known` and other bytes, `r` does the same whatever these are, for as long as it does not
look at them. -/
def IsSettled {α : Type} (r : Read α) : Prop :=
  ∀ (c : Cursor) (known more : List UInt8), c.IsSound → c.rest = known ++ more → more ≠ [] →
    match r.run c with
    | .ok (a, c') => c'.seen ≤ c.offset + known.length →
      ∃ known', c'.rest = known' ++ more ∧ c'.offset + known'.length = c.offset + known.length ∧
        ∀ other, r.run (c.before (known ++ other)) = .ok (a, c'.before (known' ++ other))
    | .error f => f.cause ≠ .invalidUtf8 → f.inStream ≤ c.offset + known.length →
      ∀ other, r.run (c.before (known ++ other)) = .error f

namespace IsSettled

variable {P : Cause → Prop} {α β τ : Type} {c : Cursor} {known more : List UInt8}

theorem ok {r : Read α} (h : IsSettled r) {c' : Cursor} {a : α} (hc : c.IsSound)
    (hrest : c.rest = known ++ more) (hmore : more ≠ []) (hrun : r.run c = .ok (a, c'))
    (hle : c'.seen ≤ c.offset + known.length) :
    ∃ known', c'.rest = known' ++ more ∧ c'.offset + known'.length = c.offset + known.length ∧
      ∀ other, r.run (c.before (known ++ other)) = .ok (a, c'.before (known' ++ other)) := by
  have hsettled := h c known more hc hrest hmore
  rw [hrun] at hsettled
  exact hsettled hle

theorem error {r : Read α} (h : IsSettled r) {f : Fault} (hc : c.IsSound)
    (hrest : c.rest = known ++ more) (hmore : more ≠ []) (hrun : r.run c = .error f)
    (hcause : f.cause ≠ .invalidUtf8) (hle : f.inStream ≤ c.offset + known.length)
    (other : List UInt8) : r.run (c.before (known ++ other)) = .error f := by
  have hsettled := h c known more hc hrest hmore
  rw [hrun] at hsettled
  exact hsettled hcause hle other

theorem bind {p : Read α} {q : α → Read β} (hp : IsSettled p) (hq : ∀ a, IsSettled (q a))
    (hpbuilt : Built P p) (hqbuilt : ∀ a, Built P (q a)) : IsSettled (p >>= q) := by
  intro c known more hc hrest hmore
  have hfirst := hp c known more hc hrest hmore
  rw [Reader.run_bind]
  cases hrun : p.run c with
  | error f =>
    rw [hrun] at hfirst
    exact fun hcause hle other => Reader.run_bind_of_error (hfirst hcause hle other) q
  | ok r =>
    obtain ⟨a, c₁⟩ := r
    rw [hrun] at hfirst
    obtain ⟨hc₁, -⟩ := hpbuilt.isSound_of_ok hc hrun
    dsimp only
    cases hrun' : (q a).run c₁ with
    | error f =>
      intro hcause hle other
      have hseen := (hqbuilt a).seen_le_of_error hc₁ hrun' hcause
      obtain ⟨known₁, hrest₁, hlength, hother⟩ := hfirst (Nat.le_trans hseen hle)
      rw [Reader.run_bind_of_eq (hother other)]
      exact (hq a).error hc₁ hrest₁ hmore hrun' hcause (by omega) other
    | ok r' =>
      obtain ⟨b, c'⟩ := r'
      intro hle
      have hseen := ((hqbuilt a).isSound_of_ok hc₁ hrun').2
      obtain ⟨known₁, hrest₁, hlength, hother⟩ := hfirst (Nat.le_trans hseen hle)
      obtain ⟨known', hrest', hlength', hother'⟩ :=
        (hq a).ok hc₁ hrest₁ hmore hrun' (by omega)
      refine ⟨known', hrest', by omega, fun other => ?_⟩
      rw [Reader.run_bind_of_eq (hother other)]
      exact hother' other

theorem iterate {step : Step Cursor Fault τ α} (h : ∀ t, IsSettled (step.turn t))
    (hbuilt : ∀ t, Built P (step.turn t)) (t : τ) : IsSettled (iterate step t) := by
  intro c known more hc hrest hmore
  change match runSteps step t c with
    | .ok (a, c') => c'.seen ≤ c.offset + known.length →
      ∃ known', c'.rest = known' ++ more ∧ c'.offset + known'.length = c.offset + known.length ∧
        ∀ other, (Reader.iterate step t).run (c.before (known ++ other)) =
          .ok (a, c'.before (known' ++ other))
    | .error f => f.cause ≠ .invalidUtf8 → f.inStream ≤ c.offset + known.length →
      ∀ other, (Reader.iterate step t).run (c.before (known ++ other)) = .error f
  fun_induction runSteps step t c generalizing known with
  | case1 t c f hturn =>
    intro hcause hle other
    rw [Reader.run_iterate, (h t).error hc hrest hmore hturn hcause hle other]
  | case2 t c a c' hturn =>
    intro hle
    obtain ⟨known', hrest', hlength, hother⟩ := (h t).ok hc hrest hmore hturn hle
    exact ⟨known', hrest', hlength, fun other => Reader.run_iterate_done (hother other)⟩
  | case3 t c t' c₁ hturn ih =>
    obtain ⟨hc₁, -⟩ := (hbuilt t).isSound_of_ok hc hturn
    have hrun : runSteps step t' c₁ = (Reader.iterate step t').run c₁ := rfl
    cases hrun' : runSteps step t' c₁ with
    | error f =>
      intro hcause hle other
      have hseen := (Built.iterate hbuilt t').seen_le_of_error hc₁ (hrun.symm.trans hrun') hcause
      obtain ⟨known₁, hrest₁, hlength, hother⟩ :=
        (h t).ok hc hrest hmore hturn (Nat.le_trans hseen hle)
      have hrest' := ih known₁ hc₁ hrest₁
      rw [hrun'] at hrest'
      rw [Reader.run_iterate_again (hother other)]
      exact hrest' hcause (by omega) other
    | ok r =>
      obtain ⟨a, c'⟩ := r
      intro hle
      have hseen := ((Built.iterate hbuilt t').isSound_of_ok hc₁ (hrun.symm.trans hrun')).2
      obtain ⟨known₁, hrest₁, hlength, hother⟩ :=
        (h t).ok hc hrest hmore hturn (Nat.le_trans hseen hle)
      have hrest' := ih known₁ hc₁ hrest₁
      rw [hrun'] at hrest'
      obtain ⟨known', hrest'', hlength', hother'⟩ := hrest' (by omega)
      refine ⟨known', hrest'', by omega, fun other => ?_⟩
      rw [Reader.run_iterate_again (hother other)]
      exact hother' other

end IsSettled

/-! ### Bytes that are taken for as long as they satisfy something -/

section

variable {p : UInt8 → Bool} {c : Cursor} {known more taken rest : List UInt8} {b : UInt8}

theorem takeWhile_stop (htaken : ∀ x ∈ taken, p x = true) (hb : p b = false) (rest : List UInt8) :
    (taken ++ b :: rest).takeWhile p = taken := by
  rw [List.takeWhile_append_of_pos htaken, List.takeWhile_cons_of_neg (by simp [hb]),
    List.append_nil]

theorem Cursor.pass_look_stop (h : c.rest = taken ++ b :: rest) :
    (c.pass taken.length).look =
      ⟨c.offset + taken.length, c.offset + taken.length + 1, b :: rest⟩ := by
  have hrest : (c.pass taken.length).rest = b :: rest := by
    change c.rest.drop taken.length = b :: rest
    rw [h, List.drop_left]
  rw [look_of_ne_nil (hrest ▸ List.cons_ne_nil b rest), hrest]
  rfl

/-- If the byte behind those that are taken is the last one that has been looked at, then it is
among those that are known. -/
theorem exists_stop (hrest : c.rest = known ++ more) (hmore : more ≠ [])
    (hle : (c.pass (c.rest.takeWhile p).length).look.seen ≤ c.offset + known.length) :
    ∃ taken b known', known = taken ++ b :: known' ∧ (∀ x ∈ taken, p x = true) ∧ p b = false := by
  by_cases hall : ∀ x ∈ known, p x = true
  · exfalso
    have htaken : (c.rest.takeWhile p).length = known.length + (more.takeWhile p).length := by
      rw [hrest, List.takeWhile_append_of_pos hall, List.length_append]
    have hlength : c.rest.length = known.length + more.length := by
      rw [hrest, List.length_append]
    have hpos := List.length_pos_iff.2 hmore
    by_cases hend : (c.pass (c.rest.takeWhile p).length).rest = []
    · have hall := List.drop_eq_nil_iff.1 hend
      rw [Cursor.look_of_nil hend] at hle
      change c.offset + _ ≤ _ at hle
      omega
    · rw [Cursor.seen_look hend] at hle
      change c.offset + _ + 1 ≤ _ at hle
      omega
  · cases hdrop : known.dropWhile p with
    | nil => exact absurd (List.dropWhile_eq_nil_iff.1 hdrop) hall
    | cons b known' =>
      refine ⟨known.takeWhile p, b, known', ?_, fun x hx => List.mem_takeWhile_imp hx, ?_⟩
      · rw [← hdrop, List.takeWhile_append_dropWhile]
      · have hhead := List.head_dropWhile_not p (hdrop ▸ List.cons_ne_nil b known')
        simpa only [hdrop, List.head_cons] using hhead

/-- What is taken, and where it ends, does not depend on what has not been looked at. -/
theorem exists_known_of_takeWhile (hrest : c.rest = known ++ more) (hmore : more ≠ [])
    (hle : (c.pass (c.rest.takeWhile p).length).look.seen ≤ c.offset + known.length) :
    ∃ known', (c.pass (c.rest.takeWhile p).length).look.rest = known' ++ more ∧
      (c.pass (c.rest.takeWhile p).length).look.offset + known'.length =
        c.offset + known.length ∧
      ∀ other, (known ++ other).takeWhile p = c.rest.takeWhile p ∧
        ((c.before (known ++ other)).pass (c.rest.takeWhile p).length).look =
          (c.pass (c.rest.takeWhile p).length).look.before (known' ++ other) := by
  obtain ⟨taken, b, known', rfl, htaken, hb⟩ := exists_stop hrest hmore hle
  have hsplit (other : List UInt8) :
      taken ++ b :: known' ++ other = taken ++ b :: (known' ++ other) :=
    List.append_assoc ..
  rw [hsplit] at hrest
  have htake : c.rest.takeWhile p = taken := by rw [hrest, takeWhile_stop htaken hb]
  rw [htake, Cursor.pass_look_stop hrest]
  refine ⟨b :: known', rfl, ?_, fun other => ⟨?_, ?_⟩⟩
  · simp only [List.length_append, List.length_cons]
    omega
  · rw [hsplit, takeWhile_stop htaken hb]
  · rw [Cursor.pass_look_stop (hsplit other)]
    rfl

end

/-- What is left over of digits is so whatever stands behind the first one of it. -/
theorem appendDigits_cons {limit n n' : Nat} {ds left : List UInt8} {b : UInt8}
    (h : appendDigits limit n ds = (n', b :: left)) :
    ∃ used, ds = used ++ b :: left ∧
      ∀ other, appendDigits limit n (used ++ b :: other) = (n', b :: other) := by
  induction ds generalizing n with
  | nil => cases h
  | cons d ds ih =>
    rw [appendDigits] at h
    by_cases hlimit : limit < n * 10 + digitValue d
    · rw [if_pos hlimit] at h
      cases h
      refine ⟨[], rfl, fun other => ?_⟩
      rw [List.nil_append, appendDigits]
      exact if_pos hlimit
    · rw [if_neg hlimit] at h
      obtain ⟨used, rfl, hother⟩ := ih h
      refine ⟨d :: used, rfl, fun other => ?_⟩
      rw [List.cons_append, appendDigits, if_neg hlimit, hother]

/-- Digits of an exponent are all taken, or the last one in front puts the number out of range. -/
theorem exponentDigits_cases (outOfRange : Bool) (e : Nat) (ds : List UInt8) :
    (∃ value, ∀ c : Cursor, c.rest.takeWhile isDigit = ds →
      (Read.exponentDigits outOfRange e).run c = .ok (value, (c.pass ds.length).look)) ∨
    ∃ used b left, ds = used ++ b :: left ∧ ∀ (c : Cursor) (other : List UInt8),
      c.rest.takeWhile isDigit = used ++ b :: other →
        (Read.exponentDigits outOfRange e).run c = .error
          ⟨.numberOutOfRange, c.offset + (used.length + 1), c.offset + (used.length + 1)⟩ := by
  have hrun (c : Cursor) (ds : List UInt8) (hc : c.rest.takeWhile isDigit = ds)
      (r : Nat × List UInt8) (hr : appendDigits maxExponent e ds = r) :
      (Read.exponentDigits outOfRange e).run c =
        if r.2.isEmpty then .ok (some r.1, (c.pass ds.length).look)
        else if outOfRange then
          .error ⟨.numberOutOfRange, c.offset + (ds.length - r.2.length + 1),
            c.offset + (ds.length - r.2.length + 1)⟩
        else .ok (none, (c.pass ds.length).look) := by
    subst hc hr
    rfl
  rcases hdigits : appendDigits maxExponent e ds with ⟨e', left⟩
  cases left with
  | nil =>
    left
    exact ⟨some e', fun c hc => hrun c ds hc _ hdigits⟩
  | cons b left =>
    obtain ⟨used, hds, hother⟩ := appendDigits_cons hdigits
    cases outOfRange with
    | false =>
      left
      exact ⟨none, fun c hc => hrun c ds hc _ hdigits⟩
    | true =>
      right
      refine ⟨used, b, left, hds, fun c other hc => ?_⟩
      have hused : (used ++ b :: other).length - (b :: other).length = used.length := by
        rw [List.length_append, Nat.add_sub_cancel]
      rw [hrun c _ hc _ (hother other), hused]
      rfl

namespace IsSettled

theorem peek : IsSettled Read.peek := by
  intro c known more _ hrest hmore hle
  have hne : c.rest ≠ [] := hrest ▸ List.append_ne_nil_of_right_ne_nil known hmore
  rw [Cursor.seen_look hne] at hle
  obtain ⟨b, known', rfl⟩ := List.exists_cons_of_length_pos (by omega : 0 < known.length)
  refine ⟨b :: known', ?_, ?_, fun other => ?_⟩
  · rw [Cursor.rest_look, hrest]
  · rw [Cursor.look_of_ne_nil hne]
  · rw [Cursor.look_of_ne_nil hne, hrest]
    rfl

theorem next : IsSettled Read.next := by
  intro c known more _ hrest hmore
  have hrun {d : Cursor} {b : UInt8} {bs : List UInt8} (h : d.rest = b :: bs) :
      Read.next.run d = .ok (some b, ⟨d.offset + 1, d.offset + 1, bs⟩) := by
    simp [Read.next, h, Cursor.pass]
  have hne : c.rest ≠ [] := hrest ▸ List.append_ne_nil_of_right_ne_nil known hmore
  obtain ⟨x, xs, hx⟩ := List.exists_cons_of_ne_nil hne
  rw [hrun hx]
  intro hle
  dsimp only at hle
  obtain ⟨b, known', rfl⟩ := List.exists_cons_of_length_pos (by omega : 0 < known.length)
  obtain ⟨rfl, rfl⟩ := List.cons.inj (hx.symm.trans hrest)
  refine ⟨known', rfl, ?_, fun other => hrun rfl⟩
  dsimp only
  rw [List.length_cons]
  omega

theorem discard : IsSettled Read.discard := by
  intro c known more _ hrest _ hle
  change c.offset + 1 ≤ _ at hle
  obtain ⟨b, known', rfl⟩ := List.exists_cons_of_length_pos (by omega : 0 < known.length)
  refine ⟨known', ?_, ?_, fun other => rfl⟩
  · change c.rest.drop 1 = _
    rw [hrest]
    rfl
  · change c.offset + 1 + _ = _
    rw [List.length_cons]
    omega

theorem takeWhile (p : UInt8 → Bool) : IsSettled (Read.takeWhile p) := by
  intro c known more _ hrest hmore hle
  obtain ⟨known', hrest', hlength, hother⟩ := exists_known_of_takeWhile hrest hmore hle
  refine ⟨known', hrest', hlength, fun other => ?_⟩
  obtain ⟨htake, hlook⟩ := hother other
  change Except.ok ((known ++ other).takeWhile p,
    ((c.before (known ++ other)).pass ((known ++ other).takeWhile p).length).look) = _
  rw [htake, hlook]

theorem exponentDigits (outOfRange : Bool) (e : Nat) :
    IsSettled (Read.exponentDigits outOfRange e) := by
  intro c known more _ hrest hmore
  rcases exponentDigits_cases outOfRange e (c.rest.takeWhile isDigit) with
    ⟨value, hvalue⟩ | ⟨used, b, left, hds, herror⟩
  · rw [hvalue c rfl]
    intro hle
    obtain ⟨known', hrest', hlength, hother⟩ := exists_known_of_takeWhile hrest hmore hle
    refine ⟨known', hrest', hlength, fun other => ?_⟩
    obtain ⟨htake, hlook⟩ := hother other
    rw [hvalue _ htake, hlook]
  · rw [herror c left hds]
    intro _ hle other
    have hprefix : used ++ [b] <+: known := by
      have hds' : used ++ [b] <+: c.rest.takeWhile isDigit := ⟨left, by rw [hds]; simp⟩
      refine List.prefix_of_prefix_length_le (hds'.trans (List.takeWhile_prefix isDigit))
        (hrest ▸ List.prefix_append known more) ?_
      rw [List.length_append, List.length_singleton]
      exact Nat.le_of_add_le_add_left hle
    obtain ⟨known', rfl⟩ := hprefix
    have hdigits : ∀ x ∈ used ++ [b], isDigit x = true := by
      intro x hx
      have hmem : x ∈ c.rest.takeWhile isDigit := by
        rw [hds, List.append_cons]
        exact List.mem_append_left left hx
      exact List.mem_takeWhile_imp hmem
    have htake : (c.before (used ++ [b] ++ known' ++ other)).rest.takeWhile isDigit =
        used ++ b :: (known' ++ other).takeWhile isDigit := by
      change (used ++ [b] ++ known' ++ other).takeWhile isDigit = _
      rw [List.append_assoc, List.takeWhile_append_of_pos hdigits]
      simp
    exact herror _ _ htake

end IsSettled

theorem Built.isSettled {P : Cause → Prop} {α : Type} {r : Read α} (h : Built P r) :
    IsSettled r := by
  induction h with
  | pure a => exact fun c known more _ hrest _ _ => ⟨known, hrest, rfl, fun other => rfl⟩
  | fail cause => exact fun c known more _ _ _ _ _ other => rfl
  | failAhead cause => exact fun c known more _ _ _ _ _ other => rfl
  | failTelling cause => exact fun c known more _ _ _ _ _ other => rfl
  | failBehind n => exact fun c known more _ _ _ hcause => absurd rfl hcause
  | peek => exact .peek
  | next => exact .next
  | discard => exact .discard
  | takeWhile p => exact .takeWhile p
  | exponentDigits outOfRange e => exact .exponentDigits outOfRange e
  | bind hp hq ihp ihq => exact .bind ihp ihq hp hq
  | iterate hstep t ih => exact .iterate ih hstep t

/-- A fault of a document is that of every other one that has the same bytes up to its place. -/
theorem Value.IsBuilt.document_settled {W : String → Prop} {α : Type} {v : Value α}
    (h : v.IsBuilt W) {known more : List UInt8} {f : Fault}
    (hdocument : v.document (known ++ more) = .error f) (hmore : more ≠ [])
    (hcause : f.cause ≠ .invalidUtf8) (hle : f.inStream ≤ known.length) (other : List UInt8) :
    v.document (known ++ other) = .error f := by
  rw [document_eq_error_iff] at hdocument ⊢
  apply h.whole.isSettled.error (Cursor.isSound_start (known ++ more)) rfl hmore hdocument hcause
  rwa [Cursor.start, Nat.zero_add]

end DeletionGuard.Json
