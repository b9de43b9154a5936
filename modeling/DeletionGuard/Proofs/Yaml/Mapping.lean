import DeletionGuard.Proofs.Yaml.Stream
import DeletionGuard.Yaml.Document

/-!
# The document of a text of entries

Its entries are the keys and values of one mapping, all of them scalars without properties; without
entries there is no document. Nothing is wrong with it, and nothing comes behind it.
-/

namespace DeletionGuard.Yaml

variable {ρ : Type} {handles : Handles} {g : Goal} {gs : List Goal} {t : Token} {ts : List Token}
  {e : Entry} {es : List Entry} {begin : Mark} {cs : List Char}

/-- The events of entries and of the end of the mapping around them. -/
def entryEvents (ρ : Type) : List Entry → List (Event ρ)
  | [] => [.mappingEnd]
  | e :: es =>
    .scalar {} (String.ofList e.key) true :: .scalar {} (String.ofList e.value) e.plain ::
      entryEvents ρ es

/-- The events of a document of entries. -/
def documentEvents (ρ : Type) : List Entry → List (Event ρ)
  | [] => []
  | e :: es => .mappingStart {} :: entryEvents ρ (e :: es)

/-! ### Goals -/

namespace Run

theorem reach_of_step {v : Advance} (h : g.step handles ts = .ok v) :
    reach handles (g :: gs) ts =
      ⟨v.event.toList ++ (reach handles (v.goals ++ gs) v.rest).events,
        (reach handles (v.goals ++ gs) v.rest).ending⟩ := by
  rw [reach]
  split <;> simp_all

theorem reach_scalar {text : String} {plain block bareSequence : Bool}
    (h : t.kind = .scalar text plain) :
    reach handles (.node block bareSequence :: gs) (t :: ts) =
      ⟨⟨.scalar {} text plain, t.start⟩ :: (reach handles gs ts).events,
        (reach handles gs ts).ending⟩ := by
  obtain ⟨kind, start, stop⟩ := t
  subst h
  have hstep : (Goal.node block bareSequence).step handles
      (⟨.scalar text plain, start, stop⟩ :: ts) =
      .ok ⟨some ⟨.scalar {} text plain, start⟩, [], ts⟩ := by
    cases bareSequence <;> rfl
  exact reach_of_step hstep

theorem nodeUnless_scalar {u : Token} {text : String} {plain : Bool} {place : Token → Mark}
    (h : u.kind = .scalar text plain) :
    Attempt.nodeUnless [.key, .value, .blockEnd] place g gs (u :: ts) =
      .ok ⟨none, g :: gs, u :: ts⟩ := by
  rw [Attempt.nodeUnless, if_neg (by simp [h])]
  rfl

theorem reach_entry {key value : Token} {k v : Token} (hkey : key.kind = .key)
    (hk : k.kind = .scalar (String.ofList e.key) true) (hvalue : value.kind = .value)
    (hv : v.kind = .scalar (String.ofList e.value) e.plain) :
    reach handles (.blockKeys begin :: gs) (key :: k :: value :: v :: ts) =
      ⟨⟨.scalar {} (String.ofList e.key) true, k.start⟩ ::
        ⟨.scalar {} (String.ofList e.value) e.plain, v.start⟩ ::
          (reach handles (.blockKeys begin :: gs) ts).events,
        (reach handles (.blockKeys begin :: gs) ts).ending⟩ := by
  obtain ⟨_, keyStart, keyStop⟩ := key
  obtain ⟨_, valueStart, valueStop⟩ := value
  subst hkey hvalue
  have hfirst : (Goal.blockKeys begin).step handles
      (⟨.key, keyStart, keyStop⟩ :: k :: ⟨.value, valueStart, valueStop⟩ :: v :: ts) =
      .ok ⟨none, [.node true true, .blockValue, .blockKeys begin],
        k :: ⟨.value, valueStart, valueStop⟩ :: v :: ts⟩ := by
    rw [Goal.step]
    exact nodeUnless_scalar hk
  have hsecond : Goal.blockValue.step handles (⟨.value, valueStart, valueStop⟩ :: v :: ts) =
      .ok ⟨none, [.node true true], v :: ts⟩ := by
    rw [Goal.step]
    exact nodeUnless_scalar hv
  rw [reach_of_step hfirst]
  simp only [Option.toList_none, List.nil_append, List.cons_append]
  rw [reach_scalar hk, reach_of_step hsecond]
  simp only [Option.toList_none, List.nil_append, List.cons_append]
  rw [reach_scalar hv]

/-- Each entry of a block gives its key and its value. -/
theorem reach_blockKeys (handles : Handles) (begin : Mark)
    (h : ts.map Token.kind = streamKinds true es) :
    (reach handles [.blockKeys begin, .documentEnd] ts).events.map PlacedEvent.event =
        entryEvents String es ∧
      ∃ t, t.kind = .streamEnd ∧
        (reach handles [.blockKeys begin, .documentEnd] ts).ending = .ok [t] := by
  induction es generalizing ts with
  | nil =>
    obtain ⟨t, ts, rfl, ht, h⟩ := List.map_eq_cons_iff.1 h
    obtain ⟨u, ts, rfl, hu, h⟩ := List.map_eq_cons_iff.1 h
    obtain rfl := List.map_eq_nil_iff.1 h
    obtain ⟨_, start, stop⟩ := t
    subst ht
    have hclose : (Goal.blockKeys begin).step handles [⟨.blockEnd, start, stop⟩, u] =
        .ok ⟨some ⟨.mappingEnd, start⟩, [], [u]⟩ := rfl
    have hend : Goal.documentEnd.step handles [u] = .ok ⟨none, [], [u]⟩ := by
      rw [Goal.step, Attempt.replace, if_neg (by rw [hu]; decide)]
    rw [reach_of_step hclose, List.nil_append, reach_of_step hend, List.nil_append, reach]
    exact ⟨rfl, u, hu, rfl⟩
  | cons e es ih =>
    obtain ⟨key, ts, rfl, hkey, h⟩ := List.map_eq_cons_iff.1 h
    obtain ⟨k, ts, rfl, hk, h⟩ := List.map_eq_cons_iff.1 h
    obtain ⟨value, ts, rfl, hvalue, h⟩ := List.map_eq_cons_iff.1 h
    obtain ⟨v, ts, rfl, hv, h⟩ := List.map_eq_cons_iff.1 h
    obtain ⟨hevents, hending⟩ := ih h
    rw [reach_entry hkey hk hvalue hv, List.map_cons, List.map_cons, hevents]
    exact ⟨rfl, hending⟩

/-- The first entry of a stream opens the mapping. -/
theorem ofTokens_entries (h : ts.map Token.kind = streamKinds false (e :: es)) :
    (ofTokens ts).events.map PlacedEvent.event = .mappingStart {} :: entryEvents String (e :: es) ∧
      ∃ t, t.kind = .streamEnd ∧ (ofTokens ts).ending = .ok [t] := by
  obtain ⟨t, ts, rfl, ht, htail⟩ := List.map_eq_cons_iff.1 h
  obtain ⟨_, start, stop⟩ := t
  subst ht
  have hkinds : ts.map Token.kind = streamKinds true (e :: es) := htail
  have hstep : (Goal.node true false).step defaultHandles
      (⟨.blockMappingStart, start, stop⟩ :: ts) =
      .ok ⟨some ⟨.mappingStart {}, start⟩, [.blockKeys start], ts⟩ := rfl
  have hrun : ofTokens (⟨.blockMappingStart, start, stop⟩ :: ts) =
      reach defaultHandles [.node true false, .documentEnd]
        (⟨.blockMappingStart, start, stop⟩ :: ts) := rfl
  obtain ⟨hevents, hending⟩ := reach_blockKeys defaultHandles start hkinds
  rw [hrun, reach_of_step hstep]
  refine ⟨?_, hending⟩
  simpa using hevents

end Run

/-! ### Documents -/

/-- Scalars without properties and the end of a collection are left as they are. -/
theorem number_entries (anchors : Anchors) (position : Nat) {events : List (PlacedEvent String)}
    (h : events.map PlacedEvent.event = entryEvents String es) :
    (number anchors position events).events.map PlacedEvent.event = entryEvents Nat es ∧
      (number anchors position events).unknown = none := by
  induction es generalizing position events with
  | nil =>
    obtain ⟨⟨_, mark⟩, events, rfl, rfl, hnil⟩ := List.map_eq_cons_iff.1 h
    obtain rfl := List.map_eq_nil_iff.1 hnil
    exact ⟨rfl, rfl⟩
  | cons e es ih =>
    obtain ⟨⟨_, keyMark⟩, events, rfl, rfl, hbehind⟩ := List.map_eq_cons_iff.1 h
    obtain ⟨⟨_, valueMark⟩, events, rfl, rfl, htail⟩ := List.map_eq_cons_iff.1 hbehind
    obtain ⟨hevents, hunknown⟩ := ih (position + 1 + 1) htail
    refine ⟨?_, hunknown⟩
    exact congrArg (Event.scalar {} _ true :: Event.scalar {} _ e.plain :: ·) hevents

theorem ofRun_entries {run : Run} (ht : t.kind = .streamEnd) (hending : run.ending = .ok [t])
    (hevents : run.events.map PlacedEvent.event = .mappingStart {} :: entryEvents String es) :
    (Document.ofRun run none).events.map PlacedEvent.event =
        .mappingStart {} :: entryEvents Nat es ∧
      (Document.ofRun run none).fault = none ∧ (Document.ofRun run none).followed = false := by
  obtain ⟨events, _⟩ := run
  subst hending
  obtain ⟨⟨_, mark⟩, events, rfl, rfl, htail⟩ := List.map_eq_cons_iff.1 hevents
  obtain ⟨hnumbered, hunknown⟩ := number_entries ⟨[], []⟩ 1 htail
  refine ⟨congrArg (Event.mappingStart {} :: ·) hnumbered, ?_, ?_⟩
  · exact congrArg (fun unknown => (unknown.map DocumentFault.unknownAnchor).or none) hunknown
  · simp [Document.ofRun, ht]

/-- A text of entries is a document of them, and nothing else. -/
theorem SpellsLines.document (h : SpellsLines es cs) :
    (Document.ofText (String.ofList cs)).events.map PlacedEvent.event = documentEvents Nat es ∧
      (Document.ofText (String.ofList cs)).fault = none ∧
      (Document.ofText (String.ofList cs)).followed = false := by
  obtain ⟨hkinds, hfault⟩ := h.tokens
  rw [Document.ofText]
  generalize Yaml.tokens (String.ofList cs) = stream at hkinds hfault ⊢
  obtain ⟨ts, _⟩ := stream
  subst hfault
  cases es with
  | nil =>
    obtain ⟨⟨_, start, stop⟩, ts, rfl, rfl, -⟩ := List.map_eq_cons_iff.1 hkinds
    exact ⟨rfl, rfl, rfl⟩
  | cons e es =>
    obtain ⟨hevents, t, ht, hending⟩ := Run.ofTokens_entries hkinds
    obtain ⟨⟨_, start, stop⟩, ts, rfl, rfl, -⟩ := List.map_eq_cons_iff.1 hkinds
    exact ofRun_entries ht hending hevents

end DeletionGuard.Yaml
