import DeletionGuard.Yaml.Event

/-!
# Goals

A goal is what must come next for the collections that are open to be complete. A step takes a goal
and the tokens from here on; it gives at most one event and the goals that take the place of the
goal. `Advance.Lighter` says in which sense every step comes closer to the end.
-/

namespace DeletionGuard.Yaml

/-- What must come next. Collections know where their first token stood. -/
inductive Goal where
  /-- A node; block collections, or a sequence without a beginning of its own, may be allowed. -/
  | node (block bareSequence : Bool)
  /-- The node of a document whose beginning is marked; it may be missing. -/
  | content
  | documentEnd
  | blockEntries (begin : Mark)
  | bareEntries
  | blockKeys (begin : Mark)
  | blockValue
  | flowEntries (begin : Mark)
  /-- What comes after an entry of a flow sequence. -/
  | moreFlowEntries (begin : Mark)
  /-- A mapping of one key inside a flow sequence. -/
  | pairKey
  | pairValue
  | pairEnd
  | flowKeys (begin : Mark)
  | moreFlowKeys (begin : Mark)
  | flowValue
  /-- The value of a key that has none. -/
  | noValue
  deriving DecidableEq, Repr

/-- What the handles of tags stand for; the first entry counts. -/
abbrev Handles := List (List UInt8 × List UInt8)

/-- What a step comes to. -/
structure Advance where
  event : Option (PlacedEvent String)
  goals : List Goal
  rest : List Token

/-- A step fails with a fault, or, without one, because there are no more tokens. -/
abbrev Attempt := Except (Option Fault) Advance

namespace Attempt

def emit (event : Event String) (mark : Mark) (goals : List Goal) (rest : List Token) : Attempt :=
  .ok ⟨some ⟨event, mark⟩, goals, rest⟩

def replace (goals : List Goal) (rest : List Token) : Attempt :=
  .ok ⟨none, goals, rest⟩

/-- A node that is not there counts as an empty scalar. -/
def emitEmpty (mark : Mark) (goals : List Goal) (rest : List Token) : Attempt :=
  emit (.scalar {} "" true) mark goals rest

def faultIn (problem : Problem) (place : Mark) (activity : Activity) (begin : Mark) : Attempt :=
  .error (some ⟨problem, .mark place, some (activity, begin)⟩)

/-- A node, or an empty one at the place that `place` gives if the token that comes next shows that
there is none. -/
def nodeUnless (stops : List TokenKind) (place : Token → Mark) (node : Goal) (goals : List Goal)
    (rest : List Token) : Attempt :=
  match rest with
  | [] => .error none
  | t :: _ =>
    if t.kind ∈ stops then emitEmpty (place t) goals rest else replace (node :: goals) rest

end Attempt

/-! ## Nodes -/

/-- The properties of a node as they are written. -/
structure WrittenProperties where
  anchor : Option String
  /-- The handle and the suffix of the tag, and where it stands. -/
  tag : Option (List UInt8 × List UInt8 × Mark)

namespace WrittenProperties

def takeAnchor : List Token → Option String × List Token
  | ⟨.anchor name, _, _⟩ :: ts => (some name, ts)
  | ts => (none, ts)

def takeTag : List Token → Option (List UInt8 × List UInt8 × Mark) × List Token
  | ⟨.tag handle suffix, mark, _⟩ :: ts => (some (handle, suffix, mark), ts)
  | ts => (none, ts)

/-- The properties at the start of tokens: an anchor and a tag in either order. -/
def take (ts : List Token) : WrittenProperties × List Token :=
  match takeAnchor ts with
  | (some name, ts) =>
    let (tag, ts) := takeTag ts
    (⟨some name, tag⟩, ts)
  | (none, ts) =>
    let (tag, ts) := takeTag ts
    let (anchor, ts) := takeAnchor ts
    (⟨anchor, tag⟩, ts)

theorem length_takeAnchor_le (ts : List Token) : (takeAnchor ts).2.length ≤ ts.length := by
  unfold takeAnchor
  split <;> simp

theorem length_takeTag_le (ts : List Token) : (takeTag ts).2.length ≤ ts.length := by
  unfold takeTag
  split <;> simp

theorem length_take_le (ts : List Token) : (take ts).2.length ≤ ts.length := by
  have h₁ := length_takeAnchor_le ts
  unfold take
  split
  · rename_i name ts' h
    rw [h] at h₁
    exact Nat.le_trans (length_takeTag_le ts') h₁
  · rename_i ts' h
    rw [h] at h₁
    exact Nat.le_trans (length_takeAnchor_le _) (Nat.le_trans (length_takeTag_le ts') h₁)

/-- The properties with the tag in full; none if its handle is unknown. -/
def resolve? (p : WrittenProperties) (handles : Handles) : Except Mark Properties :=
  match p.tag with
  | none => .ok ⟨p.anchor, none⟩
  | some ([], suffix, _) => .ok ⟨p.anchor, some suffix⟩
  | some (handle, suffix, mark) =>
    match handles.lookup handle with
    | some start => .ok ⟨p.anchor, some (start ++ suffix)⟩
    | none => .error mark

end WrittenProperties

namespace Goal

/-- A node with these properties, which begins at `begin`. -/
def nodeBody (properties : Properties) (begin : Mark) (block bareSequence : Bool) (t : Token)
    (rest : List Token) : Attempt :=
  if bareSequence && t.kind = .blockEntry then
    .emit (.sequenceStart properties) begin [.bareEntries] (t :: rest)
  else
    match t.kind with
    | .scalar text plain => .emit (.scalar properties text plain) begin [] rest
    | .flowSequenceStart =>
      .emit (.sequenceStart properties) begin [.flowEntries t.start] rest
    | .flowMappingStart => .emit (.mappingStart properties) begin [.flowKeys t.start] rest
    | kind =>
      if block && kind = .blockSequenceStart then
        .emit (.sequenceStart properties) begin [.blockEntries t.start] rest
      else if block && kind = .blockMappingStart then
        .emit (.mappingStart properties) begin [.blockKeys t.start] rest
      else if properties.anchor.isSome || properties.tag.isSome then
        .emit (.scalar properties "" true) begin [] (t :: rest)
      else
        .faultIn .missingNode t.start (if block then .blockNode else .flowNode) begin

def nodeStep (handles : Handles) (block bareSequence : Bool) (t : Token) (ts : List Token) :
    Attempt :=
  match t.kind with
  | .alias name => .emit (.alias name) t.start [] ts
  | _ =>
    match WrittenProperties.take (t :: ts) with
    | (_, []) => .error none
    | (written, u :: us) =>
      match written.resolve? handles with
      | .error mark => .faultIn .undefinedTagHandle mark .node t.start
      | .ok properties => nodeBody properties t.start block bareSequence u us

/-! ## Flow collections -/

/-- An entry of a flow sequence, or its end. -/
def flowEntry (begin : Mark) : List Token → Attempt
  | [] => .error none
  | t :: ts =>
    match t.kind with
    | .flowSequenceEnd => .emit .sequenceEnd t.start [] ts
    | .key =>
      .emit (.mappingStart {}) t.start
        [.pairKey, .pairValue, .pairEnd, .moreFlowEntries begin] ts
    | _ => .replace [.node false false, .moreFlowEntries begin] (t :: ts)

/-- A key of a flow mapping, or its end. -/
def flowKey (begin : Mark) : List Token → Attempt
  | [] => .error none
  | t :: ts =>
    match t.kind with
    | .flowMappingEnd => .emit .mappingEnd t.start [] ts
    | .key =>
      .nodeUnless [.value, .flowEntry, .flowMappingEnd] (·.start) (.node false false)
        [.flowValue, .moreFlowKeys begin] ts
    | _ => .replace [.node false false, .noValue, .moreFlowKeys begin] (t :: ts)

/-- Whether a token can only come where a document ends or another one begins. -/
def endsDocument : TokenKind → Bool
  | .versionDirective _ _ | .tagDirective _ _ | .documentStart | .documentEnd | .streamEnd => true
  | _ => false

def step (handles : Handles) (g : Goal) : List Token → Attempt
  | [] => .error none
  | t :: ts =>
    match g with
    | .node block bareSequence => nodeStep handles block bareSequence t ts
    | .content =>
      if endsDocument t.kind then .emitEmpty t.start [] (t :: ts)
      else .replace [.node true false] (t :: ts)
    | .documentEnd => .replace [] (if t.kind = .documentEnd then ts else t :: ts)
    | .blockEntries begin =>
      match t.kind with
      | .blockEntry =>
        .nodeUnless [.blockEntry, .blockEnd] (fun _ => t.stop) (.node true false)
          [.blockEntries begin] ts
      | .blockEnd => .emit .sequenceEnd t.start [] ts
      | _ => .faultIn .missingDash t.start .blockSequence begin
    | .bareEntries =>
      match t.kind with
      | .blockEntry =>
        .nodeUnless [.blockEntry, .key, .value, .blockEnd] (fun _ => t.stop) (.node true false)
          [.bareEntries] ts
      | _ => .emit .sequenceEnd t.start [] (t :: ts)
    | .blockKeys begin =>
      match t.kind with
      | .key =>
        .nodeUnless [.key, .value, .blockEnd] (fun _ => t.stop) (.node true true)
          [.blockValue, .blockKeys begin] ts
      | .blockEnd => .emit .mappingEnd t.start [] ts
      | _ => .faultIn .missingKey t.start .blockMapping begin
    | .blockValue =>
      match t.kind with
      | .value => .nodeUnless [.key, .value, .blockEnd] (fun _ => t.stop) (.node true true) [] ts
      | _ => .emitEmpty t.start [] (t :: ts)
    | .flowEntries begin => flowEntry begin (t :: ts)
    | .moreFlowEntries begin =>
      match t.kind with
      | .flowSequenceEnd => .emit .sequenceEnd t.start [] ts
      | .flowEntry => flowEntry begin ts
      | _ => .faultIn .missingSequenceComma t.start .flowSequence begin
    | .pairKey =>
      if t.kind ∈ [TokenKind.value, .flowEntry, .flowSequenceEnd] then .emitEmpty t.stop [] ts
      else .replace [.node false false] (t :: ts)
    | .pairValue =>
      match t.kind with
      | .value =>
        .nodeUnless [.flowEntry, .flowSequenceEnd] (·.start) (.node false false) [] ts
      | _ => .emitEmpty t.start [] (t :: ts)
    | .pairEnd => .emit .mappingEnd t.start [] (t :: ts)
    | .flowKeys begin => flowKey begin (t :: ts)
    | .moreFlowKeys begin =>
      match t.kind with
      | .flowMappingEnd => .emit .mappingEnd t.start [] ts
      | .flowEntry => flowKey begin ts
      | _ => .faultIn .missingMappingComma t.start .flowMapping begin
    | .flowValue =>
      match t.kind with
      | .value => .nodeUnless [.flowEntry, .flowMappingEnd] (·.start) (.node false false) [] ts
      | _ => .emitEmpty t.start [] (t :: ts)
    | .noValue => .emitEmpty t.start [] (t :: ts)

/-! ## Steps come to an end -/

/-- How many steps a goal may take without a token. -/
def weight : Goal → Nat
  | node _ _ => 2
  | content => 3
  | pairKey => 3
  | flowEntries _ => 4
  | flowKeys _ => 5
  | _ => 1

/-- How many steps goals may take without a token. -/
def totalWeight : List Goal → Nat
  | [] => 0
  | g :: gs => g.weight + totalWeight gs

theorem totalWeight_append (gs hs : List Goal) :
    totalWeight (gs ++ hs) = totalWeight gs + totalWeight hs := by
  induction gs with
  | nil => simp only [List.nil_append, totalWeight, Nat.zero_add]
  | cons g gs ih => simp only [List.cons_append, totalWeight, ih, Nat.add_assoc]

/-- A bound on the steps that goals take. -/
def bound (goals : List Goal) (ts : List Token) : Nat :=
  totalWeight goals + 8 * ts.length

end Goal

/-- A step is lighter than what it started from: its goals take fewer steps than `n` allows. -/
def Attempt.Below (n : Nat) (a : Attempt) : Prop :=
  ∀ v, a = .ok v → Goal.bound v.goals v.rest < n

namespace Attempt.Below

theorem mono {a : Attempt} {m n : Nat} (h : a.Below m) (le : m ≤ n) : a.Below n :=
  fun v e => Nat.lt_of_lt_of_le (h v e) le

variable {n : Nat} {goals : List Goal} {rest : List Token}

theorem error (f : Option Fault) : Below n (.error f) := nofun

theorem faultIn (problem : Problem) (place : Mark) (activity : Activity) (begin : Mark) :
    Below n (faultIn problem place activity begin) := nofun

theorem emit {event : Event String} {mark : Mark} (h : Goal.bound goals rest < n) :
    Below n (emit event mark goals rest) := by
  intro v e
  cases e
  exact h

theorem replace (h : Goal.bound goals rest < n) : Below n (replace goals rest) := by
  intro v e
  cases e
  exact h

theorem emitEmpty {mark : Mark} (h : Goal.bound goals rest < n) :
    Below n (emitEmpty mark goals rest) :=
  emit h

theorem nodeUnless {stops : List TokenKind} {place : Token → Mark} {node : Goal}
    (h : Goal.bound (node :: goals) rest < n) : Below n (nodeUnless stops place node goals rest) := by
  unfold Attempt.nodeUnless
  split
  · exact error _
  split
  · exact emitEmpty (by simp only [Goal.bound, Goal.totalWeight] at h ⊢; omega)
  · exact replace h

end Attempt.Below

namespace Goal

theorem below_nodeBody (properties : Properties) (begin : Mark) (block bareSequence : Bool)
    (t : Token) (rest : List Token) :
    (nodeBody properties begin block bareSequence t rest).Below (2 + 8 * (t :: rest).length) := by
  unfold nodeBody
  split
  · exact .emit (by simp [bound, totalWeight, weight])
  split
  · exact .emit (by simp [bound, totalWeight]; omega)
  · exact .emit (by simp [bound, totalWeight, weight]; omega)
  · exact .emit (by simp [bound, totalWeight, weight]; omega)
  split
  · exact .emit (by simp [bound, totalWeight, weight]; omega)
  split
  · exact .emit (by simp [bound, totalWeight, weight]; omega)
  split
  · exact .emit (by simp [bound, totalWeight])
  · exact .faultIn _ _ _ _

theorem below_nodeStep (handles : Handles) (block bareSequence : Bool) (t : Token)
    (ts : List Token) :
    (nodeStep handles block bareSequence t ts).Below (2 + 8 * (t :: ts).length) := by
  unfold nodeStep
  split
  · exact .emit (by simp [bound, totalWeight]; omega)
  have hle := WrittenProperties.length_take_le (t :: ts)
  split
  · exact .error _
  rename_i u us h
  rw [h] at hle
  replace hle : (u :: us).length ≤ (t :: ts).length := hle
  split
  · exact .faultIn _ _ _ _
  · exact (below_nodeBody _ _ _ _ _ _).mono (by omega)

theorem below_flowEntry (begin : Mark) (ts : List Token) :
    (flowEntry begin ts).Below (4 + 8 * ts.length) := by
  unfold flowEntry
  repeat' split
  · exact .error _
  · exact .emit (by simp [bound, totalWeight]; omega)
  · exact .emit (by simp [bound, totalWeight, weight]; omega)
  · exact .replace (by simp [bound, totalWeight, weight])

theorem below_flowKey (begin : Mark) (ts : List Token) :
    (flowKey begin ts).Below (5 + 8 * ts.length) := by
  unfold flowKey
  repeat' split
  · exact .error _
  · exact .emit (by simp [bound, totalWeight]; omega)
  · exact .nodeUnless (by simp [bound, totalWeight, weight]; omega)
  · exact .replace (by simp [bound, totalWeight, weight])

theorem below_step (handles : Handles) (g : Goal) (ts : List Token) :
    (g.step handles ts).Below (g.weight + 8 * ts.length) := by
  cases ts with
  | nil => cases g <;> exact .error _
  | cons t ts =>
    cases g with
    | node block bareSequence => exact below_nodeStep handles block bareSequence t ts
    | content =>
      simp only [step]
      split
      · exact .emitEmpty (by simp [bound, totalWeight, weight])
      · exact .replace (by simp [bound, totalWeight, weight])
    | documentEnd =>
      refine .replace ?_
      split <;> simp [bound, totalWeight, weight]
      omega
    | blockEntries begin =>
      simp only [step]
      split
      · exact .nodeUnless (by simp [bound, totalWeight, weight]; omega)
      · exact .emit (by simp [bound, totalWeight]; omega)
      · exact .faultIn _ _ _ _
    | bareEntries =>
      simp only [step]
      split
      · exact .nodeUnless (by simp [bound, totalWeight, weight]; omega)
      · exact .emit (by simp [bound, totalWeight, weight])
    | blockKeys begin =>
      simp only [step]
      split
      · exact .nodeUnless (by simp [bound, totalWeight, weight]; omega)
      · exact .emit (by simp [bound, totalWeight]; omega)
      · exact .faultIn _ _ _ _
    | blockValue =>
      simp only [step]
      split
      · exact .nodeUnless (by simp [bound, totalWeight, weight]; omega)
      · exact .emitEmpty (by simp [bound, totalWeight, weight])
    | flowEntries begin => exact below_flowEntry begin (t :: ts)
    | moreFlowEntries begin =>
      simp only [step]
      split
      · exact .emit (by simp [bound, totalWeight]; omega)
      · exact (below_flowEntry begin ts).mono (by simp; omega)
      · exact .faultIn _ _ _ _
    | pairKey =>
      simp only [step]
      split
      · exact .emitEmpty (by simp [bound, totalWeight]; omega)
      · exact .replace (by simp [bound, totalWeight, weight])
    | pairValue =>
      simp only [step]
      split
      · exact .nodeUnless (by simp [bound, totalWeight, weight]; omega)
      · exact .emitEmpty (by simp [bound, totalWeight, weight])
    | pairEnd => exact .emit (by simp [bound, totalWeight, weight])
    | flowKeys begin => exact below_flowKey begin (t :: ts)
    | moreFlowKeys begin =>
      simp only [step]
      split
      · exact .emit (by simp [bound, totalWeight]; omega)
      · exact (below_flowKey begin ts).mono (by simp; omega)
      · exact .faultIn _ _ _ _
    | flowValue =>
      simp only [step]
      split
      · exact .nodeUnless (by simp [bound, totalWeight, weight]; omega)
      · exact .emitEmpty (by simp [bound, totalWeight, weight])
    | noValue => exact .emitEmpty (by simp [bound, totalWeight, weight])

end Goal

end DeletionGuard.Yaml
