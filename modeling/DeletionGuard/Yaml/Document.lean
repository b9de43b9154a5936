import DeletionGuard.Yaml.Event.Goal

/-!
# Documents

The events of the first document of a stream, up to the first fault, and whether anything comes
after it. An alias refers to an anchor by number. The number of an anchor is the number of names
that are known when it is set, so a name that is set again can share its number with a later one;
a number stands for the last node that it was given to.
-/

namespace DeletionGuard.Yaml

/-- What ends a document before its end. -/
inductive DocumentFault where
  | stream (fault : Fault)
  | unknownAnchor (mark : Mark)
  deriving DecidableEq, Repr

def DocumentFault.message : DocumentFault → String
  | stream fault => fault.message
  | unknownAnchor mark => "unknown anchor" ++ mark.suffix

/-- Events, and what comes after them: the tokens behind the document, or what stopped it. -/
structure Run where
  events : List (PlacedEvent String)
  ending : Except (Option Fault) (List Token)

namespace Run

/-- Takes steps until all goals are reached. -/
def reach (handles : Handles) (goals : List Goal) (ts : List Token) : Run :=
  match goals with
  | [] => ⟨[], .ok ts⟩
  | g :: gs =>
    match _h : g.step handles ts with
    | .error stop => ⟨[], .error stop⟩
    | .ok v =>
      let after := reach handles (v.goals ++ gs) v.rest
      ⟨v.event.toList ++ after.events, after.ending⟩
termination_by Goal.bound goals ts
decreasing_by
  have := Goal.below_step handles g ts v _h
  simp only [Goal.bound, Goal.totalWeight_append, Goal.totalWeight] at this ⊢
  omega

end Run

/-- The handles that need no directive. -/
def defaultHandles : Handles :=
  [(Utf8.ofString "!", Utf8.ofString "!"), (Utf8.ofString "!!", Utf8.ofString "tag:yaml.org,2002:")]

def isSupported (major minor : Nat) : Bool :=
  major == 1 && (minor == 1 || minor == 2)

/-- Reads directives; `versionGiven` tells whether one with a version has come already. -/
def directives (versionGiven : Bool) (handles : Handles) :
    List Token → Except (Option Fault) (Handles × List Token)
  | [] => .error none
  | t :: ts =>
    let fault (p : Problem) : Except (Option Fault) (Handles × List Token) :=
      .error (some ⟨p, .mark t.start, none⟩)
    match t.kind with
    | .versionDirective major minor =>
      if versionGiven then fault .duplicateVersion
      else if !isSupported major minor then fault .incompatibleVersion
      else directives true handles ts
    | .tagDirective handle start =>
      if (handles.lookup handle).isSome then fault .duplicateTagDirective
      else directives versionGiven (handles ++ [(handle, start)]) ts
    | _ => .ok (handles ++ defaultHandles, t :: ts)

namespace Run

/-- The document that starts with these tokens, which are not the end of the stream. -/
def ofTokens : List Token → Run
  | [] => ⟨[], .error none⟩
  | t :: ts =>
    if t.kind matches .versionDirective _ _ | .tagDirective _ _ | .documentStart then
      match directives false [] (t :: ts) with
      | .error stop => ⟨[], .error stop⟩
      | .ok (_, []) => ⟨[], .error none⟩
      | .ok (handles, u :: us) =>
        if u.kind = .documentStart then reach handles [.content, .documentEnd] us
        else ⟨[], .error (some ⟨.missingDocumentStart, .mark u.start, none⟩)⟩
    else
      reach defaultHandles [.node true false, .documentEnd] (t :: ts)

end Run

/-! ## Anchors -/

/-- The numbers of the names that are known, and the nodes that have them, the last one first. -/
structure Anchors where
  numbers : List (String × Nat)
  nodes : List (Nat × Nat)

namespace Anchors

/-- Gives a name to the node at `position`. -/
def set (a : Anchors) (name : String) (position : Nat) : Anchors :=
  let number := a.numbers.length
  ⟨(name, number) :: a.numbers.filter (·.1 ≠ name), (number, position) :: a.nodes⟩

def setAll (a : Anchors) (properties : Properties) (position : Nat) : Anchors :=
  match properties.anchor with
  | none => a
  | some name => a.set name position

end Anchors

/-- Events whose aliases refer to numbers, and where the first alias of an unknown name stands. -/
structure Numbered where
  events : List (PlacedEvent Nat)
  anchors : Anchors
  unknown : Option Mark

/-- Puts numbers in the place of names; `position` is that of the first event. -/
def number (anchors : Anchors) (position : Nat) : List (PlacedEvent String) → Numbered
  | [] => ⟨[], anchors, none⟩
  | ⟨event, mark⟩ :: events =>
    let goOn (anchors : Anchors) (event : Event Nat) : Numbered :=
      let after := number anchors (position + 1) events
      { after with events := ⟨event, mark⟩ :: after.events }
    match event with
    | .alias name =>
      match anchors.numbers.lookup name with
      | none => ⟨[], anchors, some mark⟩
      | some n => goOn anchors (.alias n)
    | .scalar properties text plain =>
      goOn (anchors.setAll properties position) (.scalar properties text plain)
    | .sequenceStart properties =>
      goOn (anchors.setAll properties position) (.sequenceStart properties)
    | .mappingStart properties =>
      goOn (anchors.setAll properties position) (.mappingStart properties)
    | .sequenceEnd => goOn anchors .sequenceEnd
    | .mappingEnd => goOn anchors .mappingEnd

structure Document where
  events : List (PlacedEvent Nat)
  /-- The positions of the nodes that numbers stand for. -/
  nodes : List (Nat × Nat)
  fault : Option DocumentFault
  /-- Whether anything but the end of the stream comes after the document. -/
  followed : Bool

namespace Document

def ofRun (run : Run) (streamFault : Option Fault) : Document :=
  let numbered := number ⟨[], []⟩ 0 run.events
  let stop : Option DocumentFault :=
    match run.ending with
    | .error stop => (stop.or streamFault).map .stream
    | .ok _ => none
  { events := numbered.events
    nodes := numbered.anchors.nodes
    fault := (numbered.unknown.map .unknownAnchor).or stop
    followed := match run.ending with
      | .error _ => false
      | .ok rest => (rest.dropWhile (·.kind = .documentEnd)).head?.map (·.kind) ≠ some .streamEnd }

/-- The first document of a text; that of an empty stream has no events. -/
def ofText (text : String) : Document :=
  let ts := tokens text
  match ts.tokens with
  | ⟨.streamEnd, _, _⟩ :: _ => ⟨[], [], none, false⟩
  | tokens => ofRun (.ofTokens tokens) ts.fault

/-- The event that an alias with this number refers to. -/
def target? (d : Document) (n : Nat) : Option (PlacedEvent Nat) := do
  d.events[← d.nodes.lookup n]?

end Document

end DeletionGuard.Yaml
