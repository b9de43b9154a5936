import DeletionGuard.Files
import DeletionGuard.Settings.Basic
import DeletionGuard.Yaml.Document
import DeletionGuard.Yaml.Scalar

/-!
# Settings as documents

Settings come from the first document of a YAML stream: a mapping from the names of fields to their
values. Keys with other names are passed over; an empty document leaves everything as it is without
one. The events of a document are read in order, so of two things wrong with it the first counts.
-/

namespace DeletionGuard

/-- A value found where another one is due; of collections only the kind is told. -/
inductive FoundValue where
  | scalar (v : Yaml.ScalarValue)
  | sequence
  | mapping
  deriving DecidableEq, Repr

def FoundValue.phrase : FoundValue → String
  | scalar v => v.phrase
  | sequence => "sequence"
  | mapping => "map"

/-- What is wrong with a value. -/
inductive ValueProblem where
  | invalidType (found : FoundValue) (expected : String)
  | invalidValue (text : String) (expected : String)
  | unknownFormat (word : String)
  | duplicateField (name : String)
  deriving DecidableEq, Repr

def ValueProblem.message : ValueProblem → String
  | invalidType found expected => "invalid type: " ++ found.phrase ++ ", expected " ++ expected
  | invalidValue text expected =>
    "invalid value: string " ++ Text.quote text ++ ", expected " ++ expected
  | unknownFormat word => "unknown variant `" ++ word ++ "`, expected `text` or `json`"
  | duplicateField name => "duplicate field `" ++ name ++ "`"

/-- The value that something is wrong with: the whole document, or that of a key. -/
inductive ValuePath where
  | whole
  | key (name : String)
  /-- The value of a key that is written as an alias. -/
  | aliasKey
  deriving DecidableEq, Repr

def ValuePath.label : ValuePath → String
  | whole => ""
  | key name => name ++ ": "
  | aliasKey => "?: "

/-- Why a document gives no settings. -/
inductive SettingsFault where
  | document (fault : Yaml.DocumentFault)
  | endOfEvents
  | severalDocuments
  | value (problem : ValueProblem) (path : ValuePath) (mark : Yaml.Mark)
  deriving DecidableEq, Repr

def SettingsFault.message : SettingsFault → String
  | document fault => fault.message
  | endOfEvents => "EOF while parsing a value"
  | severalDocuments =>
    "deserializing from YAML containing more than one document is not supported"
  | value problem path mark => path.label ++ problem.message ++ mark.suffix

/-- The format that a word names exactly. -/
def Format.ofName? (word : String) : Option Format :=
  if word = Format.text.name then some text
  else if word = Format.json.name then some json
  else none

namespace Settings

open Yaml (Mark PlacedEvent Document)

inductive Field where
  | addressStart
  | format
  deriving DecidableEq, Repr

namespace Field

def name : Field → String
  | addressStart => "address_prefix"
  | format => "format"

def ofName? (word : String) : Option Field :=
  if word = addressStart.name then some addressStart
  else if word = format.name then some format
  else none

end Field

/-- What is wrong with an event that stands where something else is due. -/
def typeProblem (expected : String) : Yaml.Event Nat → ValueProblem
  | .scalar properties text plain =>
    match Yaml.scalarValue properties.tag text plain with
    | .ok v => .invalidType (.scalar v) expected
    | .error type => .invalidValue text type.phrase
  | .alias _ => .invalidType (.scalar .null) expected
  | .sequenceStart _ | .sequenceEnd => .invalidType .sequence expected
  | .mappingStart _ | .mappingEnd => .invalidType .mapping expected

/-- What stands where another event of the document is due. -/
def exhausted (d : Document) : SettingsFault :=
  match d.fault with
  | some fault => .document fault
  | none => .endOfEvents

/-- An event, or the one that it refers to. -/
def resolve (d : Document) (e : PlacedEvent Nat) : PlacedEvent Nat :=
  match e.event with
  | .alias n => (d.target? n).getD e
  | _ => e

/-- The text of a scalar, whatever it stands for. -/
def textOf (d : Document) (expected : String) (path : ValuePath) (e : PlacedEvent Nat) :
    Except SettingsFault String :=
  let node := resolve d e
  match node.event with
  | .scalar _ s _ => .ok s
  | other => .error (.value (typeProblem expected other) path node.mark)

/-- The word of a tag that the document itself gives a meaning to. -/
def localWord? (tag : Option (List UInt8)) : Option String :=
  match tag with
  | some (0x21 :: word) =>
    (Utf8.decode (if word.isEmpty then [0x21] else word)).toOption.map String.ofList
  | _ => none

def tagOf : Yaml.Event Nat → Option (List UInt8)
  | .scalar properties _ _ => properties.tag
  | .sequenceStart properties => properties.tag
  | .mappingStart properties => properties.tag
  | _ => none

/-- Nothing may stand behind a tag that names a format. -/
def nothing (path : ValuePath) (node : PlacedEvent Nat) : Except SettingsFault Unit :=
  match node.event with
  | .scalar _ s plain =>
    if plain && (s.isEmpty || Yaml.isNull s) then .ok ()
    else .error (.value (.invalidValue s "null") path node.mark)
  | other => .error (.value (typeProblem "unit" other) path node.mark)

/-- A format, named by a scalar or by a tag. A tag that names none is a fault at `begin`, except
behind an alias. -/
def formatOf (d : Document) (begin : Mark) (path : ValuePath) (e : PlacedEvent Nat) :
    Except SettingsFault Format :=
  let node := resolve d e
  match localWord? (tagOf node.event), node.event with
  | some word, _ =>
    match Format.ofName? word with
    | some f => do
      nothing path node
      return f
    | none =>
      if e.event matches .alias _ then .error (.value (.unknownFormat word) path e.mark)
      else .error (.value (.unknownFormat word) .whole begin)
  | none, .scalar _ word _ =>
    match Format.ofName? word with
    | some f => .ok f
    | none => .error (.value (.unknownFormat word) path node.mark)
  | none, other => .error (.value (typeProblem "a YAML tag starting with '!'" other) path node.mark)

/-- The number of open collections after an event. -/
def depthAfter (depth : Nat) : Yaml.Event Nat → Nat
  | .sequenceStart _ | .mappingStart _ => depth + 1
  | .sequenceEnd | .mappingEnd => depth - 1
  | .scalar _ _ _ | .alias _ => depth

/-- Passes over a node, inside of `depth` collections that it has opened. -/
def skip (d : Document) (depth : Nat) :
    List (PlacedEvent Nat) → Except SettingsFault (List (PlacedEvent Nat))
  | [] => .error (exhausted d)
  | e :: es =>
    if depthAfter depth e.event = 0 then .ok es else skip d (depthAfter depth e.event) es

theorem length_skip_lt {d : Document} {depth : Nat} {es rest : List (PlacedEvent Nat)}
    (h : skip d depth es = .ok rest) : rest.length < es.length := by
  induction es generalizing depth with
  | nil => cases h
  | cons e es ih =>
    unfold skip at h
    split at h
    · cases h
      exact Nat.lt_succ_self _
    · exact Nat.lt_succ_of_lt (ih h)

/-- The values of the fields that have been read. -/
structure Given where
  addressStart : Option String := none
  format : Option Format := none
  deriving DecidableEq, Repr

namespace Given

def has (g : Given) : Field → Bool
  | .addressStart => g.addressStart.isSome
  | .format => g.format.isSome

/-- Reads the value of a field. -/
def read (g : Given) (d : Document) (begin : Mark) (path : ValuePath) (e : PlacedEvent Nat) :
    Field → Except SettingsFault Given
  | .addressStart => do
    let s ← textOf d "a string" path e
    return { g with addressStart := some s }
  | .format => do
    let f ← formatOf d begin path e
    return { g with format := some f }

end Given

/-- Where the value of a key is found. -/
def pathOf (key : PlacedEvent Nat) : ValuePath :=
  match key.event with
  | .scalar _ s _ => .key s
  | _ => .aliasKey

/-- Reads the keys and values of the mapping that begins at `begin`, up to its end. -/
def fields (d : Document) (begin : Mark) (given : Given) :
    List (PlacedEvent Nat) → Except SettingsFault Given
  | [] => .error (exhausted d)
  | key :: es =>
    if key.event = .mappingEnd then
      .ok given
    else
      match textOf d "field identifier" .whole key with
      | .error fault => .error fault
      | .ok name =>
        match Field.ofName? name with
        | none =>
          match _h : skip d 0 es with
          | .error fault => .error fault
          | .ok rest => fields d begin given rest
        | some field =>
          if given.has field then
            .error (.value (.duplicateField field.name) .whole begin)
          else
            match es with
            | [] => .error (exhausted d)
            | e :: rest =>
              match given.read d begin (pathOf key) e field with
              | .error fault => .error fault
              | .ok given => fields d begin given rest
termination_by es => es.length
decreasing_by
  · have := length_skip_lt _h
    simp only [List.length_cons]
    omega
  · simp only [List.length_cons]
    omega

/-- The fields that a document gives. -/
def given (d : Document) : Except SettingsFault Given :=
  match d.events with
  | [] => if d.fault.isSome then .error (exhausted d) else .ok {}
  | e :: es =>
    match e.event with
    | .mappingStart _ => fields d e.mark {} es
    | .scalar properties s plain =>
      if s.isEmpty && plain then .ok {}
      else .error (.value (typeProblem "struct Config" (.scalar properties s plain)) .whole e.mark)
    | other => .error (.value (typeProblem "struct Config" other) .whole e.mark)

/-- The settings in a document; those that it does not give are the usual ones. -/
def ofDocument (d : Document) : Except SettingsFault Settings := do
  let g ← given d
  match d.fault, d.followed with
  | some fault, _ => throw (.document fault)
  | none, true => throw .severalDocuments
  | none, false => return override {} g.addressStart g.format

def parse (text : String) : Except SettingsFault Settings :=
  ofDocument (.ofText text)

end Settings

/-- Why there are no settings at a path. -/
inductive SettingsError where
  | unreadable (path : String) (fault : PathFault)
  | notText (path : String)
  | malformed (path : String) (fault : SettingsFault)
  deriving DecidableEq, Repr

namespace SettingsError

def summary : SettingsError → String
  | unreadable path _ | notText path => "Failed to read config from " ++ path
  | malformed path _ => "Failed to parse config from " ++ path

def cause : SettingsError → String
  | unreadable _ fault => fault.message
  | notText _ => "stream did not contain valid UTF-8"
  | malformed _ fault => fault.message

/-- The error together with its cause. -/
def message (e : SettingsError) : String :=
  e.summary ++ ": " ++ e.cause

end SettingsError

/-- The settings at a path, if one is given, and else the usual ones. -/
def Settings.load (files : String → Lookup) : Option String → Except SettingsError Settings
  | none => .ok {}
  | some path =>
    match (files path).read with
    | .error fault => .error (.unreadable path fault)
    | .ok bytes =>
      match Utf8.decode bytes with
      | .error _ => .error (.notText path)
      | .ok cs => (Settings.parse (String.ofList cs)).mapError (.malformed path)

end DeletionGuard
