import DeletionGuard.Yaml.Token.Stream

/-!
# Events

What a document consists of, in the order of its text: scalars, aliases, and the beginnings and
ends of collections. What an alias refers to is first a name and later a number.
-/

namespace DeletionGuard.Yaml

/-- What may stand before a node: a name for it and a tag that says of what kind it is. -/
structure Properties where
  anchor : Option String := none
  tag : Option (List UInt8) := none
  deriving DecidableEq, Repr

inductive Event (ρ : Type) where
  | alias (target : ρ)
  | scalar (properties : Properties) (text : String) (plain : Bool)
  | sequenceStart (properties : Properties)
  | sequenceEnd
  | mappingStart (properties : Properties)
  | mappingEnd
  deriving DecidableEq, Repr

/-- An event and where it begins. -/
structure PlacedEvent (ρ : Type) where
  event : Event ρ
  mark : Mark
  deriving DecidableEq, Repr

end DeletionGuard.Yaml
