import DeletionGuard.Yaml.Fault

/-!
# Tokens

The marks, names and scalars that a YAML stream is made of, together with the tokens that stand for
the beginning and end of blocks, which only indentation shows. Tags are kept as bytes, since they
may hold escaped ones.
-/

namespace DeletionGuard.Yaml

inductive TokenKind where
  | streamEnd
  | versionDirective (major minor : Nat)
  | tagDirective (handle start : List UInt8)
  | documentStart
  | documentEnd
  | blockSequenceStart
  | blockMappingStart
  | blockEnd
  | flowSequenceStart
  | flowSequenceEnd
  | flowMappingStart
  | flowMappingEnd
  | blockEntry
  | flowEntry
  | key
  | value
  | alias (name : String)
  | anchor (name : String)
  | tag (handle suffix : List UInt8)
  | scalar (text : String) (plain : Bool)
  deriving DecidableEq, Repr

structure Token where
  kind : TokenKind
  start : Mark
  stop : Mark
  deriving DecidableEq, Repr

end DeletionGuard.Yaml
