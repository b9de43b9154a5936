import DeletionGuard.Log.Pattern.Branches
import DeletionGuard.Log.Pattern.Search
import DeletionGuard.Log.Pattern.Size

/-!
# Patterns

Regular expressions that messages are searched for. A text is read as a tree, which has a meaning
under its flags; a pattern is refused that is too large, or that asks for words of characters
outside ASCII.
-/

namespace DeletionGuard

structure Pattern where
  expression : Pattern.Expression Pattern.Atom

namespace Pattern

/-- Why a text is no pattern. -/
inductive Refusal where
  | fault (f : Fault)
  | tooLarge
  | unicodeWords
  deriving DecidableEq, Repr

/-- What is said of a text that is refused. -/
def Refusal.message (r : Refusal) (source : String) : String :=
  match r with
  | fault f => f.message source
  | tooLarge => "Compiled regex exceeds size limit of " ++ toString sizeLimit ++ " bytes."
  | unicodeWords => "error building NFA"

mutual

/-- Whether an expression asks for words of any characters. -/
def asksForWords : Expression Atom → Bool
  | .empty => false
  | .atom (.chars _) => false
  | .atom (.look (.word unicode _)) => unicode
  | .atom (.look _) => false
  | .seq es => anyAsksForWords es
  | .either es => anyAsksForWords es
  | .times e _ _ => asksForWords e
  | .kept e => asksForWords e

def anyAsksForWords : List (Expression Atom) → Bool
  | [] => false
  | e :: es => asksForWords e || anyAsksForWords es

end

def ofText (source : String) : Except Refusal Pattern := do
  let t ← (Tree.ofText source).mapError .fault
  let (e, _) ← (Expression.ofTree {} t).mapError .fault
  if sizeLimit < size false e then .error .tooLarge
  else if asksForWords e then .error .unicodeWords
  else if sizeLimit < size true e then .error .tooLarge
  else .ok ⟨e⟩

/-- Whether a text holds a match. -/
def isIn (p : Pattern) (text : String) : Bool :=
  p.expression.isIn text

end Pattern

end DeletionGuard
