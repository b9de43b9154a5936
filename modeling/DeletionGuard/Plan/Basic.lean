/-!
# Plans

A plan lists the changes that are to be made to resources. Each change has the address of its
resource and the actions that make it up, in the order of the document; as a set of actions, order
and repetition carry no meaning.
-/

namespace DeletionGuard

structure ResourceChange where
  address : String
  actions : List String
  deriving DecidableEq, Repr

structure Plan where
  changes : List ResourceChange
  deriving DecidableEq, Repr

namespace ActionSet

/-- Puts an action into a list that is in order, unless it is there already. -/
def insert (a : String) : List String → List String
  | [] => [a]
  | b :: bs => if a < b then a :: b :: bs else if a = b then b :: bs else b :: insert a bs

/-- The distinct actions in the order of their characters. -/
def ofList (actions : List String) : List String :=
  actions.foldr insert []

end ActionSet

def ResourceChange.actionSet (rc : ResourceChange) : List String :=
  ActionSet.ofList rc.actions

end DeletionGuard
