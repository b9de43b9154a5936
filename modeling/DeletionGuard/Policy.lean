import DeletionGuard.Plan.Basic

/-!
# Which changes are unsafe

A change is unsafe if it deletes its resource, be it for good or to create it anew. The changes of
a plan that violate the policy are the unsafe ones to resources whose address starts with the
protected beginning, in plan order.
-/

namespace DeletionGuard.Policy

/-- A replacement is a deletion and a creation. -/
def replacement : List String :=
  ActionSet.ofList ["delete", "create"]

def isUnsafe (actions : List String) : Bool :=
  actions.contains "delete" || actions == replacement

/-- Whether the address of a change starts with `start`. -/
def isProtected (start : String) (rc : ResourceChange) : Bool :=
  start.toList.isPrefixOf rc.address.toList

def violations (start : String) (plan : Plan) : List ResourceChange :=
  plan.changes.filter fun rc => isProtected start rc && isUnsafe rc.actionSet

end DeletionGuard.Policy
