import DeletionGuard.Files
import DeletionGuard.Json.Shape
import DeletionGuard.Plan.Basic

/-!
# Plans as documents

A plan document is a JSON record that lists the changes, each a record with an address and a block
of actions. Documents come as texts or as files, which differ only in how the place of a fault is
named.
-/

namespace DeletionGuard

namespace Plan

/-- The block of a change that holds its actions. -/
def actionsShape : Json.Shape (List String) where
  phrase := "struct Change"
  fields := [⟨"actions", .orNull (.list .text) fun actions _ => actions⟩]
  empty := []

def changeShape : Json.Shape ResourceChange where
  phrase := "struct ResourceChange"
  fields := [
    ⟨"address", .orNull .text fun address rc => { rc with address }⟩,
    ⟨"change", .orNull (.record actionsShape) fun actions rc => { rc with actions }⟩]
  empty := ⟨"", []⟩

def planShape : Json.Shape Plan where
  phrase := "struct ChangePlan"
  fields := [⟨"resource_changes", .orNull (.list (.record changeShape)) fun changes _ => ⟨changes⟩⟩]
  empty := ⟨[]⟩

/-- The plan that a document's bytes hold. -/
def ofBytes (medium : Json.Medium) (bytes : List UInt8) : Except Json.LocatedFault Plan :=
  ((Json.Value.record planShape).document bytes).mapError (·.locate medium bytes)

def parse (text : String) : Except Json.LocatedFault Plan :=
  ofBytes .memory (Utf8.ofString text)

end Plan

/-- Why a regular file holds no plan. -/
inductive PlanFault where
  | document (fault : Json.LocatedFault)
  | unreadable (fault : PathFault)
  deriving DecidableEq, Repr

namespace PlanFault

def message : PlanFault → String
  | document fault => fault.message
  | unreadable fault => fault.message

/-- The fault with its parts told apart; a file that cannot be read has no places. -/
def describe : PlanFault → String
  | document fault => fault.describe
  | unreadable fault => Json.describeFault fault.message ⟨0, 0⟩

end PlanFault

/-- Why there is no plan at a path. -/
inductive PlanError where
  | notFound (path : String)
  | malformed (path : String) (fault : PlanFault)
  deriving DecidableEq, Repr

namespace PlanError

def path : PlanError → String
  | notFound path => path
  | malformed path _ => path

def message : PlanError → String
  | notFound path => "plan file not found: " ++ path
  | malformed path fault => "failed to parse plan file " ++ path ++ ": " ++ fault.message

/-- The error with its parts told apart, as diagnostics show it. -/
def describe : PlanError → String
  | notFound path => "NotFound \x7b path: " ++ Text.quotePath path ++ " \x7d"
  | malformed path fault =>
    "Malformed \x7b path: " ++ Text.quotePath path ++ ", source: " ++ fault.describe ++ " \x7d"

end PlanError

/-- The plan in the file at `path`, which must be a regular one. -/
def Plan.load (files : String → Lookup) (path : String) : Except PlanError Plan :=
  match files path with
  | .regular bytes => (Plan.ofBytes .stream bytes).mapError (.malformed path <| .document ·)
  | .unreadable fault => .error (.malformed path (.unreadable fault))
  | _ => .error (.notFound path)

end DeletionGuard
