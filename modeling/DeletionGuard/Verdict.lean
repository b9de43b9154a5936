import DeletionGuard.Policy

/-!
# Verdicts

What a guard says of a plan: success, or the changes that violate its policy. A run ends with a
status, which also covers input that cannot be judged.
-/

namespace DeletionGuard

/-- The beginning of the addresses that are protected unless another one is chosen. -/
def defaultAddressStart : String := "google_compute_disk.data_"

inductive Verdict where
  | success
  | violations (changes : List ResourceChange)
  deriving DecidableEq, Repr

inductive Status where
  | success
  | violationsFound
  | inputError
  deriving DecidableEq, Repr

/-- The exit code of a run. -/
def Status.code : Status → Nat
  | success => 0
  | violationsFound => 1
  | inputError => 2

namespace Verdict

def status : Verdict → Status
  | success => .success
  | violations _ => .violationsFound

def changes : Verdict → List ResourceChange
  | success => []
  | violations cs => cs

end Verdict

/-- Judges plans by the resources whose address starts with `addressStart`. -/
structure Guard where
  addressStart : String := defaultAddressStart
  deriving DecidableEq, Repr

def Guard.judge (g : Guard) (plan : Plan) : Verdict :=
  match Policy.violations g.addressStart plan with
  | [] => .success
  | c :: cs => .violations (c :: cs)

end DeletionGuard
