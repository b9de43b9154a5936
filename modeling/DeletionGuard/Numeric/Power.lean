/-!
# Powers

The powers of two and ten that number formats are made of.
-/

namespace DeletionGuard

def powerOfTwo (n : Nat) : Nat :=
  Nat.pow 2 n

def powerOfTen (n : Nat) : Nat :=
  Nat.pow 10 n

end DeletionGuard
