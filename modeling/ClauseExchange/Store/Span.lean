/-!
A span of a list is given by its first and its last position. Positions below zero count from the end
of the list, and a span keeps to the positions that the list has.
-/

namespace ClauseExchange.Span

/-- A position counted from the front. -/
def fromFront (length : Nat) (position : Int) : Int :=
  if position < 0 then length + position else position

def start (length : Nat) (first : Int) : Nat :=
  (fromFront length first).toNat

def stop (length : Nat) (last : Int) : Nat :=
  min (fromFront length last + 1).toNat length

end ClauseExchange.Span
