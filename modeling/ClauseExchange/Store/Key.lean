import ClauseExchange.Numeral.Decimal

/-!
Keys of numbered entries. The entries of one direction are numbered from zero under one stem.
-/

namespace ClauseExchange.Key

/-- The text that all numbered keys of a stem begin with. -/
def lead (stem : String) : String :=
  stem ++ ":"

def numbered (stem : String) (number : Nat) : String :=
  lead stem ++ String.ofList (Decimal.ofNat number)

def outgoingStem : String := "from_solver"

def incomingStem : String := "to_solver"

def numberBound : Nat := UInt64.size

/-- The number after a number, unless that was the last one. -/
def next? (number : Nat) : Option Nat :=
  if number + 1 < numberBound then some (number + 1) else none

def outgoing (number : Nat) : String :=
  numbered outgoingStem number

def incoming (number : Nat) : String :=
  numbered incomingStem number

end ClauseExchange.Key
