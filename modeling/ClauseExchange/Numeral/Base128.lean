/-!
Natural numbers in base 128, least group first: every byte carries seven bits, and all bytes but the
last of a number have the top bit set.
-/

namespace ClauseExchange.Base128

def encode (value : Nat) : List UInt8 :=
  if value < 128 then
    [UInt8.ofNat value]
  else
    UInt8.ofNat (value % 128 + 128) :: encode (value / 128)

def value (groups : List UInt8) : Nat :=
  groups.foldr (fun group rest => group.toNat % 128 + 128 * rest) 0

/-- Puts a byte in front of numbers that are already told apart: it ends a number of its own, or it
opens the first of them. A byte that announces another one has to have one after it. -/
def prepend? (byte : UInt8) (numbers : List (List UInt8)) : Option (List (List UInt8)) :=
  if byte < 128 then
    some ([byte] :: numbers)
  else
    match numbers with
    | [] => none
    | groups :: rest => some ((byte :: groups) :: rest)

/-- Tells apart the numbers written one after another, or `none` if the last one breaks off. -/
def split? (bytes : List UInt8) : Option (List (List UInt8)) :=
  bytes.foldrM prepend? []

end ClauseExchange.Base128
