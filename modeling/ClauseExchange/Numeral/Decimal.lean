/-!
Decimal numerals over characters: the digits of a natural number without leading zeros, and readers
that take any number of leading zeros and, where a sign is allowed, one sign.
-/

namespace ClauseExchange.Decimal

def digit (value : Nat) : Char :=
  Char.ofNat ('0'.toNat + value)

def digitValue (character : Char) : Nat :=
  character.toNat - '0'.toNat

def ofNat (value : Nat) : List Char :=
  if value < 10 then [digit value] else ofNat (value / 10) ++ [digit (value % 10)]

def ofInt (value : Int) : List Char :=
  if value < 0 then '-' :: ofNat value.natAbs else ofNat value.natAbs

/-- A numeral is one digit or more and nothing else. -/
def readNat? (numeral : List Char) : Option Nat :=
  if numeral ≠ [] ∧ numeral.all Char.isDigit then
    some (numeral.foldl (fun value character => 10 * value + digitValue character) 0)
  else
    none

def readUnsigned? : List Char → Option Nat
  | '+' :: numeral => readNat? numeral
  | numeral => readNat? numeral

def readInt? : List Char → Option Int
  | '-' :: numeral => (readNat? numeral).map fun value => -(value : Int)
  | '+' :: numeral => (readNat? numeral).map fun value => (value : Int)
  | numeral => (readNat? numeral).map fun value => (value : Int)

end ClauseExchange.Decimal
