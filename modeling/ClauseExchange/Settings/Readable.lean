import ClauseExchange.Numeral.Decimal

/-!
Types whose values can be read from a text, and nothing but the value.
-/

namespace ClauseExchange

class Readable (α : Type) where
  read? : String → Option α

def readBelow? (bound : Nat) (text : String) : Option Nat :=
  (Decimal.readUnsigned? text.toList).filter fun value => value < bound

instance : Readable UInt8 where
  read? text := (readBelow? UInt8.size text).map UInt8.ofNat

instance : Readable UInt16 where
  read? text := (readBelow? UInt16.size text).map UInt16.ofNat

instance : Readable UInt32 where
  read? text := (readBelow? UInt32.size text).map UInt32.ofNat

instance : Readable UInt64 where
  read? text := (readBelow? UInt64.size text).map UInt64.ofNat

instance : Readable Int32 where
  read? text :=
    ((Decimal.readInt? text.toList).filter fun value =>
      Int32.minValue.toInt ≤ value ∧ value ≤ Int32.maxValue.toInt).map Int32.ofInt

instance : Readable Bool where
  read?
    | "true" => some true
    | "false" => some false
    | _ => none

instance : Readable String where
  read? := some

end ClauseExchange
