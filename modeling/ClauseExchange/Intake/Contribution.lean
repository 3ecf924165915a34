import ClauseExchange.Error
import ClauseExchange.Numeral.Decimal
import ClauseExchange.Text.Blank

/-!
A contribution is a clause that a peer left as a list of decimal numerals. It is read as a whole: the
first element that is no literal decides why it is rejected.
-/

namespace ClauseExchange.Contribution

/-- The integers that a numeral may stand for, literal or not. -/
def inRange (value : Int) : Bool :=
  decide (Int64.minValue.toInt ≤ value ∧ value ≤ Int64.maxValue.toInt)

/-- The integer written in an element, with white space around it left out. -/
def readInteger? (element : Bytes) : Option Int :=
  (Utf8.decode? element).bind fun text =>
    (Decimal.readInt? (Text.trimChars text.toList)).filter inRange

def readElement (number : Nat) (element : Bytes) : Except IntakeError Literal :=
  match readInteger? element with
  | none => .error (.malformedRecord number element)
  | some value =>
      match Literal.ofInt? value with
      | some literal => .ok literal
      | none => .error (.invalidLiteral number value)

def read (number : Nat) (elements : List Bytes) : Except IntakeError (List Literal) :=
  elements.mapM (readElement number)

end ClauseExchange.Contribution
