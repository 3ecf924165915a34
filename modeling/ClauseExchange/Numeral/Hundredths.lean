/-!
A non-negative finite floating point number with two decimals: the exact value of the number, rounded
to hundredths, with a half going to the even neighbour.
-/

namespace ClauseExchange.Hundredths

def roundDiv (dividend divisor : Nat) : Nat :=
  let quotient := dividend / divisor
  let remainder := dividend % divisor
  if 2 * remainder < divisor then quotient
  else if divisor < 2 * remainder then quotient + 1
  else quotient + quotient % 2

/-- A number is `significand * 2 ^ exponent / 2 ^ 1075`. -/
structure Binary where
  significand : Nat
  exponent : Nat

/-- An exponent field of zero marks the numbers without a leading bit, and counts as one. -/
def Binary.ofBits (bits : UInt64) : Binary :=
  let fraction := bits.toNat % (1 <<< 52)
  let field := (bits.toNat >>> 52) % (1 <<< 11)
  if field = 0 then ⟨fraction, 1⟩ else ⟨(1 <<< 52) + fraction, field⟩

def Binary.hundredths (number : Binary) : Nat :=
  roundDiv ((100 * number.significand) <<< (number.exponent - 1075))
    (1 <<< (1075 - number.exponent))

def render (ratio : Float) : String :=
  let hundredths := (Binary.ofBits ratio.toBits).hundredths
  let fraction := hundredths % 100
  s!"{hundredths / 100}.{fraction / 10}{fraction % 10}"

end ClauseExchange.Hundredths
