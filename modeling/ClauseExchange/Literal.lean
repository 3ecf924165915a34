/-!
Literals as solvers exchange them: a non-zero integer whose sign is the polarity and whose magnitude
is the number of the variable. The magnitude stays below `2 ^ 31`, so that a literal and its negation
both fit a signed word of 32 bits.
-/

namespace ClauseExchange

structure Literal where
  value : Int
  ne_zero : value ≠ 0
  natAbs_lt : value.natAbs < 2147483648
deriving DecidableEq

namespace Literal

def ofInt? (value : Int) : Option Literal :=
  if valid : value ≠ 0 ∧ value.natAbs < 2147483648 then
    some ⟨value, valid.1, valid.2⟩
  else
    none

/-- Every word but zero and the least one is a literal. -/
def ofWord? (word : Int32) : Option Literal :=
  ofInt? word.toInt

def word (literal : Literal) : Int32 :=
  Int32.ofInt literal.value

def magnitude (literal : Literal) : Nat :=
  literal.value.natAbs

/-- The bit that tells a negative literal from a positive one. -/
def signBit (literal : Literal) : Nat :=
  if literal.value < 0 then 1 else 0

def index (literal : Literal) : Nat :=
  2 * (literal.magnitude - 1) + literal.signBit

/-- The number that stands for a literal in a binary proof. -/
def code (literal : Literal) : Nat :=
  2 * literal.magnitude + literal.signBit

def ofCode? (code : Nat) : Option Literal :=
  if code % 2 = 0 then ofInt? (code / 2 : Nat) else ofInt? (-(code / 2 : Nat))

@[simp] theorem ofInt?_value (literal : Literal) :
    ofInt? literal.value = some literal := by
  simp only [ofInt?, literal.ne_zero, literal.natAbs_lt, ne_eq, not_false_eq_true, and_self,
    dite_true]

theorem ofInt?_eq_some_iff {value : Int} {literal : Literal} :
    ofInt? value = some literal ↔ literal.value = value := by
  constructor
  · intro read
    unfold ofInt? at read
    split at read
    · cases read
      rfl
    · cases read
  · rintro rfl
    exact ofInt?_value literal

@[ext] theorem ext {first second : Literal} (values : first.value = second.value) :
    first = second := by
  cases first
  cases second
  cases values
  rfl

end Literal

end ClauseExchange
