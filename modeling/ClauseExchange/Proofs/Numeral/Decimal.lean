import ClauseExchange.Numeral.Decimal
import Mathlib.Data.Nat.Notation
import Mathlib.Logic.Function.Basic

/-!
Decimal numerals read back as the numbers they were written for, so different numbers have different
numerals.
-/

namespace ClauseExchange.Decimal

/-- The value of a row of digits, most significant digit first. -/
def rowValue (row : List Char) : Nat :=
  row.foldl (fun value character => 10 * value + digitValue character) 0

theorem isDigit_digit {value : Nat} (small : value < 10) :
    (digit value).isDigit = true := by
  have checked : ∀ value < 10, (digit value).isDigit = true := by decide
  exact checked value small

theorem digitValue_digit {value : Nat} (small : value < 10) :
    digitValue (digit value) = value := by
  have checked : ∀ value < 10, digitValue (digit value) = value := by decide
  exact checked value small

theorem ofNat_ne_nil (value : Nat) : ofNat value ≠ [] := by
  unfold ofNat
  split <;> simp

theorem isDigit_of_mem_ofNat {value : Nat} :
    ∀ character ∈ ofNat value, character.isDigit = true := by
  fun_induction ofNat value with
  | case1 value small =>
      intro character member
      rw [List.mem_singleton] at member
      subst member
      exact isDigit_digit small
  | case2 value large induction =>
      intro character member
      rcases List.mem_append.mp member with higher | last
      · exact induction character higher
      · rw [List.mem_singleton] at last
        subst last
        exact isDigit_digit (Nat.mod_lt _ (by omega))

@[simp] theorem rowValue_ofNat (value : Nat) : rowValue (ofNat value) = value := by
  fun_induction ofNat value with
  | case1 value small => simp [rowValue, digitValue_digit small]
  | case2 value large induction =>
      have last : digitValue (digit (value % 10)) = value % 10 :=
        digitValue_digit (Nat.mod_lt _ (by omega))
      unfold rowValue at induction ⊢
      rw [List.foldl_append, induction]
      simp only [List.foldl_cons, List.foldl_nil, last]
      omega

@[simp] theorem readNat?_ofNat (value : Nat) : readNat? (ofNat value) = some value := by
  have digits : (ofNat value).all Char.isDigit = true :=
    List.all_eq_true.mpr isDigit_of_mem_ofNat
  have row := rowValue_ofNat value
  unfold rowValue at row
  simp only [readNat?, ne_eq, ofNat_ne_nil, not_false_eq_true, digits, and_self, if_true, row]

theorem readInt?_of_readNat? {numeral : List Char} {value : Nat}
    (read : readNat? numeral = some value) : readInt? numeral = some (value : Int) := by
  have digits : numeral.all Char.isDigit = true := by
    unfold readNat? at read
    split at read
    case isTrue row => exact row.2
    case isFalse => cases read
  -- A sign is no digit, so the numeral is read as it stands.
  unfold readInt?
  split
  case h_1 => exact absurd digits (by simp [Char.isDigit])
  case h_2 => exact absurd digits (by simp [Char.isDigit])
  case h_3 => rw [read]; rfl

theorem readInt?_eq_some_iff {numeral : List Char} {value : Int} :
    readInt? numeral = some value ↔
      (∃ number : Nat, readNat? numeral = some number ∧ value = number) ∨
      (∃ (row : List Char) (number : Nat),
        numeral = '+' :: row ∧ readNat? row = some number ∧ value = number) ∨
      ∃ (row : List Char) (number : Nat),
        numeral = '-' :: row ∧ readNat? row = some number ∧ value = -number := by
  constructor
  · intro read
    unfold readInt? at read
    split at read
    case h_1 row =>
      obtain ⟨number, digits, rfl⟩ : ∃ number : Nat, readNat? row = some number ∧ -number = value := by
        simpa [Option.bind_eq_some_iff] using read
      exact Or.inr (Or.inr ⟨row, number, rfl, digits, rfl⟩)
    case h_2 row =>
      obtain ⟨number, digits, rfl⟩ : ∃ number : Nat, readNat? row = some number ∧ number = value := by
        simpa [Option.bind_eq_some_iff] using read
      exact Or.inr (Or.inl ⟨row, number, rfl, digits, rfl⟩)
    case h_3 =>
      obtain ⟨number, digits, rfl⟩ :
          ∃ number : Nat, readNat? numeral = some number ∧ number = value := by
        simpa [Option.bind_eq_some_iff] using read
      exact Or.inl ⟨number, digits, rfl⟩
  · rintro (⟨number, digits, rfl⟩ | ⟨row, number, rfl, digits, rfl⟩ | ⟨row, number, rfl, digits, rfl⟩)
    · exact readInt?_of_readNat? digits
    · simp [readInt?, digits]
    · simp [readInt?, digits]

@[simp] theorem readInt?_ofInt (value : Int) : readInt? (ofInt value) = some value := by
  have magnitude := readNat?_ofNat value.natAbs
  unfold ofInt
  split
  case isTrue negative =>
      have sign : -(value.natAbs : Int) = value := by omega
      rw [readInt?, magnitude]
      exact congrArg some sign
  case isFalse nonnegative =>
      have sign : (value.natAbs : Int) = value := by omega
      rw [readInt?_of_readNat? magnitude, sign]

theorem ofNat_injective : Function.Injective ofNat := by
  intro first second same
  apply Option.some.inj
  rw [← readNat?_ofNat first, ← readNat?_ofNat second, same]

end ClauseExchange.Decimal
