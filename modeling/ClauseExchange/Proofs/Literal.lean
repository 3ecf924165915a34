import ClauseExchange.Literal
import Mathlib.Algebra.GroupWithZero.Nat
import Mathlib.Data.List.Forall2

/-!
Literals as words and as the numbers of a binary proof. Every word but zero and the least one is a
literal, and every number from 2 to `2 ^ 32 - 1` is.
-/

namespace ClauseExchange

/-- The integers that are literals. -/
def IsLiteral (value : Int) : Prop :=
  1 ≤ value.natAbs ∧ value.natAbs ≤ 2147483647

namespace Literal

theorem isLiteral (literal : Literal) : IsLiteral literal.value := by
  have nonzero := literal.ne_zero
  have bounded := literal.natAbs_lt
  constructor <;> omega

theorem ofInt?_cases (value : Int) :
    (∃ literal, ofInt? value = some literal ∧ literal.value = value) ∨
      ofInt? value = none ∧ ¬IsLiteral value := by
  cases read : ofInt? value with
  | some literal => exact Or.inl ⟨literal, rfl, ofInt?_eq_some_iff.mp read⟩
  | none =>
      refine Or.inr ⟨rfl, ?_⟩
      intro valid
      have literal : value ≠ 0 ∧ value.natAbs < 2147483648 := by
        unfold IsLiteral at valid
        omega
      rw [ofInt?, dif_pos literal] at read
      cases read

@[simp] theorem toInt_word (literal : Literal) : literal.word.toInt = literal.value := by
  have bounded := literal.natAbs_lt
  apply Int32.toInt_ofInt_of_le
  · omega
  · omega

@[simp] theorem ofWord?_word (literal : Literal) : ofWord? literal.word = some literal := by
  simp [ofWord?]

theorem ofWord?_eq_some_iff {word : Int32} {literal : Literal} :
    ofWord? word = some literal ↔ literal.word = word := by
  constructor
  · intro read
    have value := ofInt?_eq_some_iff.mp read
    rw [Literal.word, value, Int32.ofInt_toInt]
  · rintro rfl
    exact ofWord?_word literal

theorem ofWord?_eq_none_iff {word : Int32} :
    ofWord? word = none ↔ word = 0 ∨ word = Int32.minValue := by
  have least := word.le_toInt
  have greatest := word.toInt_lt
  rw [← Int32.toInt_inj, ← Int32.toInt_inj, Int32.toInt_minValue, Int32.toInt_zero]
  unfold ofWord? ofInt?
  split
  case isTrue valid =>
    have bounded := valid.2
    simp only [reduceCtorEq, false_iff, not_or]
    omega
  case isFalse invalid =>
    simp only [true_iff]
    omega

theorem word_valid (literal : Literal) : literal.word ≠ 0 ∧ literal.word ≠ Int32.minValue := by
  rw [← not_or, ← ofWord?_eq_none_iff]
  simp

/-- Words that are read off items are literals, read off the same items by their values. -/
theorem forall₂_toInt_iff {α : Type} {reads : α → Int → Prop} {items : List α}
    {words : List Int32} :
    List.Forall₂ (fun item word => reads item word.toInt ∧ IsLiteral word.toInt) items words ↔
      ∃ literals : List Literal, literals.map word = words ∧
        List.Forall₂ (fun item literal => reads item literal.value) items literals := by
  constructor
  · intro values
    induction values with
    | nil => exact ⟨[], rfl, .nil⟩
    | @cons item word items words first rest induction =>
        obtain ⟨value, valid⟩ := first
        obtain ⟨literals, rfl, others⟩ := induction
        rcases ofInt?_cases word.toInt with ⟨literal, _, same⟩ | ⟨_, invalid⟩
        · refine ⟨literal :: literals, ?_, .cons (same ▸ value) others⟩
          simp [Literal.word, same]
        · exact absurd valid invalid
  · rintro ⟨literals, rfl, values⟩
    refine List.forall₂_map_right_iff.mpr (values.imp ?_)
    intro item literal value
    rw [toInt_word]
    exact ⟨value, literal.isLiteral⟩

theorem index_injective : Function.Injective index := by
  intro first second same
  have nonzero := first.ne_zero
  have otherNonzero := second.ne_zero
  simp only [index, magnitude, signBit] at same
  apply ext
  split at same <;> split at same <;> omega

/-! Numbers of a binary proof. -/

theorem ofCode?_eq_some_iff {code : Nat} {literal : Literal} :
    ofCode? code = some literal ↔ literal.code = code := by
  have nonzero := literal.ne_zero
  simp only [ofCode?, Literal.code, magnitude, signBit]
  split
  case isTrue even =>
    rw [ofInt?_eq_some_iff]
    split <;> omega
  case isFalse odd =>
    rw [ofInt?_eq_some_iff]
    split <;> omega

theorem ofCode?_code (literal : Literal) : ofCode? literal.code = some literal :=
  ofCode?_eq_some_iff.mpr rfl

theorem two_le_code (literal : Literal) : 2 ≤ literal.code := by
  have nonzero := literal.ne_zero
  simp only [code, magnitude]
  omega

theorem code_lt (literal : Literal) : literal.code < 2 ^ 32 := by
  have bounded := literal.natAbs_lt
  simp only [code, magnitude, signBit]
  split <;> omega

end Literal

end ClauseExchange
