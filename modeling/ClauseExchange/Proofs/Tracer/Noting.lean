import ClauseExchange.Audit
import ClauseExchange.Proofs.Literal

/-!
The audit lets every line pass but a second addition of the empty clause, and meets no fault: a
literal has a word, and the table of units is made large enough for it.
-/

namespace ClauseExchange

namespace UnitTable

theorem lt_sizeFor (index size : Nat) : index < sizeFor index size := by
  fun_induction sizeFor index size with
  | case1 induction => exact induction
  | case2 size nonzero small induction => exact induction
  | case3 size nonzero large => exact Nat.lt_of_not_le large

theorem mark?_reserve (table : UnitTable) (index : Nat) :
    ∃ marked, (table.reserve index).mark? index = some marked := by
  have room : index < (table.reserve index).size := by
    unfold reserve
    split
    · exact lt_sizeFor index table.size
    · omega
  exact ⟨_, if_pos room⟩

end UnitTable

namespace Audit

theorem note_words (literals : List Literal) (audit : Audit) :
    (literals = [] ∧ audit.emptyAdded = true ∧
      audit.note (literals.map Literal.word) = .ok (.error .emptyClauseAgain)) ∨
    (¬(literals = [] ∧ audit.emptyAdded = true) ∧
      ∃ noted, audit.note (literals.map Literal.word) = .ok (.ok noted) ∧
        noted.emptyAdded = (audit.emptyAdded || literals.isEmpty)) := by
  match literals with
  | [] =>
      cases added : audit.emptyAdded with
      | true => exact Or.inl ⟨rfl, rfl, by simp [note, added]⟩
      | false => exact Or.inr ⟨by simp, _, by simp [note, added]; rfl, rfl⟩
  | [literal] =>
      obtain ⟨units, marked⟩ := audit.units.mark?_reserve literal.index
      refine Or.inr ⟨by simp, { audit with units }, ?_, by simp⟩
      simp [note, Literal.ofWord?_word, marked]
  | _ :: _ :: _ => exact Or.inr ⟨by simp, audit, rfl, by simp⟩

theorem sources_of_note {words : List Int32} {audit noted : Audit}
    (passed : audit.note words = .ok (.ok noted)) : noted.sources = audit.sources := by
  unfold note at passed
  split at passed
  case h_1 =>
    split at passed
    case isTrue => cases passed
    case isFalse =>
      cases passed
      rfl
  case h_2 =>
    split at passed
    case h_1 => cases passed
    case h_2 =>
      split at passed
      case h_1 => cases passed
      case h_2 =>
        cases passed
        rfl
  case h_3 =>
    cases passed
    rfl

end Audit

end ClauseExchange
