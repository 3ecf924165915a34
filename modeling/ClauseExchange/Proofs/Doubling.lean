import Mathlib.Order.Bounds.Basic
import Mathlib.Tactic.Ring

/-!
Sizes that come about by doubling. A doubling that is made only where the size is too small leads to the
least size that is large enough.
-/

namespace ClauseExchange

def doublings (base : Nat) : Set Nat :=
  {size | ∃ times, size = base * 2 ^ times}

variable {base size other : Nat} {holds more : Nat → Prop}

theorem self_mem_doublings (base : Nat) : base ∈ doublings base :=
  ⟨0, (Nat.mul_one base).symm⟩

theorem double_mem_doublings (member : size ∈ doublings base) : 2 * size ∈ doublings base := by
  obtain ⟨times, rfl⟩ := member
  exact ⟨times + 1, by ring⟩

theorem le_of_mem_doublings (member : size ∈ doublings base) : base ≤ size := by
  obtain ⟨times, rfl⟩ := member
  exact Nat.le_mul_of_pos_right base (Nat.two_pow_pos times)

/-- There is no size between one and its double. -/
theorem double_le_of_lt (member : size ∈ doublings base) (further : other ∈ doublings base)
    (less : size < other) : 2 * size ≤ other := by
  obtain ⟨times, rfl⟩ := member
  obtain ⟨more, rfl⟩ := further
  have fewer : times < more := by
    by_contra many
    apply Nat.not_le_of_lt less
    exact Nat.mul_le_mul_left base (Nat.pow_le_pow_right Nat.two_pos (Nat.le_of_not_lt many))
  calc 2 * (base * 2 ^ times)
      = base * 2 ^ (times + 1) := by ring
    _ ≤ base * 2 ^ more := Nat.mul_le_mul_left base (Nat.pow_le_pow_right Nat.two_pos fewer)

theorem isLeast_doublings_of_holds (least : IsLeast {size ∈ doublings base | holds size} size)
    (stronger : ∀ size, more size → holds size) (still : more size) :
    IsLeast {size ∈ doublings base | more size} size := by
  refine ⟨⟨least.1.1, still⟩, ?_⟩
  intro other enough
  exact least.2 ⟨enough.1, stronger other enough.2⟩

/-- The least size that was large enough is doubled when it is so no longer. -/
theorem isLeast_doublings_double (least : IsLeast {size ∈ doublings base | holds size} size)
    (stronger : ∀ size, more size → holds size) (short : ¬more size) (enough : more (2 * size)) :
    IsLeast {size ∈ doublings base | more size} (2 * size) := by
  refine ⟨⟨double_mem_doublings least.1.1, enough⟩, ?_⟩
  intro other further
  apply double_le_of_lt least.1.1 further.1
  apply Nat.lt_of_le_of_ne (least.2 ⟨further.1, stronger other further.2⟩)
  rintro rfl
  exact short further.2

end ClauseExchange
