import ClauseExchange.Numeral.Base128
import Mathlib.Algebra.GroupWithZero.Nat

/-!
Numbers written one after another in base 128 are told apart again, and each has the value it was
written for. Bytes without a zero among them are numbers in base 128 in one way at most, and then each
number is written as it would be encoded.
-/

namespace ClauseExchange.Base128

theorem value_encode (number : Nat) : value (encode number) = number := by
  fun_induction encode number with
  | case1 number small =>
      simp only [value, List.foldr_cons, List.foldr_nil, UInt8.toNat_ofNat']
      omega
  | case2 number large induction =>
      unfold value at induction ⊢
      rw [List.foldr_cons, induction, UInt8.toNat_ofNat']
      omega

theorem length_encode_le {number groups : Nat} (small : number < 128 ^ (groups + 1)) :
    (encode number).length ≤ groups + 1 := by
  induction groups generalizing number with
  | zero =>
      have below : number < 128 := small
      unfold encode
      rw [if_pos below]
      exact Nat.le_refl 1
  | succ groups induction =>
      unfold encode
      split
      case isTrue => exact Nat.succ_le_succ (Nat.zero_le _)
      case isFalse =>
          rw [Nat.pow_succ] at small
          exact Nat.succ_le_succ (induction (Nat.div_lt_of_lt_mul (Nat.mul_comm _ 128 ▸ small)))

/-- The bytes of one number: each but the last announces another one. -/
inductive Numeral : List UInt8 → Prop
  | last {group : UInt8} (low : group < 128) : Numeral [group]
  | more {group : UInt8} {groups : List UInt8} (high : ¬group < 128) (rest : Numeral groups) :
      Numeral (group :: groups)

theorem numeral_encode (number : Nat) : Numeral (encode number) := by
  fun_induction encode number with
  | case1 number small =>
      apply Numeral.last
      rw [UInt8.lt_iff_toNat_lt, UInt8.toNat_ofNat']
      exact Nat.lt_of_le_of_lt (Nat.mod_le _ _) small
  | case2 number large induction =>
      refine .more ?_ induction
      rw [UInt8.lt_iff_toNat_lt, UInt8.toNat_ofNat']
      change ¬ (number % 128 + 128) % 256 < 128
      omega

theorem split?_cons (byte : UInt8) (bytes : List UInt8) :
    split? (byte :: bytes) = (split? bytes).bind (prepend? byte) :=
  List.foldrM_cons

/-- A number is told apart from whatever comes after it. -/
theorem Numeral.split?_append {groups : List UInt8} (numeral : Numeral groups)
    (bytes : List UInt8) : split? (groups ++ bytes) = (split? bytes).map (groups :: ·) := by
  induction numeral with
  | last low =>
      rw [List.singleton_append, split?_cons]
      cases split? bytes with
      | none => rfl
      | some numbers => exact if_pos low
  | more high rest induction =>
      rw [List.cons_append, split?_cons, induction]
      cases split? bytes with
      | none => rfl
      | some numbers => exact if_neg high

theorem split?_flatten_append {numbers : List (List UInt8)}
    (whole : ∀ number ∈ numbers, Numeral number) (bytes : List UInt8) :
    split? (numbers.flatten ++ bytes) = (split? bytes).map (numbers ++ ·) := by
  induction numbers with
  | nil => simp
  | cons groups numbers induction =>
      obtain ⟨first, rest⟩ := List.forall_mem_cons.mp whole
      rw [List.flatten_cons, List.append_assoc, first.split?_append, induction rest, Option.map_map]
      rfl

/-- Bytes are split into numbers just where they are the bytes of those numbers. -/
theorem split?_eq_some_iff {bytes : List UInt8} {numbers : List (List UInt8)} :
    split? bytes = some numbers ↔
      numbers.flatten = bytes ∧ ∀ number ∈ numbers, Numeral number := by
  constructor
  · intro apart
    induction bytes generalizing numbers with
    | nil =>
        cases apart
        simp
    | cons byte bytes induction =>
        rw [split?_cons] at apart
        obtain ⟨others, rest, prepended⟩ := Option.bind_eq_some_iff.mp apart
        obtain ⟨joined, whole⟩ := induction rest
        unfold prepend? at prepended
        split at prepended
        case isTrue low =>
          cases prepended
          exact ⟨congrArg (byte :: ·) joined, List.forall_mem_cons.mpr ⟨.last low, whole⟩⟩
        case isFalse high =>
          cases others with
          | nil => cases prepended
          | cons groups others =>
              cases prepended
              obtain ⟨first, rest⟩ := List.forall_mem_cons.mp whole
              exact ⟨congrArg (byte :: ·) joined, List.forall_mem_cons.mpr ⟨.more high first, rest⟩⟩
  · rintro ⟨rfl, whole⟩
    simpa [split?] using split?_flatten_append whole []

theorem split?_flatMap_encode (numbers : List Nat) :
    split? (numbers.flatMap encode) = some (numbers.map encode) := by
  apply split?_eq_some_iff.mpr
  refine ⟨List.flatMap_def.symm, ?_⟩
  intro groups member
  obtain ⟨number, _, rfl⟩ := List.mem_map.mp member
  exact numeral_encode number

/-- Where the last byte announces another one, the last number breaks off. -/
theorem split?_append_of_high (bytes : List UInt8) {last : UInt8} (high : ¬last < 128) :
    split? (bytes ++ [last]) = none := by
  induction bytes with
  | nil =>
      rw [List.nil_append, split?_cons]
      exact if_neg high
  | cons byte bytes induction =>
      rw [List.cons_append, split?_cons, induction]
      rfl

theorem value_cons (group : UInt8) (groups : List UInt8) :
    value (group :: groups) = group.toNat % 128 + 128 * value groups := rfl

/-- Only a zero byte at its end can make a number zero. -/
theorem Numeral.value_pos {groups : List UInt8} (numeral : Numeral groups) (free : 0 ∉ groups) :
    0 < value groups := by
  induction numeral with
  | @last group low =>
      have below : group.toNat < 128 := UInt8.lt_iff_toNat_lt.mp low
      have nonzero : group.toNat ≠ 0 := by
        intro zero
        exact free (List.mem_singleton.mpr (UInt8.toNat_inj.mp zero.symm))
      rw [value_cons]
      omega
  | @more group groups high rest induction =>
      have positive := induction fun member => free (List.mem_cons_of_mem group member)
      rw [value_cons]
      omega

/-- Without a zero byte, a number is written as its value is encoded. -/
theorem Numeral.encode_value {groups : List UInt8} (numeral : Numeral groups) (free : 0 ∉ groups) :
    encode (value groups) = groups := by
  induction numeral with
  | @last group low =>
      have below : group.toNat < 128 := UInt8.lt_iff_toNat_lt.mp low
      have same : value [group] = group.toNat := Nat.mod_eq_of_lt below
      rw [same, encode, if_pos below, UInt8.ofNat_toNat]
  | @more group groups high rest induction =>
      have restFree : 0 ∉ groups := fun member => free (List.mem_cons_of_mem group member)
      have positive := rest.value_pos restFree
      have above : 128 ≤ group.toNat :=
        Nat.le_of_not_lt fun low => high (UInt8.lt_iff_toNat_lt.mpr low)
      have bounded := group.toNat_lt
      have large : ¬value (group :: groups) < 128 := by
        rw [value_cons]
        omega
      have first : value (group :: groups) % 128 + 128 = group.toNat := by
        rw [value_cons]
        omega
      have others : value (group :: groups) / 128 = value groups := by
        rw [value_cons]
        omega
      rw [encode, if_neg large, first, others, induction restFree, UInt8.ofNat_toNat]

end ClauseExchange.Base128
