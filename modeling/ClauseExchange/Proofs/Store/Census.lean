import ClauseExchange.Proofs.Store.Deposit
import Mathlib.Data.List.Nodup
import Mathlib.Data.List.Perm.Basic
import Mathlib.Data.List.ReduceOption

/-!
What the observers of a store say of values that are numbered from zero without a gap: their sequence is
all of them, and their count is their number.
-/

namespace ClauseExchange

theorem Key.isPrefixOf_numbered (stem : String) (number : Nat) :
    (lead stem).toList.isPrefixOf (numbered stem number).toList = true := by
  rw [List.isPrefixOf_iff_prefix, numbered, String.toList_append]
  exact List.prefix_append _ _

namespace Store

variable {store : Store} {stem : String}

theorem mem_keys_values {key : String} :
    key ∈ store.values.keys ↔ (store.value? key).isSome = true := by
  rw [Std.TreeMap.mem_keys, Std.TreeMap.mem_iff_isSome_getElem?]
  rfl

theorem nodup_keys_values (store : Store) : store.values.keys.Nodup :=
  Std.TreeMap.distinct_keys.imp fun different same => different (Std.compare_eq_iff_eq.mpr same)

/-- As many values are counted as there are numbers in use. -/
theorem count_eq_of_numbered {used : List Nat} (distinct : used.Nodup)
    (only : ∀ key, (Key.lead stem).toList.isPrefixOf key.toList = true →
      ((store.value? key).isSome = true ↔ ∃ number ∈ used, Key.numbered stem number = key)) :
    store.count stem = used.length := by
  have same : ∀ key, key ∈ used.map (Key.numbered stem) ↔
      key ∈ store.values.keys.filter fun key =>
        (Key.lead stem).toList.isPrefixOf key.toList := by
    intro key
    rw [List.mem_map, List.mem_filter, mem_keys_values]
    constructor
    · rintro ⟨number, member, rfl⟩
      have led := Key.isPrefixOf_numbered stem number
      exact ⟨(only _ led).mpr ⟨number, member, rfl⟩, led⟩
    · rintro ⟨held, led⟩
      exact (only key led).mp held
  have keys := distinct.map (Key.numbered_injective stem)
  have counted := store.nodup_keys_values.filter fun key =>
    (Key.lead stem).toList.isPrefixOf key.toList
  rw [count, List.countP_eq_length_filter,
    ← ((List.perm_ext_iff_of_nodup keys counted).mpr same).length_eq, List.length_map]

theorem value?_eq_none_of_count (unused : store.count stem = 0) {key : String}
    (led : (Key.lead stem).toList.isPrefixOf key.toList = true) : store.value? key = none := by
  rw [count, List.countP_eq_zero] at unused
  by_contra held
  exact unused key (mem_keys_values.mpr (Option.isSome_iff_ne_none.mpr held)) led

theorem length_le_size {records : List Bytes}
    (held : ∀ number < records.length,
      store.value? (Key.numbered stem number) = records[number]?) :
    records.length ≤ store.values.size := by
  have subset : (List.range records.length).map (Key.numbered stem) ⊆ store.values.keys := by
    intro key member
    obtain ⟨number, inside, rfl⟩ := List.mem_map.mp member
    rw [List.mem_range] at inside
    rw [mem_keys_values, held number inside, List.getElem?_eq_getElem inside]
    rfl
  have distinct := (List.nodup_range (n := records.length)).map (Key.numbered_injective stem)
  have most := distinct.length_le_of_subset subset
  rwa [List.length_map, List.length_range, Std.TreeMap.length_keys] at most

/-- The entries in front of the first gap are those of the whole row, and at the gap there is none. -/
theorem getElem?_front {α : Type} (row : List (Option α)) {number : Nat}
    (within : number ≤ (row.takeWhile Option.isSome).reduceOption.length) :
    (row.takeWhile Option.isSome).reduceOption[number]? = row[number]?.join := by
  induction row generalizing number with
  | nil => rfl
  | cons entry row induction =>
      cases entry with
      | none =>
          obtain rfl : number = 0 := by simpa using within
          rfl
      | some entry =>
          cases number with
          | zero => rfl
          | succ number =>
              have inside : number ≤ (row.takeWhile Option.isSome).reduceOption.length := by
                simpa using within
              simpa using induction inside

theorem length_sequence_le (store : Store) (stem : String) :
    (store.sequence stem).length ≤ store.values.size := by
  have front := (List.takeWhile_prefix Option.isSome
    (l := (List.range store.values.size).map fun number =>
      store.value? (Key.numbered stem number))).length_le
  rw [List.length_map, List.length_range] at front
  exact Nat.le_trans (List.reduceOption_length_le _) front

/-- Up to its length, a sequence says which values there are, and at its length that there is none. -/
theorem getElem?_sequence {number : Nat} (within : number ≤ (store.sequence stem).length) :
    (store.sequence stem)[number]? = store.value? (Key.numbered stem number) := by
  have seen : ∀ index ≤ (store.sequence stem).length, index < store.values.size →
      (store.sequence stem)[index]? = store.value? (Key.numbered stem index) := by
    intro index inside numbered
    refine (getElem?_front _ inside).trans ?_
    simp [numbered]
  rcases Nat.lt_or_ge number store.values.size with numbered | beyond
  · exact seen number within numbered
  · -- All the values there are come in a row already, so there is no further one.
    have whole : (store.sequence stem).length = store.values.size :=
      Nat.le_antisymm (store.length_sequence_le stem) (Nat.le_trans beyond within)
    obtain rfl : number = (store.sequence stem).length :=
      Nat.le_antisymm within (whole ▸ beyond)
    rw [List.getElem?_eq_none (Nat.le_refl _)]
    cases further : store.value? (Key.numbered stem (store.sequence stem).length) with
    | none => rfl
    | some value =>
        have held : ∀ index < (store.sequence stem ++ [value]).length,
            store.value? (Key.numbered stem index) =
              (store.sequence stem ++ [value])[index]? := by
          intro index inside
          grind
        have most := length_le_size held
        rw [List.length_append, whole] at most
        exact absurd most (Nat.not_succ_le_self _)

theorem sequence_eq {records : List Bytes}
    (held : ∀ number, store.value? (Key.numbered stem number) = records[number]?) :
    store.sequence stem = records := by
  have same : ∀ number ≤ (store.sequence stem).length,
      (store.sequence stem)[number]? = records[number]? :=
    fun number within => (getElem?_sequence within).trans (held number)
  have short : records.length ≤ (store.sequence stem).length := by
    rw [← List.getElem?_eq_none_iff, ← same _ (Nat.le_refl _)]
    exact List.getElem?_eq_none (Nat.le_refl _)
  apply List.ext_getElem?
  intro number
  rcases Nat.le_total number (store.sequence stem).length with within | beyond
  · exact same number within
  · rw [List.getElem?_eq_none beyond, List.getElem?_eq_none (Nat.le_trans short beyond)]

namespace Receives

variable {records : List Bytes} {before after : Store}

theorem value?_eq (received : Receives 0 records before after)
    (unused : before.count Key.outgoingStem = 0) (number : Nat) :
    after.value? (Key.outgoing number) = records[number]? := by
  cases held : records[number]? with
  | some record =>
      have here := received.value? held
      rwa [Nat.zero_add] at here
  | none =>
      have beyond := List.getElem?_eq_none_iff.mp held
      rw [received.value?_of_ne]
      · exact value?_eq_none_of_count unused (Key.isPrefixOf_numbered _ number)
      · intro index inside same
        have numbers := Key.outgoing_injective same
        omega

theorem sequence_eq (received : Receives 0 records before after)
    (unused : before.count Key.outgoingStem = 0) :
    after.sequence Key.outgoingStem = records :=
  Store.sequence_eq (received.value?_eq unused)

theorem count_eq (received : Receives 0 records before after)
    (unused : before.count Key.outgoingStem = 0) :
    after.count Key.outgoingStem = records.length := by
  rw [count_eq_of_numbered List.nodup_range, List.length_range]
  intro key led
  constructor
  · intro present
    by_contra absent
    rw [received.value?_of_ne, value?_eq_none_of_count unused led] at present
    · cases present
    · intro index inside same
      rw [Nat.zero_add] at same
      exact absent ⟨index, List.mem_range.mpr inside, same⟩
  · rintro ⟨number, inside, rfl⟩
    change (after.value? (Key.outgoing number)).isSome = true
    rw [received.value?_eq unused, List.getElem?_eq_getElem (List.mem_range.mp inside)]
    rfl

end Receives

end Store

end ClauseExchange
