import ClauseExchange.Store
import ClauseExchange.Store.Span.Slice
import Mathlib.Data.List.Induction

/-!
What a span of a list takes in: the elements at the positions from its first to its last one, counted
from the front, and no others. Reckoned in machine words it is the same, for a list whose length is a
signed word: no sum leaves the words, and the bounds are bounds of the list.
-/

namespace ClauseExchange

namespace Span

variable {α : Type} {length : UInt64} {first last : Int64}

/-- Whether a position of a list lies between two that may be counted from its end. -/
def Covers (length : Nat) (first last : Int) (position : Nat) : Prop :=
  fromFront length first ≤ position ∧ position ≤ fromFront length last

instance (length : Nat) (first last : Int) (position : Nat) :
    Decidable (Covers length first last position) :=
  inferInstanceAs (Decidable (_ ∧ _))

def covered (list : List α) (first last : Int) : List α :=
  (list.zipIdx.filter fun entry => Covers list.length first last entry.2).map Prod.fst

theorem extract_eq_filter (list : List α) (start stop : Nat) :
    list.extract start stop =
      (list.zipIdx.filter fun entry => start ≤ entry.2 ∧ entry.2 < stop).map Prod.fst := by
  induction list using List.reverseRecOn with
  | nil => simp
  | append_singleton list element induction =>
      rw [List.zipIdx_append, List.filter_append, List.map_append, ← induction,
        List.extract_eq_take_drop, List.extract_eq_take_drop, List.drop_append, List.take_append,
        List.length_drop]
      congr 1
      -- The element at the end is left where the span begins before it and reaches up to it.
      by_cases inside : start ≤ list.length ∧ list.length < stop
      · have front : start - list.length = 0 := by omega
        obtain ⟨rest, room⟩ : ∃ rest, stop - start - (list.length - start) = rest + 1 :=
          ⟨stop - list.length - 1, by omega⟩
        simp [inside, front, room]
      · simp [inside]
        omega

/-- Two bounds take out what is covered, if they hold the covered positions of the list. -/
theorem extract_eq_covered {list : List α} {start stop : Nat} {first last : Int}
    (bounds : ∀ position < list.length,
      start ≤ position ∧ position < stop ↔ Covers list.length first last position) :
    list.extract start stop = covered list first last := by
  rw [extract_eq_filter, covered]
  congr 1
  apply List.filter_congr
  intro entry member
  have inside := List.snd_lt_of_mem_zipIdx member
  rw [Nat.add_zero] at inside
  exact decide_eq_decide.mpr (bounds entry.2 inside)

theorem covers_iff {length position : Nat} (inside : position < length) (first last : Int) :
    start length first ≤ position ∧ position < stop length last ↔
      Covers length first last position := by
  unfold start stop Covers
  omega

theorem extract_span (list : List α) (first last : Int) :
    list.extract (start list.length first) (stop list.length last) = covered list first last :=
  extract_eq_covered fun _ inside => covers_iff inside first last

/-! Spans in machine words. -/

/-- The length of a list in memory, which is a signed word. -/
def Fits (length : Nat) : Prop :=
  length ≤ Int64.maxValue.toInt

theorem toInt_toInt64 (fits : Fits length.toNat) : length.toInt64.toInt = length.toNat := by
  have greatest : Int64.maxValue.toInt = 9223372036854775807 := rfl
  unfold Fits at fits
  change length.toBitVec.toInt = length.toBitVec.toNat
  apply BitVec.toInt_eq_toNat_of_lt
  change 2 * length.toNat < _
  omega

theorem fromFront?_eq (fits : Fits length.toNat) (position : Int64) :
    ∃ front, fromFront? length position = some front ∧
      front.toInt = fromFront length.toNat position.toInt := by
  have least : Int64.minValue.toInt = -9223372036854775808 := rfl
  have greatest : Int64.maxValue.toInt = 9223372036854775807 := rfl
  have low := Int64.le_toInt position
  have size := toInt_toInt64 fits
  have negative : position < 0 ↔ position.toInt < 0 := Int64.lt_iff_toInt_lt
  unfold Fits at fits
  unfold fromFront? fromFront add?
  by_cases behind : position.toInt < 0
  · rw [if_pos (negative.mpr behind), if_pos behind, size, if_pos (by omega)]
    exact ⟨_, rfl, Int64.toInt_ofInt_of_le (by omega) (by omega)⟩
  · rw [if_neg (mt negative.mp behind), if_neg behind]
    exact ⟨_, rfl, rfl⟩

theorem toInt_max (first second : Int64) :
    (max first second).toInt = max first.toInt second.toInt := by
  change (if first ≤ second then second else first).toInt = _
  rw [Int.max_def, apply_ite Int64.toInt]
  simp only [Int64.le_iff_toInt_le]

theorem toNat_toUInt64 {position : Int64} (front : 0 ≤ position.toInt) :
    position.toUInt64.toNat = position.toInt.toNat := by
  have nonnegative : 0 ≤ position := Int64.le_iff_toInt_le.mpr front
  rw [Int64.toNat_toUInt64_of_le nonnegative]
  rfl

/-- A signed word lies far below the largest unsigned one. -/
theorem toUInt64_ne_largest {position : Int64} (front : 0 ≤ position.toInt) :
    position.toUInt64 ≠ largest := by
  have value := toNat_toUInt64 front
  have bounded := Int64.toInt_lt position
  intro same
  rw [same] at value
  have size : largest.toNat = 18446744073709551615 := rfl
  omega

theorem toNat_increment {position : Int64} (front : 0 ≤ position.toInt) :
    (increment position.toUInt64).toNat = position.toInt.toNat + 1 := by
  have value := toNat_toUInt64 front
  have bounded := Int64.toInt_lt position
  rw [increment, if_neg (toUInt64_ne_largest front), UInt64.toNat_add, UInt64.toNat_one, value]
  omega

/-- The bounds of a slice hold the positions of the list from the first one to the last. -/
structure Encloses (length : Nat) (first last : Int) (slice : Slice) : Prop where
  within : slice.IsWithin length
  bounds : ∀ position < length,
    slice.start.toNat ≤ position ∧ position < slice.stop.toNat ↔ first ≤ position ∧ position ≤ last

theorem encloses_empty {length : Nat} {first last : Int}
    (none : ∀ position < length, ¬(first ≤ position ∧ (position : Int) ≤ last)) :
    Encloses length first last .empty where
  within := ⟨UInt64.le_refl _, Nat.zero_le _⟩
  bounds := by
    intro position inside
    simp [Slice.empty, none position inside]

theorem encloses_slice (length : UInt64) (first last : Int64) :
    Encloses length.toNat first.toInt last.toInt (slice length first last) := by
  have behind : last < 0 ↔ last.toInt < 0 := Int64.lt_iff_toInt_lt
  unfold slice
  by_cases negative : last.toInt < 0
  · rw [if_pos (behind.mpr negative)]
    exact encloses_empty fun position _ covered => by omega
  · rw [if_neg (mt behind.mp negative)]
    have start : (max first 0).toUInt64.toNat = first.toInt.toNat := by
      have front : (max first 0).toInt = max first.toInt 0 := toInt_max first 0
      rw [toNat_toUInt64 (by omega), front]
      omega
    have stop : (min (increment last.toUInt64) length).toNat =
        min (last.toInt.toNat + 1) length.toNat := by
      rw [UInt64.toNat_min, toNat_increment (Int.not_lt.mp negative)]
    dsimp only
    split
    case isTrue ordered =>
      refine ⟨⟨UInt64.le_of_lt ordered, by rw [stop]; exact Nat.min_le_right _ _⟩, ?_⟩
      intro position inside
      dsimp only
      rw [start, stop]
      omega
    case isFalse disordered =>
      rw [UInt64.lt_iff_toNat_lt, start, stop] at disordered
      exact encloses_empty fun position _ covered => by omega

/-- What a reckoning of a span in words comes to: no sum leaves the words, and the slice lies within the
list and holds what the span covers. -/
structure Resolves (length : Nat) (first last : Int64) (slice : Slice) : Prop where
  sums : slice? (.ofNat length) first last = some slice
  increment : ∀ front, fromFront? (.ofNat length) last = some front → 0 ≤ front →
    front.toUInt64 ≠ largest
  encloses : Encloses length (fromFront length first.toInt) (fromFront length last.toInt) slice

theorem exists_resolves {length : Nat} (fits : Fits length) (first last : Int64) :
    ∃ slice, Resolves length first last slice := by
  have greatest : Int64.maxValue.toInt = 9223372036854775807 := rfl
  have word : (UInt64.ofNat length).toNat = length := by
    apply UInt64.toNat_ofNat_of_lt'
    unfold Fits at fits
    rw [UInt64.size]
    omega
  rw [← word] at fits
  obtain ⟨firstFront, firstSum, firstValue⟩ := fromFront?_eq fits first
  obtain ⟨lastFront, lastSum, lastValue⟩ := fromFront?_eq fits last
  refine ⟨slice (.ofNat length) firstFront lastFront, ?_, ?_, ?_⟩
  · rw [slice?, firstSum, lastSum]
  · intro front sum nonnegative
    exact toUInt64_ne_largest (Int64.le_iff_toInt_le.mp nonnegative)
  · have encloses := encloses_slice (.ofNat length) firstFront lastFront
    rwa [firstValue, lastValue, word] at encloses

theorem Resolves.of_eq {list : List α} {first last : Int64} {slice : Slice}
    (resolves : Resolves list.length first last slice) :
    slice.of list = covered list first.toInt last.toInt :=
  extract_eq_covered resolves.encloses.bounds

end Span

namespace Store

variable {store : Store} {key : String}

theorem range_eq_covered (reachable : store.reachable = true) (listed : store.value? key = none)
    (first last : Int) :
    store.range key first last = .ok (Span.covered (store.list key).toList first last) := by
  rw [range, if_pos reachable, listed, ← Span.extract_span]
  simp

/-- A range over a key without a value has the elements that the span covers, in their order: those of
the slice that comes out of a reckoning in words. -/
theorem range_takes_span (reachable : store.reachable = true) (listed : store.value? key = none)
    (fits : Span.Fits (store.list key).size) (first last : Int64) :
    let list := (store.list key).toList
    store.range key first.toInt last.toInt = .ok (Span.covered list first.toInt last.toInt) ∧
      ∃ slice, Span.Resolves list.length first last slice ∧
        store.range key first.toInt last.toInt = .ok (slice.of list) := by
  intro list
  have ranged := range_eq_covered reachable listed first.toInt last.toInt
  rw [← Array.length_toList] at fits
  obtain ⟨slice, resolves⟩ := Span.exists_resolves fits first last
  exact ⟨ranged, slice, resolves, ranged.trans (congrArg Except.ok resolves.of_eq.symm)⟩

/-- The extreme positions lie far outside a list of two, one beyond either end. -/
theorem range_takes_span_extremes :
    let store := (({} : Store).append "list" [49]).append "list" [50]
    store.reachable = true ∧ store.value? "list" = none ∧ Span.Fits (store.list "list").size ∧
      store.range "list" Int64.minValue.toInt Int64.maxValue.toInt = .ok [[49], [50]] ∧
      Span.Resolves 2 Int64.minValue Int64.maxValue ⟨0, 2⟩ := by
  intro store
  have reachable : store.reachable = true := rfl
  have listed : store.value? "list" = none := by cbv
  have list : (store.list "list").toList = [[49], [50]] := by cbv
  have fits : Span.Fits (store.list "list").size := by
    rw [← Array.length_toList, list]
    change (2 : Int) ≤ Int64.maxValue.toInt
    decide
  obtain ⟨ranged, slice, resolves, _⟩ :=
    range_takes_span reachable listed fits Int64.minValue Int64.maxValue
  rw [list] at ranged resolves
  have same : slice = ⟨0, 2⟩ := Option.some.inj (resolves.sums.symm.trans (by decide))
  exact ⟨reachable, listed, fits, ranged, same ▸ resolves⟩

end Store

end ClauseExchange
