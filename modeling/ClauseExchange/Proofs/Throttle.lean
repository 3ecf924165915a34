import ClauseExchange.Throttle
import Mathlib.Algebra.Order.Ring.Nat

/-!
When a throttle admits a request. Requests are admitted at equal distances, one more than the limit
apart, for as long as requests come. The largest word is the one limit that no count of requests
passes, and a throttle with that limit admits none.
-/

namespace ClauseExchange.Throttle

variable {throttle : Throttle} {limit : UInt32} {count : Nat}

def largest : UInt32 := 0xFFFFFFFF

def fresh (limit : UInt32) : Throttle := { limit }

/-- Requests made one after another, with the answer to each. -/
def requests (throttle : Throttle) : Nat → List (Option UInt32) × Throttle
  | 0 => ([], throttle)
  | count + 1 =>
      let (answers, before) := throttle.requests count
      let (answer, after) := before.request
      (answers ++ [answer], after)

/-- The answer to a request by its number, the first request having the number one. -/
def answerTo (limit : UInt32) (number : Nat) : Option UInt32 :=
  if limit < largest ∧ limit.toNat + 1 ∣ number then some (limit + 1) else none

/-- What a throttle with a limit has counted after so many requests. -/
def counted (limit : UInt32) (count : Nat) : Nat :=
  if limit < largest then count % (limit.toNat + 1) else min count largest.toNat

theorem toNat_le_largest (word : UInt32) : word.toNat ≤ largest.toNat :=
  Nat.le_of_lt_succ word.toNat_lt

theorem toNat_increment (count : UInt32) :
    (increment count).toNat = min (count.toNat + 1) largest.toNat := by
  have bounded := toNat_le_largest count
  unfold increment
  split
  case isTrue full =>
      subst full
      rfl
  case isFalse room =>
      have below : count.toNat ≠ largest.toNat := mt UInt32.toNat_inj.mp room
      have size : largest.toNat + 1 = 2 ^ 32 := rfl
      rw [UInt32.toNat_add, UInt32.toNat_one]
      omega

/-! What one request does. -/

theorem request_of_lt (within : throttle.waiting < throttle.limit) :
    throttle.request = (none, { throttle with waiting := increment throttle.waiting }) := by
  have next := toNat_increment throttle.waiting
  have declined : ¬throttle.limit < increment throttle.waiting := by
    rw [UInt32.lt_iff_toNat_lt] at within ⊢
    omega
  simp [request, declined]

theorem request_of_eq (reached : throttle.waiting = throttle.limit)
    (below : throttle.limit < largest) :
    throttle.request = (some (throttle.limit + 1), { throttle with waiting := 0 }) := by
  have next : increment throttle.waiting = throttle.limit + 1 := by
    rw [reached]
    exact if_neg (UInt32.ne_of_lt below)
  have counts := toNat_increment throttle.waiting
  have admitted : throttle.limit < throttle.limit + 1 := by
    rw [UInt32.lt_iff_toNat_lt] at below ⊢
    rw [← next, counts, reached]
    omega
  simp [request, next, admitted]

theorem request_of_largest (unpassed : throttle.limit = largest) :
    throttle.request = (none, { throttle with waiting := increment throttle.waiting }) := by
  have declined : ¬throttle.limit < increment throttle.waiting := by
    rw [UInt32.lt_iff_toNat_lt, unpassed]
    exact Nat.not_lt_of_le (toNat_le_largest _)
  simp [request, declined]

/-! What the requests of a run come to. -/

theorem mod_succ_cases (limit count : Nat) :
    count % (limit + 1) < limit ∧ (count + 1) % (limit + 1) = count % (limit + 1) + 1 ∨
      count % (limit + 1) = limit ∧ (count + 1) % (limit + 1) = 0 := by
  have bounded := Nat.mod_lt count (Nat.succ_pos limit)
  rcases Nat.lt_or_eq_of_le (Nat.le_of_lt_succ bounded) with within | reached
  · left
    rw [← Nat.mod_add_mod, Nat.mod_eq_of_lt (Nat.succ_lt_succ within)]
    exact ⟨within, rfl⟩
  · exact Or.inr ⟨reached, Nat.succ_mod_succ_eq_zero_iff.mpr reached⟩

/-- How far a throttle with a limit is after so many requests. -/
structure Follows (limit : UInt32) (count : Nat) (throttle : Throttle) : Prop where
  keepsLimit : throttle.limit = limit
  waiting : throttle.waiting.toNat = counted limit count

theorem follows_fresh (limit : UInt32) : Follows limit 0 (fresh limit) where
  keepsLimit := rfl
  waiting := by simp [fresh, counted]

theorem Follows.request (follows : Follows limit count throttle) :
    throttle.request.1 = answerTo limit (count + 1) ∧
      Follows limit (count + 1) throttle.request.2 := by
  obtain ⟨rfl, waiting⟩ := follows
  have next := toNat_increment throttle.waiting
  by_cases below : throttle.limit < largest
  · rw [counted, if_pos below] at waiting
    rcases mod_succ_cases throttle.limit.toNat count with ⟨within, phase⟩ | ⟨reached, phase⟩
    · rw [← waiting] at within
      have bounded := toNat_le_largest throttle.limit
      rw [request_of_lt (UInt32.lt_iff_toNat_lt.mpr within)]
      refine ⟨?_, rfl, ?_⟩
      · simp [answerTo, Nat.dvd_iff_mod_eq_zero, phase]
      · rw [counted, if_pos below, phase, ← waiting, next]
        omega
    · rw [request_of_eq (UInt32.toNat_inj.mp (waiting.trans reached)) below]
      refine ⟨?_, rfl, ?_⟩
      · simp [answerTo, below, Nat.dvd_iff_mod_eq_zero, phase]
      · simp [counted, below, phase]
  · have full : throttle.limit = largest :=
      UInt32.le_antisymm (UInt32.le_iff_toNat_le.mpr (toNat_le_largest _)) (UInt32.not_lt.mp below)
    rw [counted, if_neg below] at waiting
    rw [request_of_largest full]
    refine ⟨?_, rfl, ?_⟩
    · simp [answerTo, below]
    · rw [counted, if_neg below, next, waiting]
      omega

/-- Of the requests to a fresh throttle, those are admitted whose number is a multiple of one more than
the limit. Where the limit is the largest word, none is. -/
theorem requests_periodic (limit : UInt32) (count : Nat) :
    ((fresh limit).requests count).1 = (List.range' 1 count).map (answerTo limit) ∧
      Follows limit count ((fresh limit).requests count).2 ∧
      (limit < largest ∨ ((fresh limit).requests count).1 = List.replicate count none) := by
  have run : ((fresh limit).requests count).1 = (List.range' 1 count).map (answerTo limit) ∧
      Follows limit count ((fresh limit).requests count).2 := by
    induction count with
    | zero => exact ⟨rfl, follows_fresh limit⟩
    | succ count induction =>
        obtain ⟨answers, follows⟩ := induction
        obtain ⟨answer, goesOn⟩ := follows.request
        refine ⟨?_, goesOn⟩
        rw [requests, List.range'_1_concat, List.map_append, ← answers, Nat.add_comm 1]
        simp [answer]
  refine ⟨run.1, run.2, ?_⟩
  by_cases below : limit < largest
  · exact Or.inl below
  · right
    have never : answerTo limit = fun _ => none := by
      funext number
      simp [answerTo, below]
    rw [run.1, never, List.map_const', List.length_range']

example : ((fresh 2).requests 7).1 =
    [none, none, some 3, none, none, some 3, none] := by decide

end ClauseExchange.Throttle
