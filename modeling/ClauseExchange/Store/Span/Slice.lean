import ClauseExchange.Store.Span

/-!
Spans reckoned in machine words: positions are signed words, and lengths are unsigned ones. What comes
out is a slice, the part of a list between two bounds. A sum that is no word breaks the reckoning off,
and the sum that leads to the upper bound stays at the largest word instead.
-/

namespace ClauseExchange.Span

/-- The positions from a first one up to, and without, another one. -/
structure Slice where
  start : UInt64
  stop : UInt64
deriving DecidableEq

namespace Slice

def empty : Slice := ⟨0, 0⟩

/-- The bounds are in order, and a list of that length reaches up to them. -/
def IsWithin (slice : Slice) (length : Nat) : Prop :=
  slice.start ≤ slice.stop ∧ slice.stop.toNat ≤ length

def of {α : Type} (slice : Slice) (list : List α) : List α :=
  list.extract slice.start.toNat slice.stop.toNat

end Slice

/-- The sum of two words, unless it is no word. -/
def add? (first second : Int64) : Option Int64 :=
  let sum := first.toInt + second.toInt
  if Int64.minValue.toInt ≤ sum ∧ sum ≤ Int64.maxValue.toInt then some (.ofInt sum) else none

def fromFront? (length : UInt64) (position : Int64) : Option Int64 :=
  if position < 0 then add? length.toInt64 position else some position

def largest : UInt64 := 0xFFFFFFFFFFFFFFFF

def increment (position : UInt64) : UInt64 :=
  if position = largest then position else position + 1

/-- The slice between two positions from the front, both of which belong to it. -/
def slice (length : UInt64) (first last : Int64) : Slice :=
  if last < 0 then
    .empty
  else
    let start := (max first 0).toUInt64
    let stop := min (increment last.toUInt64) length
    if start < stop then ⟨start, stop⟩ else .empty

def slice? (length : UInt64) (first last : Int64) : Option Slice :=
  match fromFront? length first, fromFront? length last with
  | some first, some last => some (slice length first last)
  | _, _ => none

end ClauseExchange.Span
