import ClauseExchange.Line

/-!
Bytes of a proof that wait to be sent. Bytes enter a spool one at a time while there is room. What
lies before the last separator splits into records, and what follows it is an incomplete line.
-/

namespace ClauseExchange

/-- The bytes of a spool are kept newest first. -/
structure Spool where
  newest : Bytes
  size : Nat
  capacity : Nat
  length_newest : newest.length = size
  size_le : size ≤ capacity
  capacity_pos : 0 < capacity

namespace Spool

/-- An empty spool has room for one byte at least. -/
def empty (capacity : Nat) : Spool where
  newest := []
  size := 0
  capacity := max capacity 1
  length_newest := rfl
  size_le := Nat.zero_le _
  capacity_pos := by omega

def contents (spool : Spool) : Bytes :=
  spool.newest.reverse

def isEmpty (spool : Spool) : Bool :=
  spool.size == 0

def isFull (spool : Spool) : Bool :=
  spool.size == spool.capacity

def push? (spool : Spool) (byte : UInt8) : Option Spool :=
  if room : spool.size < spool.capacity then
    some {
      newest := byte :: spool.newest
      size := spool.size + 1
      capacity := spool.capacity
      length_newest := by rw [List.length_cons, spool.length_newest]
      size_le := room
      capacity_pos := spool.capacity_pos }
  else
    none

/-- The number of bytes up to and including the last separator. -/
def completeLength (spool : Spool) (separator : UInt8) : Nat :=
  (spool.newest.dropWhile (· != separator)).length

/-- The pieces that a separator ends, without their separators. -/
def records (spool : Spool) (separator : UInt8) : List Bytes :=
  ((spool.newest.dropWhile (· != separator)).reverse.splitOn separator).dropLast

def dropRecords (spool : Spool) (separator : UInt8) : Spool where
  newest := spool.newest.takeWhile (· != separator)
  size := (spool.newest.takeWhile (· != separator)).length
  capacity := spool.capacity
  length_newest := rfl
  size_le := by
    have shorter := (List.takeWhile_sublist (l := spool.newest) (· != separator)).length_le
    have held := spool.length_newest
    have bounded := spool.size_le
    omega
  capacity_pos := spool.capacity_pos

def double (spool : Spool) : Spool where
  newest := spool.newest
  size := spool.size
  capacity := 2 * spool.capacity
  length_newest := spool.length_newest
  size_le := by
    have bounded := spool.size_le
    omega
  capacity_pos := by
    have positive := spool.capacity_pos
    omega

@[simp] theorem contents_empty (capacity : Nat) : (empty capacity).contents = [] := rfl

@[simp] theorem contents_double (spool : Spool) : spool.double.contents = spool.contents := rfl

@[simp] theorem length_contents (spool : Spool) : spool.contents.length = spool.size := by
  simp [contents, spool.length_newest]

theorem contents_of_push? {spool pushed : Spool} {byte : UInt8}
    (push : spool.push? byte = some pushed) :
    pushed.contents = spool.contents ++ [byte] := by
  unfold push? at push
  split at push
  · cases push
    simp [contents]
  · cases push

theorem push?_eq_none_iff {spool : Spool} {byte : UInt8} :
    spool.push? byte = none ↔ spool.isFull = true := by
  have bounded := spool.size_le
  unfold push? isFull
  split
  · simp
    omega
  · simp
    omega

end Spool

end ClauseExchange
