import ClauseExchange.Spool

/-!
A spool laid out in a row of cells. Its bytes fill the front of the row, oldest first, and the cells
behind them keep whatever was in them before. Taking out records moves the incomplete line to the front
of the row, over the cells of the records and perhaps over some of its own.
-/

namespace ClauseExchange.Spool

structure Row where
  cells : Array UInt8
  used : Nat
  used_le : used ≤ cells.size

namespace Row

def blank (capacity : Nat) : Row where
  cells := Array.replicate (max capacity 1) 0
  used := 0
  used_le := Nat.zero_le _

def contents (row : Row) : Bytes :=
  (row.cells.extract 0 row.used).toList

def push? (row : Row) (byte : UInt8) : Option Row :=
  if room : row.used < row.cells.size then
    some {
      cells := row.cells.set row.used byte room
      used := row.used + 1
      used_le := by rwa [Array.size_set] }
  else
    none

/-- The number of cells up to and including the last separator, found from behind. -/
def completeLength (row : Row) (separator : UInt8) : Nat :=
  row.used - row.contents.reverse.idxOf separator

theorem completeLength_le (row : Row) (separator : UInt8) :
    row.completeLength separator ≤ row.used :=
  Nat.sub_le _ _

def records (row : Row) (separator : UInt8) : List Bytes :=
  ((row.cells.extract 0 (row.completeLength separator)).toList.splitOn separator).dropLast

/-- Only the front of the row is written over. -/
def dropRecords (row : Row) (separator : UInt8) : Row where
  cells :=
    row.cells.extract (row.completeLength separator) row.used ++
      row.cells.extract (row.used - row.completeLength separator)
  used := row.used - row.completeLength separator
  used_le := by
    have bounded := row.used_le
    rw [Array.size_append, Array.size_extract]
    omega

/-- The new cells are blank. -/
def double (row : Row) : Row where
  cells := row.cells ++ Array.replicate row.cells.size 0
  used := row.used
  used_le := by
    have bounded := row.used_le
    rw [Array.size_append]
    omega

end Row

end ClauseExchange.Spool
