import ClauseExchange.Error
import ClauseExchange.Fault

/-!
An optional watch over the additions of a proof: the empty clause may be added once, the units added
are marked in a table by their index, and the solver's own literals of the line being assembled are
kept for the journal.
-/

namespace ClauseExchange

/-- A table of flags, one for each index below its size; the marked indices are listed. -/
structure UnitTable where
  size : Nat := 0
  marked : List Nat := []

namespace UnitTable

/-- Doubles a size, which starts at two, until the index lies below it. -/
def sizeFor (index size : Nat) : Nat :=
  if size = 0 then sizeFor index 2
  else if size ≤ index then sizeFor index (2 * size)
  else size
termination_by (if size = 0 then index + 3 else index + 1 - size)
decreasing_by all_goals grind

def reserve (table : UnitTable) (index : Nat) : UnitTable :=
  if table.size ≤ index then { table with size := sizeFor index table.size } else table

def mark? (table : UnitTable) (index : Nat) : Option UnitTable :=
  if index < table.size then some { table with marked := index :: table.marked } else none

def isMarked (table : UnitTable) (index : Nat) : Bool :=
  decide (index < table.size) && table.marked.contains index

end UnitTable

structure Audit where
  emptyAdded : Bool := false
  units : UnitTable := {}
  /-- The solver's literals of the line being assembled, if it was given by them. -/
  sources : List UInt32 := []

namespace Audit

/-- Notes the addition of a clause. Clauses of two literals or more leave no mark. -/
def note (words : List Int32) (audit : Audit) : Except Fault (Except TraceError Audit) :=
  match words with
  | [] =>
      if audit.emptyAdded then
        .ok (.error .emptyClauseAgain)
      else
        .ok (.ok { audit with emptyAdded := true })
  | [word] =>
      match Literal.ofWord? word with
      | none => .ok (.error (.invalidLiteral word))
      | some literal =>
          match (audit.units.reserve literal.index).mark? literal.index with
          | none => .error .unitOutsideTable
          | some units => .ok (.ok { audit with units })
  | _ => .ok (.ok audit)

def hasUnit (audit : Audit) (word : Int32) : Bool :=
  match Literal.ofWord? word with
  | none => false
  | some literal => audit.units.isMarked literal.index

end Audit

end ClauseExchange
