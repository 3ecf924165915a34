import ClauseExchange.Literal

/-!
A proof is a sequence of lines, each of which adds or deletes one clause. A proof is written in one of
two encodings, and each encoding ends a line with a separator that occurs nowhere else in the line.
-/

namespace ClauseExchange

abbrev Bytes := List UInt8

inductive Action where
  | add
  | delete
deriving DecidableEq

namespace Action

/-- The byte that a line begins with: `a` for an addition, `d` for a deletion. -/
def byte : Action → UInt8
  | .add => 97
  | .delete => 100

def ofByte? (byte : UInt8) : Option Action :=
  if byte = Action.add.byte then some .add
  else if byte = Action.delete.byte then some .delete
  else none

def name : Action → String
  | .add => "Add"
  | .delete => "Delete"

end Action

inductive Encoding where
  | binary
  | text
deriving DecidableEq

namespace Encoding

def ofBinary (binary : Bool) : Encoding :=
  if binary then .binary else .text

/-- A zero byte ends a binary line, a line feed a textual one. -/
def separator : Encoding → UInt8
  | .binary => 0
  | .text => 10

def name : Encoding → String
  | .binary => "binary"
  | .text => "non-binary"

end Encoding

structure Line where
  action : Action
  literals : List Literal
deriving DecidableEq

end ClauseExchange
