import ClauseExchange.Error
import ClauseExchange.Settings.Readable
import ClauseExchange.Text.Blank

/-!
An option admits the values between two bounds. Its value is read from a text without the white space
around it.
-/

namespace ClauseExchange

structure Bounds (α : Type) where
  name : String
  least : α
  greatest : α

namespace Bounds

variable {α : Type} [LT α] [DecidableLT α]

def accept (bounds : Bounds α) (value : α) : Except SettingError α :=
  if value < bounds.least ∨ bounds.greatest < value then
    .error (.outOfBounds bounds.name)
  else
    .ok value

def read [Readable α] (bounds : Bounds α) (text : String) : Except SettingError α :=
  match Readable.read? (Text.trim text) with
  | some value => bounds.accept value
  | none => .error (.invalidValue bounds.name text)

/-- Reads a switch, which can be written as a digit too. -/
def readSwitch (bounds : Bounds Bool) (text : String) : Except SettingError Bool :=
  match Text.trim text with
  | "1" => bounds.accept true
  | "0" => bounds.accept false
  | other => bounds.read other

end Bounds

end ClauseExchange
