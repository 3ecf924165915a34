import ClauseExchange.Line
import ClauseExchange.Text.Utf8

/-!
What can go wrong in an exchange, by its causes, and the wording of each.
-/

namespace ClauseExchange

inductive SettingError where
  | unknownOption (name : String)
  | invalidValue (option value : String)
  | outOfBounds (option : String)

inductive IntakeError where
  | malformedRecord (number : Nat) (element : Bytes)
  | invalidLiteral (number : Nat) (value : Int)
  | stackNotEmpty

inductive TraceError where
  | invalidLiteral (word : Int32)
  | emptyClauseAgain
  | literalNotInClause
  | alreadyTracing
  | notTracing
deriving DecidableEq

inductive StoreError where
  | connectionRefused (host : String) (port : UInt16)
  | connectionLost
  | writeRefused
  | wrongType (key : String)
deriving DecidableEq

inductive Error where
  | setting (error : SettingError)
  | intake (error : IntakeError)
  | trace (error : TraceError)
  | store (error : StoreError)

def SettingError.message : SettingError → String
  | .unknownOption name => s!"unknown option '{name}'"
  | .invalidValue option value => s!"invalid value '{value}' for option '{option}'"
  | .outOfBounds option => s!"value out of bounds for option '{option}'"

def IntakeError.message : IntakeError → String
  | .malformedRecord number element =>
      let shown := Utf8.decodeLossy element
      s!"record {number} contains the non-integer element '{shown}'"
  | .invalidLiteral number value =>
      s!"record {number} contains the invalid literal {value}"
  | .stackNotEmpty => "the clause stack of the host is not empty"

def TraceError.message : TraceError → String
  | .invalidLiteral word => s!"invalid literal {word.toInt}"
  | .emptyClauseAgain => "the empty clause was added twice"
  | .literalNotInClause => "the literal to remove is not in the clause"
  | .alreadyTracing => "a proof is already being traced"
  | .notTracing => "no proof is being traced"

/-- Whether no connection came about, rather than a command failing on one. -/
def StoreError.isConnection : StoreError → Bool
  | .connectionRefused _ _ => true
  | _ => false

def StoreError.cause : StoreError → String
  | .connectionRefused host port => s!"Connection refused ({host}:{port})"
  | .connectionLost => "Connection lost"
  | .writeRefused => "Write refused"
  | .wrongType key => s!"WRONGTYPE {key} holds a value, not a list"

def StoreError.message (error : StoreError) : String :=
  if error.isConnection then
    s!"connection failed: {error.cause}"
  else
    s!"command failed: {error.cause}"

def Error.message : Error → String
  | .setting error => s!"config: {error.message}"
  | .intake error => s!"ingest: {error.message}"
  | .trace error => s!"proof: {error.message}"
  | .store error => s!"store: {error.message}"

end ClauseExchange
