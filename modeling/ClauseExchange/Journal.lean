import ClauseExchange.Error

/-!
What an exchange reports while it runs. A notice is kept as what it says; its level, its topic and its
wording follow from that.
-/

namespace ClauseExchange

inductive Level where
  | error
  | warn
  | info
  | debug
  | trace

def Level.name : Level → String
  | .error => "ERROR"
  | .warn => "WARN"
  | .info => "INFO"
  | .debug => "DEBUG"
  | .trace => "TRACE"

inductive Topic where
  | proof
  | store
  | ingest
  | backoff

def Topic.name : Topic → String
  | .proof => "proof"
  | .store => "store"
  | .ingest => "ingest"
  | .backoff => "backoff"

inductive Notice where
  | proofStarted (encoding : Encoding)
  | proofStopped
  | bytesDiscarded (count : Nat)
  | recordsDropped (count : Nat)
  | proofFlushed (records retained : Nat)
  | spoolDoubled (capacity : Nat)
  /-- The literals of a line, with the solver's own literals where they are known. -/
  | lineTraced (action : Action) (literals : List Literal) (sources : Option (List UInt32))
  | deletionGiven (words : List Int32)
  | storeUnavailable (host : String) (port : UInt16) (error : StoreError)
  | writeFailed (key : String) (error : StoreError)
  | readFailed (key : String) (error : StoreError)
  | recordRejected (error : IntakeError)
  | unitReceived (literals : List Literal)
  | clauseReceived (literals : List Literal)
  | recordsRead (count next : Nat)
  | pollAdmitted (requests : UInt32)

abbrev Journal := Array Notice

namespace Notice

def level : Notice → Level
  | .storeUnavailable .. | .writeFailed .. | .readFailed .. | .recordsDropped _ => .error
  | .bytesDiscarded _ | .spoolDoubled _ | .recordRejected _ => .warn
  | .proofStarted _ | .proofStopped => .info
  | .proofFlushed .. | .recordsRead .. => .debug
  | .lineTraced .. | .deletionGiven _ | .unitReceived _ | .clauseReceived _
  | .pollAdmitted _ => .trace

def topic : Notice → Topic
  | .storeUnavailable .. | .writeFailed .. | .readFailed .. => .store
  | .recordRejected _ | .unitReceived _ | .clauseReceived _ | .recordsRead .. => .ingest
  | .pollAdmitted _ => .backoff
  | _ => .proof

def bracketed (entries : List String) : String :=
  "[" ++ String.intercalate ", " entries ++ "]"

def showLiterals (literals : List Literal) : String :=
  bracketed (literals.map fun literal => toString literal.value)

def text : Notice → String
  | .proofStarted encoding => s!"Starting to trace {encoding.name} proof"
  | .proofStopped => "Stopping to trace proof"
  | .bytesDiscarded count => s!"Discarding {count} bytes of an incomplete line"
  | .recordsDropped count => s!"Dropped {count} proof records"
  | .proofFlushed records retained =>
      s!"Flushed {records} records, retained {retained} bytes"
  | .spoolDoubled capacity =>
      s!"Growing the proof buffer for a line of over {capacity} bytes"
  | .lineTraced action literals none =>
      s!"{action.name} line {showLiterals literals}"
  | .lineTraced action literals (some sources) =>
      let shown := bracketed (sources.map fun source => toString source.toNat)
      s!"{action.name} line {showLiterals literals} (internal {shown})"
  | .deletionGiven words =>
      let shown := bracketed (words.map fun word => toString word.toInt)
      s!"Explicitly deleted {shown}"
  | .storeUnavailable host port error => s!"{host}:{port} unavailable: {error.message}"
  | .writeFailed key error => s!"Failed to write {key}: {error.message}"
  | .readFailed key error => s!"Failed to read {key}: {error.message}"
  | .recordRejected error => s!"Rejected: {error.message}"
  | .unitReceived literals => s!"Unit {showLiterals literals}"
  | .clauseReceived literals => s!"Clause {showLiterals literals}"
  | .recordsRead count next => s!"Read {count} records, next is {next}"
  | .pollAdmitted requests => s!"Admitted after {requests} requests"

end Notice

end ClauseExchange
