import ClauseExchange.Audit
import ClauseExchange.Channel
import ClauseExchange.Line.Record
import ClauseExchange.Spool
import ClauseExchange.Tally

/-!
A tracer writes the lines of a proof to its spool, and a flush sends the complete lines in the spool as
records. A line goes into the spool byte by byte; a full spool is flushed first, and doubled if that
made no room, which happens only where a single line does not fit.
-/

namespace ClauseExchange

structure Tracer where
  encoding : Encoding
  flushEachLine : Bool
  spool : Spool
  draft : List Literal := []
  tally : Tally := {}
  audit : Option Audit

namespace Tracer

def defaultCapacity : Nat := 1 <<< 20

def start (encoding : Encoding) (settings : Settings) (capacity : Nat := defaultCapacity) :
    Tracer where
  encoding
  flushEachLine := settings.flushEachLine
  spool := Spool.empty capacity
  audit := if settings.audit then some {} else none

def clearDraft (tracer : Tracer) : Tracer :=
  { tracer with
    draft := []
    audit := tracer.audit.map fun audit => { audit with sources := [] } }

/-- Puts literals on the draft, with the solver's literals that they come from. -/
def setDraft (tracer : Tracer) (literals : List Literal) (sources : List UInt32) : Tracer :=
  { tracer with
    draft := literals
    audit := tracer.audit.map fun audit => { audit with sources } }

/-- The solver's literals of the draft, where they are kept and go with its literals. -/
def draftSources? (tracer : Tracer) : Option (List UInt32) :=
  tracer.audit.bind fun audit =>
    if audit.sources.length = tracer.draft.length ∧ tracer.draft ≠ [] then
      some audit.sources
    else
      none

/-- Lets the audit note the draft, if it is an addition and there is an audit. -/
def noteDraft (action : Action) (tracer : Tracer) : Except Fault (Except TraceError Tracer) :=
  match action, tracer.audit with
  | .add, some audit =>
      match audit.note (tracer.draft.map Literal.word) with
      | .error fault => .error fault
      | .ok (.error error) => .ok (.error error)
      | .ok (.ok audit) => .ok (.ok { tracer with audit := some audit })
  | _, _ => .ok (.ok tracer)

end Tracer

structure Tracing where
  tracer : Tracer
  channel : Channel

namespace Tracing

def note (tracing : Tracing) (notice : Notice) : Tracing :=
  { tracing with channel := tracing.channel.note notice }

def clearDraft (tracing : Tracing) : Tracing :=
  { tracing with tracer := tracing.tracer.clearDraft }

/-- Takes the records out of the spool and counts what became of them. -/
def settle (delivery : Delivery) (tracing : Tracing) : Tracing :=
  let tracer :=
    { tracing.tracer with
      spool := tracing.tracer.spool.dropRecords tracing.tracer.encoding.separator
      tally := tracing.tracer.tally.countDelivery delivery }
  let settled := { tracing with tracer }
  let warned :=
    if 0 < delivery.dropped then settled.note (.recordsDropped delivery.dropped) else settled
  warned.note (.proofFlushed delivery.written delivery.retained)

/-- Sends every complete line of the spool. Lines that the store does not take are lost. -/
def flush (tracing : Tracing) : Except Fault Delivery × Tracing :=
  if tracing.tracer.spool.isEmpty then
    (.ok {}, tracing)
  else
    let separator := tracing.tracer.encoding.separator
    let records := tracing.tracer.spool.records separator
    match tracing.channel.send records with
    | (.error fault, channel) => (.error fault, { tracing with channel })
    | (.ok written, channel) =>
        let delivery : Delivery :=
          { written
            dropped := records.length - written
            retained := (tracing.tracer.spool.dropRecords separator).size }
        (.ok delivery, { tracing with channel }.settle delivery)

def widen (tracing : Tracing) : Tracing :=
  if tracing.tracer.spool.isFull then
    let noted := tracing.note (.spoolDoubled tracing.tracer.spool.capacity)
    { noted with tracer := { noted.tracer with spool := noted.tracer.spool.double } }
  else
    tracing

def makeRoom (tracing : Tracing) : Except Fault Unit × Tracing :=
  if tracing.tracer.spool.isFull then
    match tracing.flush with
    | (.error fault, tracing) => (.error fault, tracing)
    | (.ok _, tracing) => (.ok (), tracing.widen)
  else
    (.ok (), tracing)

def put (byte : UInt8) (tracing : Tracing) : Except Fault Unit × Tracing :=
  match tracing.makeRoom with
  | (.error fault, tracing) => (.error fault, tracing)
  | (.ok (), tracing) =>
      match tracing.tracer.spool.push? byte with
      | none => (.error .spoolFull, tracing)
      | some spool => (.ok (), { tracing with tracer := { tracing.tracer with spool } })

def putAll : Bytes → Tracing → Except Fault Unit × Tracing
  | [], tracing => (.ok (), tracing)
  | byte :: bytes, tracing =>
      match tracing.put byte with
      | (.error fault, tracing) => (.error fault, tracing)
      | (.ok (), tracing) => tracing.putAll bytes

def closeLine (line : Line) (tracing : Tracing) : Tracing :=
  { tracing with
    tracer := { tracing.tracer with tally := tracing.tracer.tally.countLine line } }.clearDraft

def flushIfDue (tracing : Tracing) : Except Fault Unit × Tracing :=
  if tracing.tracer.flushEachLine then
    match tracing.flush with
    | (.error fault, tracing) => (.error fault, tracing)
    | (.ok _, tracing) => (.ok (), tracing)
  else
    (.ok (), tracing)

def writeDraft (action : Action) (tracing : Tracing) : Except Fault Unit × Tracing :=
  let line : Line := ⟨action, tracing.tracer.draft⟩
  let traced := tracing.note (.lineTraced action line.literals tracing.tracer.draftSources?)
  match traced.putAll (line.encode tracing.tracer.encoding) with
  | (.error fault, tracing) => (.error fault, tracing)
  | (.ok (), tracing) => (tracing.closeLine line).flushIfDue

/-- Emits the draft as a line, unless the audit refuses the addition. -/
def emit (action : Action) (tracing : Tracing) :
    Except Fault (Except TraceError Unit) × Tracing :=
  match tracing.tracer.noteDraft action with
  | .error fault => (.error fault, tracing)
  | .ok (.error error) => (.ok (.error error), tracing.clearDraft)
  | .ok (.ok tracer) =>
      match { tracing with tracer }.writeDraft action with
      | (.error fault, tracing) => (.error fault, tracing)
      | (.ok (), tracing) => (.ok (.ok ()), tracing)

/-- Ends a proof: what is left of an incomplete line is given up. -/
def finish (tracing : Tracing) : Except Fault Tally × Tracing :=
  match (tracing.note .proofStopped).flush with
  | (.error fault, tracing) => (.error fault, tracing)
  | (.ok _, tracing) =>
      let size := tracing.tracer.spool.size
      let noted := if 0 < size then tracing.note (.bytesDiscarded size) else tracing
      (.ok tracing.tracer.tally, noted)

end Tracing

end ClauseExchange
