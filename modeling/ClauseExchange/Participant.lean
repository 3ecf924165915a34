import ClauseExchange.Intake
import ClauseExchange.Tracer.Request

/-!
A participant is the seat of one solver in an exchange: its settings, its session with the store, the
tracer of the proof under way if there is one, and its intake. All participants share the store and the
journal. Requests that concern a proof are refused while none is traced.
-/

namespace ClauseExchange

structure Participant where
  settings : Settings
  session : Session
  tracer : Option Tracer := none
  intake : IntakeTally := {}

def Participant.join (settings : Settings) : Participant where
  settings
  session := Session.ofSettings settings

structure Seat where
  participant : Participant
  store : Store
  journal : Journal := #[]

namespace Seat

variable {σ : Type}

def ofChannel (participant : Participant) (channel : Channel) : Seat where
  participant := { participant with session := channel.session }
  store := channel.store
  journal := channel.journal

def ofTracing (participant : Participant) (tracing : Tracing) : Seat :=
  ofChannel { participant with tracer := some tracing.tracer } tracing.channel

def ofIntake (participant : Participant) (intake : Intake σ) : Seat :=
  ofChannel { participant with intake := intake.tally } intake.channel

def dropTracer (seat : Seat) : Seat :=
  { seat with participant := { seat.participant with tracer := none } }

/-- Starts a proof, whatever proof there was before. -/
def startProof (encoding : Encoding) (capacity : Nat) (seat : Seat) : Seat :=
  let tracer := Tracer.start encoding seat.participant.settings capacity
  { seat with
    participant := { seat.participant with tracer := some tracer }
    journal := seat.journal.push (.proofStarted encoding) }

def beginProof (encoding : Encoding) (seat : Seat) : Except Error Unit × Seat :=
  match seat.participant.tracer with
  | some _ => (.error (.trace .alreadyTracing), seat)
  | none => (.ok (), seat.startProof encoding Tracer.defaultCapacity)

def trace {α : Type} (operation : Tracing → Except Fault (Except TraceError α) × Tracing) :
    Seat → Except Fault (Except Error α) × Seat
  | ⟨participant, store, journal⟩ =>
      match participant.tracer with
      | none => (.ok (.error (.trace .notTracing)), ⟨participant, store, journal⟩)
      | some tracer =>
          match operation ⟨tracer, ⟨participant.session, store, journal⟩⟩ with
          | (.error fault, tracing) => (.error fault, ofTracing participant tracing)
          | (.ok outcome, tracing) =>
              (.ok (outcome.mapError Error.trace), ofTracing participant tracing)

def perform (solver : Solver σ) (state : SolverState σ) (request : Request) (seat : Seat) :
    Except Fault (Except Error Unit) × Seat :=
  seat.trace fun tracing => tracing.perform solver state request

def flushProof (seat : Seat) : Except Fault (Except Error Delivery) × Seat :=
  seat.trace fun tracing =>
    match tracing.flush with
    | (.error fault, tracing) => (.error fault, tracing)
    | (.ok delivery, tracing) => (.ok (.ok delivery), tracing)

def endProof (seat : Seat) : Except Fault (Except Error Tally) × Seat :=
  let (outcome, seat) := seat.trace fun tracing =>
    match tracing.finish with
    | (.error fault, tracing) => (.error fault, tracing)
    | (.ok tally, tracing) => (.ok (.ok tally), tracing)
  (outcome, seat.dropTracer)

/-- Leaves the exchange; a proof under way is ended. -/
def leave (seat : Seat) : Except Fault Unit × Seat :=
  match seat.endProof with
  | (.error fault, seat) => (.error fault, seat)
  | (.ok _, seat) => (.ok (), seat)

def report (seat : Seat) (verbose : Bool) : List String :=
  match seat.participant.tracer with
  | none => []
  | some tracer => (tracer.tally.report verbose).map ReportLine.text

def requestPoll : Seat → Bool × Seat
  | ⟨participant, store, journal⟩ =>
      let (admitted, channel) := Channel.requestPoll ⟨participant.session, store, journal⟩
      (admitted, ofChannel participant channel)

def poll (solver : Solver σ) (state : SolverState σ) :
    Seat → Except Fault (Except Error Nat) × SolverState σ × Seat
  | ⟨participant, store, journal⟩ =>
      let (outcome, intake) :=
        Intake.poll solver
          ⟨participant.intake, state, ⟨participant.session, store, journal⟩⟩
      (outcome.map (Except.mapError Error.intake), intake.state, ofIntake participant intake)

end Seat

end ClauseExchange
