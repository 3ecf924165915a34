import ClauseExchange.Participant
import ClauseExchange.Proofs.Intake.Unrecorded
import ClauseExchange.Proofs.Tracer.Run

/-!
The calls that a solver makes on its seat, and the chronicle of its proofs. Which lines a chronicle has
follows from the calls alone; which of them are stored, dropped or pending is kept in a ledger for each
proof, and no call breaks the agreement of the seat with it.
-/

namespace ClauseExchange

variable {σ : Type}

inductive Call where
  /-- Starts a proof, in the encoding of the settings where none is given. -/
  | start (encoding : Option Encoding)
  | perform (request : Request)
  | flush
  | finish
  | poll
  | tick

inductive Reply where
  | done
  | delivery (delivery : Delivery)
  | tally (tally : Tally)
  | taken (count : Nat)
  | admitted (admitted : Bool)

/-- The reply to a call in the given state of the solver, and the solver's state after it. -/
def Seat.answer (solver : Solver σ) (state : SolverState σ) (call : Call) (seat : Seat) :
    Except Fault (Except Error Reply) × SolverState σ × Seat :=
  match call with
  | .start encoding =>
      let (outcome, after) := seat.beginProof (encoding.getD seat.participant.settings.encoding)
      (.ok (outcome.map fun _ => .done), state, after)
  | .perform request =>
      let (outcome, after) := seat.perform solver state request
      (outcome.map (Except.map fun _ => .done), state, after)
  | .flush =>
      let (outcome, after) := seat.flushProof
      (outcome.map (Except.map .delivery), state, after)
  | .finish =>
      let (outcome, after) := seat.endProof
      (outcome.map (Except.map .tally), state, after)
  | .poll =>
      let (outcome, state, after) := seat.poll solver state
      (outcome.map (Except.map .taken), state, after)
  | .tick =>
      let (admitted, after) := seat.requestPoll
      (.ok (.ok (.admitted admitted)), state, after)

namespace Call

/-- How a call is refused that comes at the wrong time. -/
def refusal? (tracing : Bool) : Call → Option TraceError
  | .start _ => if tracing then some .alreadyTracing else none
  | .perform _ | .flush | .finish => if tracing then none else some .notTracing
  | .poll | .tick => none

end Call

namespace Seat

def channel (seat : Seat) : Channel :=
  ⟨seat.participant.session, seat.store, seat.journal⟩

variable {seat : Seat} {tracer : Tracer} {α : Type}

theorem trace_of_none (idle : seat.participant.tracer = none)
    (operation : Tracing → Except Fault (Except TraceError α) × Tracing) :
    seat.trace operation = (.ok (.error (.trace .notTracing)), seat) := by
  obtain ⟨participant, store, journal⟩ := seat
  unfold trace
  dsimp only at idle ⊢
  rw [idle]

theorem trace_of_some (tracing : seat.participant.tracer = some tracer)
    (operation : Tracing → Except Fault (Except TraceError α) × Tracing) :
    seat.trace operation =
      ((operation ⟨tracer, seat.channel⟩).1.map (Except.mapError Error.trace),
        ofTracing seat.participant (operation ⟨tracer, seat.channel⟩).2) := by
  obtain ⟨participant, store, journal⟩ := seat
  unfold trace channel
  dsimp only at tracing ⊢
  rw [tracing]
  dsimp only
  rcases operation ⟨tracer, ⟨participant.session, store, journal⟩⟩ with ⟨fault | result, after⟩
  · rfl
  · rfl

theorem dropTracer_of_none (idle : seat.participant.tracer = none) : seat.dropTracer = seat := by
  obtain ⟨⟨settings, session, _, intake⟩, store, journal⟩ := seat
  cases idle
  rfl

/-- A call that comes at the wrong time changes nothing. -/
theorem answer_of_refusal {call : Call} {error : TraceError}
    (refused : call.refusal? seat.participant.tracer.isSome = some error) (solver : Solver σ)
    (state : SolverState σ) :
    seat.answer solver state call = (.ok (.error (.trace error)), state, seat) := by
  cases present : seat.participant.tracer with
  | none =>
      rw [present] at refused
      cases call with
      | start encoding => cases refused
      | perform request =>
          cases refused
          rw [answer, perform, trace_of_none present]
          rfl
      | flush =>
          cases refused
          rw [answer, flushProof, trace_of_none present]
          rfl
      | finish =>
          cases refused
          rw [answer, endProof, trace_of_none present]
          dsimp only
          rw [dropTracer_of_none present]
          rfl
      | poll => cases refused
      | tick => cases refused
  | some tracer =>
      rw [present] at refused
      cases call with
      | start encoding =>
          cases refused
          rw [answer, beginProof, present]
          rfl
      | perform request => cases refused
      | flush => cases refused
      | finish => cases refused
      | poll => cases refused
      | tick => cases refused

end Seat

end ClauseExchange
