import ClauseExchange.Proofs.Intake.Twins
import ClauseExchange.Proofs.Participant.Call
import ClauseExchange.Proofs.Solver.Quiet
import ClauseExchange.Proofs.Tracer.Twins

/-!
One participant in two exchanges. The calls that concern a proof see nothing of what the intake is
about, and the calls of the intake see nothing of the proof; neither touches the other's part.
-/

namespace ClauseExchange

variable {σ : Type}

namespace Call

/-- The calls by which records of peers come in. -/
def isIntake : Call → Bool
  | .poll | .tick => true
  | _ => false

end Call

namespace Seat

/-- The participants have one tracer, and are otherwise what they were at the outset but for the number
of the next record, which is the same. -/
structure Twins (left right : Participant) (first second : Seat) : Prop where
  settings : first.participant.settings = left.settings ∧
    second.participant.settings = right.settings
  intake : first.participant.intake = left.intake ∧ second.participant.intake = right.intake
  tracer : first.participant.tracer = second.participant.tracer
  channel : Channel.Twins left.session right.session first.channel second.channel

namespace Twins

variable {left right : Participant} {first second : Seat}

theorem refl (seat : Seat) : Twins seat.participant seat.participant seat seat where
  settings := ⟨rfl, rfl⟩
  intake := ⟨rfl, rfl⟩
  tracer := rfl
  channel := ⟨rfl, .refl _, rfl, rfl⟩

theorem ofTracing (twins : Twins left right first second) {one other : Tracing}
    (tracing : Tracing.Twins left.session right.session one other) :
    Twins left right (ofTracing first.participant one) (ofTracing second.participant other) := by
  cases tracing with
  | pair tracer channel => exact ⟨twins.settings, twins.intake, rfl, channel⟩

theorem trace {α : Type} (twins : Twins left right first second)
    {operation : Tracing → Except Fault (Except TraceError α) × Tracing}
    (agree : ∀ {one other}, Tracing.Twins left.session right.session one other →
      Agree (Tracing.Twins left.session right.session) (operation one) (operation other)) :
    Agree (Twins left right) (first.trace operation) (second.trace operation) := by
  cases present : second.participant.tracer with
  | none =>
      rw [trace_of_none (twins.tracer.trans present), trace_of_none present]
      exact ⟨rfl, twins⟩
  | some tracer =>
      rw [trace_of_some (twins.tracer.trans present), trace_of_some present]
      obtain ⟨same, tracing⟩ := agree (.pair tracer twins.channel)
      exact ⟨congrArg (Except.map _) same, twins.ofTracing tracing⟩

theorem beginProof (twins : Twins left right first second) (same : left.settings = right.settings)
    (encoding : Encoding) :
    Agree (Twins left right) (first.beginProof encoding) (second.beginProof encoding) := by
  have settings : first.participant.settings = second.participant.settings :=
    twins.settings.1.trans (same.trans twins.settings.2.symm)
  unfold Seat.beginProof
  rw [twins.tracer]
  cases second.participant.tracer with
  | some tracer => exact ⟨rfl, twins⟩
  | none =>
      refine ⟨rfl, twins.settings, twins.intake, ?_, ?_⟩
      · change some (Tracer.start encoding first.participant.settings _) = some _
        rw [settings]
      · exact twins.channel.note _ _

theorem perform (twins : Twins left right first second) (solver : Solver σ)
    {state other : SolverState σ} (alike : state.Alike solver other) (request : Request) :
    Agree (Twins left right) (first.perform solver state request)
      (second.perform solver other request) := by
  unfold Seat.perform
  rw [show (fun tracing : Tracing => tracing.perform solver other request) =
      fun tracing => tracing.perform solver state request from
    funext fun tracing => (alike.perform request tracing).symm]
  exact twins.trace fun tracing => tracing.perform solver state request

theorem flushProof (twins : Twins left right first second) :
    Agree (Twins left right) first.flushProof second.flushProof := by
  apply twins.trace
  intro one other tracing
  rcases tracing.flush.split with ⟨fault, _, _, one, other, flushed⟩ | ⟨_, _, _, one, other, flushed⟩
  · rw [one, other]
    exact ⟨rfl, flushed⟩
  · rw [one, other]
    exact ⟨rfl, flushed⟩

theorem dropTracer (twins : Twins left right first second) :
    Twins left right first.dropTracer second.dropTracer :=
  ⟨twins.settings, twins.intake, rfl, twins.channel⟩

theorem endProof (twins : Twins left right first second) :
    Agree (Twins left right) first.endProof second.endProof := by
  unfold Seat.endProof
  cases present : second.participant.tracer with
  | none =>
      rw [trace_of_none (twins.tracer.trans present), trace_of_none present]
      exact ⟨rfl, twins.dropTracer⟩
  | some tracer =>
      rw [trace_of_some (twins.tracer.trans present), trace_of_some present]
      have tracing := Tracing.Twins.pair tracer twins.channel
      dsimp only
      rcases tracing.finish.split with
        ⟨fault, _, _, one, other, finished⟩ | ⟨_, _, _, one, other, finished⟩
      · rw [one, other]
        exact ⟨rfl, (twins.ofTracing finished).dropTracer⟩
      · rw [one, other]
        exact ⟨rfl, (twins.ofTracing finished).dropTracer⟩

/-- A call that concerns a proof is answered alike on both seats, and leaves the solvers as they are. -/
theorem answer (twins : Twins left right first second) (same : left.settings = right.settings)
    (solver : Solver σ) {state other : SolverState σ} (alike : state.Alike solver other)
    {call : Call} (proof : call.isIntake = false) :
    Agree (fun one two => one.1 = state ∧ two.1 = other ∧ Twins left right one.2 two.2)
      (first.answer solver state call) (second.answer solver other call) := by
  cases call with
  | start encoding =>
      have settings : first.participant.settings = second.participant.settings :=
        twins.settings.1.trans (same.trans twins.settings.2.symm)
      obtain ⟨outcome, after⟩ := twins.beginProof same
        (encoding.getD first.participant.settings.encoding)
      rw [settings] at outcome after
      refine ⟨?_, rfl, rfl, ?_⟩
      · unfold Seat.answer
        dsimp only
        rw [settings, outcome]
      · unfold Seat.answer
        dsimp only
        rw [settings]
        exact after
  | perform request =>
      obtain ⟨outcome, after⟩ := twins.perform solver alike request
      exact ⟨congrArg (Except.map (Except.map fun _ => Reply.done)) outcome, rfl, rfl, after⟩
  | flush =>
      obtain ⟨outcome, after⟩ := twins.flushProof
      exact ⟨congrArg (Except.map (Except.map Reply.delivery)) outcome, rfl, rfl, after⟩
  | finish =>
      obtain ⟨outcome, after⟩ := twins.endProof
      exact ⟨congrArg (Except.map (Except.map Reply.tally)) outcome, rfl, rfl, after⟩
  | poll => cases proof
  | tick => cases proof

end Twins

/-- The intakes have come equally far, and the stores look the same to them. -/
structure SameInbox (first second : Seat) : Prop where
  intake : first.participant.intake = second.participant.intake
  channel : first.channel.SameInbox second.channel

namespace SameInbox

variable {first second : Seat}

/-- A call of the intake is answered alike on both seats, and has the same effect on the solver. -/
theorem answer (same : SameInbox first second) (solver : Solver σ) (state : SolverState σ)
    {call : Call} (intake : call.isIntake = true) :
    Agree (fun one two => one.1 = two.1 ∧ SameInbox one.2 two.2)
      (first.answer solver state call) (second.answer solver state call) := by
  cases call with
  | start encoding => cases intake
  | perform request => cases intake
  | flush => cases intake
  | finish => cases intake
  | poll =>
      have twins := Intake.Twins.pair first.participant.intake state same.channel
      obtain ⟨outcome, after⟩ := twins.poll solver
      rw [same.intake] at outcome after
      obtain ⟨tally, states, channel⟩ := after.shared
      let result : Except Fault (Except IntakeError Nat) → Except Fault (Except Error Reply) :=
        fun answer => (answer.map (Except.mapError Error.intake)).map (Except.map Reply.taken)
      unfold Seat.answer Seat.poll
      dsimp only
      rw [same.intake]
      exact ⟨congrArg result outcome, states, tally, channel⟩
  | tick =>
      obtain ⟨outcome, after⟩ := same.channel.requestPoll
      let result : Bool → Except Fault (Except Error Reply) := fun admitted =>
        .ok (.ok (.admitted admitted))
      exact ⟨congrArg result outcome, rfl, same.intake, after⟩

end SameInbox

end Seat

end ClauseExchange
