import ClauseExchange.Proofs.Participant.Run
import ClauseExchange.Proofs.Solver.Exporting
import ClauseExchange.Proofs.Tracer.Emitting

/-!
No fault is ever met at a seat but that of the numbers running out, whatever the solver exports and
however it handles its clause stack. Between two calls no line is being assembled, also where a call
was refused.
-/

namespace ClauseExchange

variable {σ : Type}

theorem Decimal.length_ofNat_le {value bound : Nat} (small : value < 10 ^ (bound + 1)) :
    (ofNat value).length ≤ bound + 1 := by
  induction bound generalizing value with
  | zero =>
      unfold ofNat
      rw [if_pos (by omega)]
      exact Nat.le_refl 1
  | succ bound induction =>
      unfold ofNat
      split
      · exact Nat.le_add_left 1 _
      · have fewer : (ofNat (value / 10)).length ≤ bound + 1 := induction (by omega)
        rw [List.length_append, List.length_singleton]
        omega

theorem Literal.length_magnitude_le (literal : Literal) :
    (Decimal.ofNat literal.magnitude).length ≤ 10 := by
  have bounded := literal.natAbs_lt
  exact Decimal.length_ofNat_le (by unfold magnitude; omega)

namespace Tracing

theorem finish_stops (tracing : Tracing) :
    Yields tracing.finish (fun _ _ => True) (fun fault after => after.channel.OutOfNumbers fault) := by
  unfold finish
  rcases (tracing.note .proofStopped).flush_stops.split with
    ⟨fault, flushed, outcome, outOfNumbers⟩ | ⟨delivery, flushed, outcome, _⟩
  · rw [outcome]
    exact outOfNumbers
  · rw [outcome]
    trivial

end Tracing

namespace Seat

def AtRest (seat : Seat) : Prop :=
  ∀ tracer, seat.participant.tracer = some tracer → tracer.AtRest

/-- What may happen at a seat. From one call to the next the solver may have gone on to another state. -/
inductive Move (σ : Type) where
  | call (state : SolverState σ) (call : Call)
  /-- A proof is started over a spool of the given capacity. -/
  | restart (encoding : Encoding) (capacity : Nat)
  /-- Someone else does something to the store. -/
  | outside (deed : Store.Deed)

def move (solver : Solver σ) : Move σ → Seat → Except Fault (Except Error Reply) × Seat
  | .call state call, seat => seat.step solver (state, call)
  | .restart encoding capacity, seat => (.ok (.ok .done), seat.startProof encoding capacity)
  | .outside deed, seat => (.ok (.ok .done), { seat with store := seat.store.undergo deed })

variable {seat : Seat}

theorem atRest_dropTracer (seat : Seat) : seat.dropTracer.AtRest := nofun

theorem atRest_startProof (encoding : Encoding) (capacity : Nat) (seat : Seat) :
    (seat.startProof encoding capacity).AtRest := by
  rintro tracer ⟨⟩
  exact Tracer.atRest_start encoding seat.participant.settings capacity

theorem perform_rests (rest : seat.AtRest) (solver : Solver σ) (state : SolverState σ)
    (request : Request) :
    Yields (seat.perform solver state request) (fun _ after => after.AtRest)
      (fun fault after => after.channel.OutOfNumbers fault) := by
  unfold perform
  cases present : seat.participant.tracer with
  | none =>
      rw [trace_of_none present]
      exact rest
  | some tracer =>
      have atRest := rest tracer present
      obtain ⟨emitted, watched⟩ := Tracing.exists_watched tracer.audit
      have ready : Tracing.Ready emitted ⟨tracer, seat.channel⟩ := ⟨atRest.draft, watched⟩
      apply trace_yields present
      refine (Tracing.perform_executes ready solver state request).imp ?_
        (fun _ _ halts => halts.outOfNumbers)
      rintro answer after ⟨_, _, _, keeps⟩ _ ⟨⟩
      exact keeps atRest

theorem flushProof_rests (rest : seat.AtRest) :
    Yields seat.flushProof (fun _ after => after.AtRest)
      (fun fault after => after.channel.OutOfNumbers fault) := by
  unfold flushProof
  cases present : seat.participant.tracer with
  | none =>
      rw [trace_of_none present]
      exact rest
  | some tracer =>
      apply trace_yields present
      rcases (Tracing.flush_emits ⟨tracer, seat.channel⟩).split with
        ⟨fault, flushed, outcome, halts⟩ | ⟨delivery, flushed, outcome, _, sameLine, _⟩
      · rw [outcome]
        exact halts.outOfNumbers
      · rw [outcome]
        rintro _ ⟨⟩
        exact (rest tracer present).ofSameLine sameLine

theorem endProof_rests (seat : Seat) :
    Yields seat.endProof (fun _ after => after.AtRest)
      (fun fault after => after.channel.OutOfNumbers fault) := by
  unfold endProof
  cases present : seat.participant.tracer with
  | none =>
      rw [trace_of_none present]
      exact seat.atRest_dropTracer
  | some tracer =>
      rw [trace_of_some present]
      dsimp only
      rcases (Tracing.finish_stops ⟨tracer, seat.channel⟩).split with
        ⟨fault, finished, outcome, outOfNumbers⟩ | ⟨tally, finished, outcome, _⟩
      · rw [outcome]
        exact outOfNumbers
      · rw [outcome]
        exact atRest_dropTracer _

theorem poll_rests (rest : seat.AtRest) (solver : Solver σ) (state : SolverState σ) :
    Yields (seat.poll solver state) (fun _ after => after.2.AtRest)
      (fun fault after => after.2.channel.OutOfNumbers fault) := by
  refine Yields.through (Except.mapError Error.intake)
    (fun intake => (intake.state, ofIntake seat.participant intake))
    ((Intake.poll_passes solver ⟨seat.participant.intake, state, seat.channel⟩).imp ?_ ?_)
  · exact fun _ _ _ => rest
  · exact fun fault after spent => ⟨spent.1, Or.inr spent.2.1⟩

theorem requestPoll_rests (rest : seat.AtRest) : seat.requestPoll.2.AtRest := by
  obtain ⟨participant, store, journal⟩ := seat
  exact rest

theorem answer_rests (rest : seat.AtRest) (solver : Solver σ) (state : SolverState σ) (call : Call) :
    Yields (seat.answer solver state call) (fun _ after => after.2.AtRest)
      (fun fault after => after.2.channel.OutOfNumbers fault) := by
  cases call with
  | start encoding =>
      unfold answer beginProof
      cases present : seat.participant.tracer with
      | none => exact atRest_startProof _ _ seat
      | some tracer => exact rest
  | perform request =>
      exact Yields.through (Except.map fun _ => Reply.done) (fun after => (state, after))
        (perform_rests rest solver state request)
  | flush =>
      exact Yields.through (Except.map Reply.delivery) (fun after => (state, after))
        (flushProof_rests rest)
  | finish =>
      exact Yields.through (Except.map Reply.tally) (fun after => (state, after))
        (seat.endProof_rests.imp (fun _ _ held => held) (fun _ _ outOfNumbers => outOfNumbers))
  | poll =>
      exact Yields.through (Except.map Reply.taken) id
        ((poll_rests rest solver state).imp (fun _ _ held => held)
          (fun _ _ outOfNumbers => outOfNumbers))
  | tick => exact requestPoll_rests rest

theorem move_rests (rest : seat.AtRest) (solver : Solver σ) (move : Move σ) :
    Yields (seat.move solver move) (fun _ after => after.AtRest)
      (fun fault after => after.channel.OutOfNumbers fault) := by
  cases move with
  | call state call =>
      unfold Seat.move step
      dsimp only
      rcases (answer_rests rest solver state call).split with
        ⟨fault, after, outcome, outOfNumbers⟩ | ⟨reply, after, outcome, restAfter⟩
      · rw [outcome]
        exact outOfNumbers
      · rw [outcome]
        exact restAfter
  | restart encoding capacity => exact atRest_startProof encoding capacity seat
  | outside deed => exact rest

theorem moves_rest (rest : seat.AtRest) (solver : Solver σ) (moves : List (Move σ)) :
    Yields (runAll (move solver) moves seat) (fun _ after => after.AtRest)
      (fun fault after => after.channel.OutOfNumbers fault) := by
  induction moves generalizing seat with
  | nil => exact rest
  | cons first moves induction =>
      exact Yields.runAll_cons (move_rests rest solver first)
        (fun _ _ restBetween => induction restBetween)

/-- From a seat where no proof is under way, whatever is in the store and however far the session is,
no sequence of moves comes upon a fault but for want of numbers, and after each of them the tracer is
at rest. What is split off a spool ends in a separator, so the separators can be left out, and what is
written are literals, in ten digits at most. -/
theorem run_meets_no_fault (solver : Solver σ) (seat : Seat) (moves : List (Move σ)) :
    Yields (runAll (move solver) moves seat.dropTracer) (fun _ after => after.AtRest)
        (fun fault after => after.channel.OutOfNumbers fault) ∧
      (∀ (spool : Spool) (separator : UInt8),
        frame separator (spool.records separator) =
            spool.contents.take (spool.completeLength separator) ∧
          ∀ record ∈ spool.records separator, separator ∉ record) ∧
      ∀ literal : Literal, literal.word ≠ 0 ∧ literal.word ≠ Int32.minValue ∧
        (Decimal.ofNat literal.magnitude).length ≤ 10 := by
  refine ⟨?_, ?_, ?_⟩
  · exact moves_rest seat.atRest_dropTracer solver moves
  · intro spool separator
    exact ⟨spool.frame_records_eq_take separator, (spool.frame_records_append separator).2.1⟩
  · intro literal
    have read := literal.ofWord?_word
    refine ⟨?_, ?_, literal.length_magnitude_le⟩
    · intro zero
      rw [Literal.ofWord?_eq_none_iff.mpr (Or.inl zero)] at read
      cases read
    · intro least
      rw [Literal.ofWord?_eq_none_iff.mpr (Or.inr least)] at read
      cases read

end Seat

end ClauseExchange
