import ClauseExchange.Proofs.Intake.Polling

/-!
Recording changes nothing: an intake does the same for a recording solver as for the solver underneath.
So what was found of polls for recording solvers holds for all.
-/

namespace ClauseExchange

variable {σ : Type} (solver : Solver σ)

namespace SolverState

theorem unrecorded_foldl_importOnto (literals : List Literal) (state : SolverState (Recorded σ)) :
    (literals.foldl (importOnto solver.recorded) state).unrecorded =
      literals.foldl (importOnto solver) state.unrecorded := by
  induction literals generalizing state with
  | nil => rfl
  | cons literal literals induction => exact induction _

end SolverState

namespace Intake

def unrecorded (intake : Intake (Recorded σ)) : Intake σ where
  tally := intake.tally
  state := intake.state.unrecorded
  channel := intake.channel

def recorded (intake : Intake σ) : Intake (Recorded σ) where
  tally := intake.tally
  state := intake.state.recorded #[]
  channel := intake.channel

@[simp] theorem unrecorded_recorded (intake : Intake σ) : intake.recorded.unrecorded = intake := rfl

theorem unrecorded_handOver (literals : List Literal) (intake : Intake (Recorded σ)) :
    (intake.handOver solver.recorded literals).map id unrecorded =
      intake.unrecorded.handOver solver literals := by
  unfold handOver
  have stack : intake.unrecorded.state.stack = intake.state.stack := rfl
  rw [stack]
  cases intake.state.stack[0]? with
  | none => rfl
  | some first =>
      dsimp only
      split <;> rfl

theorem unrecorded_take (elements : List Bytes) (intake : Intake (Recorded σ)) :
    (intake.take solver.recorded elements).map id unrecorded =
      intake.unrecorded.take solver elements := by
  unfold take
  have channel : intake.unrecorded.channel = intake.channel := rfl
  rw [channel]
  cases Contribution.read intake.channel.session.nextIncoming elements with
  | error error => rfl
  | ok literals =>
      dsimp only
      unfold load
      split
      · rfl
      · rw [unrecorded_handOver]
        congr 1
        exact congrArg (fun state => (⟨_, state, _⟩ : Intake σ))
          (SolverState.unrecorded_foldl_importOnto solver literals intake.state)

theorem unrecorded_advance (intake : Intake (Recorded σ)) :
    intake.advance.map id unrecorded = intake.unrecorded.advance := by
  unfold advance
  have channel : intake.unrecorded.channel = intake.channel := rfl
  rw [channel]
  cases intake.channel.session.advanceIncoming? <;> rfl

theorem unrecorded_readRecords (limit count : Nat) (intake : Intake (Recorded σ)) :
    (intake.readRecords solver.recorded limit count).map id unrecorded =
      intake.unrecorded.readRecords solver limit count := by
  induction limit generalizing count intake with
  | zero => rfl
  | succ limit induction =>
      unfold readRecords
      have channel : intake.unrecorded.channel = intake.channel := rfl
      rw [channel]
      dsimp only
      split
      · rfl
      · rfl
      · rename_i elements _ _
        rw [← unrecorded_take]
        rcases intake.take solver.recorded elements with ⟨fault | ⟨⟩, taken⟩
        · rfl
        · dsimp only [Prod.map, id]
          rw [← unrecorded_advance]
          rcases taken.advance with ⟨fault | ⟨⟩, moved⟩
          · rfl
          · exact induction _ moved

theorem unrecorded_poll (intake : Intake (Recorded σ)) :
    (intake.poll solver.recorded).map id unrecorded = intake.unrecorded.poll solver := by
  unfold poll
  have channel : intake.unrecorded.channel = intake.channel := rfl
  have stack : intake.unrecorded.state.stack = intake.state.stack := rfl
  rw [channel, stack]
  split
  · rcases intake.channel.connect with ⟨_ | _, connected⟩
    · rfl
    · let opened : Intake (Recorded σ) := { intake with channel := connected }
      let limit := connected.store.lists.size + 1
      have reading : (opened.readRecords solver.recorded limit 0).map id unrecorded =
          { intake.unrecorded with channel := connected }.readRecords solver limit 0 :=
        unrecorded_readRecords solver limit 0 opened
      dsimp only
      rw [← reading]
      rcases opened.readRecords solver.recorded limit 0 with ⟨fault | count, after⟩ <;> rfl
  · rfl

/-- Whatever the solver does when it is told of a record, a poll moves the session on by the records it
read, and the store is as it was but for the connection. -/
theorem poll_passes (intake : Intake σ) :
    Yields (intake.poll solver)
      (fun _ after =>
        (∃ count, after.channel.session = readOn intake.channel.session count) ∧
          (∃ connections, after.channel.store = { intake.channel.store with connections }) ∧
          after.state.stack = intake.state.stack)
      Spent := by
  have same := unrecorded_poll solver intake.recorded
  rw [unrecorded_recorded] at same
  rw [← same]
  rcases (poll_reads solver intake.recorded).split with
    ⟨fault, after, outcome, spent⟩ | ⟨answer, after, outcome, records, reads, _⟩
  · rw [outcome]
    exact spent
  · rw [outcome]
    exact ⟨⟨_, reads.session⟩, reads.store, reads.stack⟩

end Intake

end ClauseExchange
