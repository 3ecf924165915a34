import ClauseExchange.Intake
import ClauseExchange.Proofs.Channel.Twins
import ClauseExchange.Proofs.Store.Inbox

/-!
An intake does the same over two channels that have come to the same incoming number and look the same
to polls, whatever else there is in their stores and sessions.
-/

namespace ClauseExchange

variable {τ : Type}

structure Channel.SameInbox (first second : Channel) : Prop where
  next : first.session.nextIncoming = second.session.nextIncoming
  throttle : first.session.throttle = second.session.throttle
  store : first.store.SameInbox second.store

namespace Channel.SameInbox

variable {first second : Channel}

theorem note (same : SameInbox first second) (one other : Notice) :
    SameInbox (first.note one) (second.note other) :=
  ⟨same.next, same.throttle, same.store⟩

theorem connect (same : SameInbox first second) :
    (∃ one other, first.connect = (false, one) ∧ second.connect = (false, other) ∧
        SameInbox one other) ∨
      ∃ one other, first.connect = (true, one) ∧ second.connect = (true, other) ∧
        SameInbox one other := by
  unfold Channel.connect Store.connect
  rw [← same.store.reachable]
  cases first.store.reachable with
  | false => exact Or.inl ⟨_, _, rfl, rfl, same.note _ _⟩
  | true =>
      exact Or.inr ⟨_, _, rfl, rfl, same.next, same.throttle,
        ⟨same.store.lists, rfl, same.store.values, same.store.unlimited⟩⟩

theorem requestPoll (same : SameInbox first second) :
    Agree SameInbox first.requestPoll second.requestPoll := by
  unfold Channel.requestPoll
  rw [← same.throttle]
  rcases first.session.throttle.request with ⟨_ | requests, throttle⟩
  · exact ⟨rfl, same.next, rfl, same.store⟩
  · exact ⟨rfl, same.next, rfl, same.store⟩

end Channel.SameInbox

namespace Intake

/-- One intake over two channels. -/
inductive Twins : Intake τ → Intake τ → Prop where
  | pair (tally : IntakeTally) (state : SolverState τ) {first second : Channel}
      (same : first.SameInbox second) : Twins ⟨tally, state, first⟩ ⟨tally, state, second⟩

namespace Twins

variable {first second : Intake τ}

theorem shared (twins : Twins first second) :
    first.tally = second.tally ∧ first.state = second.state ∧
      first.channel.SameInbox second.channel := by
  cases twins with
  | pair tally state same => exact ⟨rfl, rfl, same⟩

theorem handOver (twins : Twins first second) (solver : Solver τ) (literals : List Literal) :
    Agree Twins (first.handOver solver literals) (second.handOver solver literals) := by
  cases twins with
  | pair tally state same =>
      unfold Intake.handOver
      dsimp only
      cases state.stack[0]? with
      | none => exact ⟨rfl, .pair tally state same⟩
      | some word =>
          dsimp only
          split
          · exact ⟨rfl, .pair _ _ (same.note _ _)⟩
          · exact ⟨rfl, .pair _ _ (same.note _ _)⟩

theorem take (twins : Twins first second) (solver : Solver τ) (elements : List Bytes) :
    Agree Twins (first.take solver elements) (second.take solver elements) := by
  cases twins with
  | pair tally state same =>
      unfold Intake.take
      dsimp only
      rw [← same.next]
      cases Contribution.read _ elements with
      | error error => exact ⟨rfl, .pair _ state (same.note _ _)⟩
      | ok literals =>
          unfold load
          dsimp only
          split
          · exact ⟨rfl, .pair tally state same⟩
          · exact (pair tally _ same).handOver solver literals

theorem advance (twins : Twins first second) :
    Agree Twins first.advance second.advance := by
  cases twins with
  | pair tally state same =>
      unfold Intake.advance Session.advanceIncoming?
      dsimp only
      rw [← same.next]
      cases Key.next? _ with
      | none => exact ⟨rfl, .pair tally state same⟩
      | some next => exact ⟨rfl, .pair tally state ⟨rfl, same.throttle, same.store⟩⟩

theorem readRecords (twins : Twins first second) (solver : Solver τ) (limit count : Nat) :
    Agree Twins (first.readRecords solver limit count)
      (second.readRecords solver limit count) := by
  induction limit generalizing count first second with
  | zero => exact ⟨rfl, twins⟩
  | succ limit induction =>
      have taking := twins.take solver
      cases twins with
      | pair tally state same =>
          unfold Intake.readRecords
          dsimp only
          rw [← same.next, ← same.store.range]
          split
          · exact ⟨rfl, .pair tally state (same.note _ _)⟩
          · exact ⟨rfl, .pair tally state same⟩
          · rename_i elements _ _
            rcases (taking elements).split with
              ⟨fault, _, _, one, other, taken⟩ | ⟨⟨⟩, _, _, one, other, taken⟩
            · rw [one, other]
              exact ⟨rfl, taken⟩
            · rw [one, other]
              dsimp only
              rcases taken.advance.split with
                ⟨fault, _, _, one, other, moved⟩ | ⟨⟨⟩, _, _, one, other, moved⟩
              · rw [one, other]
                exact ⟨rfl, moved⟩
              · rw [one, other]
                exact induction moved (count + 1)

theorem poll (twins : Twins first second) (solver : Solver τ) :
    Agree Twins (first.poll solver) (second.poll solver) := by
  cases twins with
  | pair tally state same =>
      unfold Intake.poll
      dsimp only
      split
      · rcases same.connect with
          ⟨_, _, one, other, connected⟩ | ⟨_, _, one, other, connected⟩
        · rw [one, other]
          exact ⟨rfl, .pair tally state connected⟩
        · rw [one, other]
          dsimp only
          rw [← connected.store.lists]
          rcases ((pair tally state connected).readRecords solver _ 0).split with
            ⟨fault, _, _, one, other, read⟩ | ⟨total, _, _, one, other, read⟩
          · rw [one, other]
            exact ⟨rfl, read⟩
          · rw [one, other]
            cases read with
            | pair tally state same => exact ⟨rfl, .pair tally state (same.note _ _)⟩
      · exact ⟨rfl, .pair tally state same⟩

end Twins

end Intake

end ClauseExchange
