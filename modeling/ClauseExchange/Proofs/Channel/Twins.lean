import ClauseExchange.Channel
import ClauseExchange.Proofs.Outcome
import ClauseExchange.Proofs.Store.Entries

/-!
Two channels whose stores differ at most in the connections made, and whose sessions number the outgoing
records alike. Records are sent over both in the same way, and of the sessions nothing else changes.
-/

namespace ClauseExchange

variable {α β γ : Type}

/-- Two outcomes with the same answer, and states in a relation. -/
def Agree (related : β → γ → Prop) (first : α × β) (second : α × γ) : Prop :=
  first.1 = second.1 ∧ related first.2 second.2

theorem Agree.split {related : β → γ → Prop} {first : Except Fault α × β}
    {second : Except Fault α × γ} (agree : Agree related first second) :
    (∃ fault left right, first = (.error fault, left) ∧ second = (.error fault, right) ∧
        related left right) ∨
      ∃ answer left right, first = (.ok answer, left) ∧ second = (.ok answer, right) ∧
        related left right := by
  obtain ⟨outcome, left⟩ := first
  obtain ⟨_, right⟩ := second
  obtain ⟨rfl, held⟩ := agree
  cases outcome with
  | error fault => exact Or.inl ⟨fault, left, right, rfl, rfl, held⟩
  | ok answer => exact Or.inr ⟨answer, left, right, rfl, rfl, held⟩

/-- Where related states take every step alike, they take every run alike. -/
theorem Agree.runAll {ι : Type} {related : β → β → Prop} {step : ι → β → Except Fault α × β}
    (follows : ∀ one {first second}, related first second →
      Agree related (step one first) (step one second))
    {first second : β} (start : related first second) (steps : List ι) :
    Agree related (ClauseExchange.runAll step steps first)
      (ClauseExchange.runAll step steps second) := by
  induction steps generalizing first second with
  | nil => exact ⟨rfl, start⟩
  | cons one rest induction =>
      unfold ClauseExchange.runAll
      rcases (follows one start).split with
        ⟨fault, _, _, stepped, other, held⟩ | ⟨answer, _, _, stepped, other, held⟩
      · rw [stepped, other]
        exact ⟨rfl, held⟩
      · rw [stepped, other]
        dsimp only
        rcases (induction held).split with
          ⟨fault, _, _, ran, alike, last⟩ | ⟨answers, _, _, ran, alike, last⟩
        · rw [ran, alike]
          exact ⟨rfl, last⟩
        · rw [ran, alike]
          exact ⟨rfl, last⟩

namespace Channel

/-- The sessions are as at the outset, apart from the number of the next record, which is the same. -/
structure Twins (left right : Session) (first second : Channel) : Prop where
  next : first.session.nextOutgoing = second.session.nextOutgoing
  store : first.store.Alike second.store
  left : first.session = { left with nextOutgoing := first.session.nextOutgoing }
  right : second.session = { right with nextOutgoing := second.session.nextOutgoing }

variable {left right : Session} {first second : Channel}

namespace Twins

theorem note (twins : Twins left right first second) (one other : Notice) :
    Twins left right (first.note one) (second.note other) :=
  ⟨twins.next, twins.store, twins.left, twins.right⟩

theorem connect (twins : Twins left right first second) :
    (∃ one other, first.connect = (false, one) ∧ second.connect = (false, other) ∧
        Twins left right one other) ∨
      ∃ one other, first.connect = (true, one) ∧ second.connect = (true, other) ∧
        Twins left right one other := by
  have same : first.store.reachable = second.store.reachable := by
    obtain ⟨connections, store⟩ := twins.store
    rw [store]
  unfold Channel.connect Store.connect
  rw [← same]
  cases first.store.reachable with
  | false => exact Or.inl ⟨_, _, rfl, rfl, twins.note _ _⟩
  | true =>
      refine Or.inr ⟨_, _, rfl, rfl, twins.next, ?_, twins.left, twins.right⟩
      obtain ⟨connections, store⟩ := twins.store
      dsimp only
      rw [store]
      exact ⟨_, rfl⟩

theorem write (twins : Twins left right first second) (written : Nat) (records : List Bytes) :
    Agree (Twins left right) (first.write written records) (second.write written records) := by
  induction records generalizing written first second with
  | nil => exact ⟨rfl, twins⟩
  | cons record records induction =>
      unfold Channel.write Session.advanceOutgoing?
      rw [← twins.next]
      dsimp only
      rcases twins.store.set (Key.outgoing first.session.nextOutgoing) record with
        ⟨error, one, other⟩ | ⟨_, _, one, other, alike⟩
      · rw [one, other]
        exact ⟨rfl, twins.note _ _⟩
      · rw [one, other]
        dsimp only
        rcases Key.next?_cases first.session.nextOutgoing with ⟨next, _⟩ | ⟨last, _⟩
        · rw [next]
          apply induction
          refine ⟨rfl, alike, ?_, ?_⟩
          · dsimp only
            rw [twins.left]
          · dsimp only
            rw [twins.right]
        · rw [last]
          exact ⟨rfl, twins.next, alike, twins.left, twins.right⟩

theorem send (twins : Twins left right first second) (records : List Bytes) :
    Agree (Twins left right) (first.send records) (second.send records) := by
  unfold Channel.send
  split
  · exact ⟨rfl, twins⟩
  · rcases twins.connect with
      ⟨_, _, one, other, connected⟩ | ⟨_, _, one, other, connected⟩
    · rw [one, other]
      exact ⟨rfl, connected⟩
    · rw [one, other]
      exact connected.write 0 records

end Twins

end Channel

end ClauseExchange
