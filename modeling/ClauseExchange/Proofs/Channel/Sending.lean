import ClauseExchange.Channel
import ClauseExchange.Proofs.Outcome
import ClauseExchange.Proofs.Store.Deposit

/-!
Records that are sent go into the store one after another, under the numbers from the session's next
one on. As many are written as the store admits, and the session's number moves on by as many.
-/

namespace ClauseExchange.Channel

def moveOn (session : Session) (count : Nat) : Session :=
  { session with nextOutgoing := session.nextOutgoing + count }

theorem moveOn_moveOn (session : Session) (first second : Nat) :
    moveOn (moveOn session first) second = moveOn session (first + second) := by
  simp [moveOn, Nat.add_assoc]

/-- The outcome of sending: some of the records are in the store, the first ones. -/
structure Sent (records : List Bytes) (before : Channel) (count : Nat) (after : Channel) : Prop where
  session : after.session = moveOn before.session count
  store : before.store.Receives before.session.nextOutgoing (records.take count) after.store

theorem write_yields (written : Nat) (records : List Bytes) (channel : Channel)
    (reachable : channel.store.reachable = true) :
    Yields (channel.write written records)
      (fun total sent =>
        total = written + channel.store.admitted records.length ∧
          Sent records channel (channel.store.admitted records.length) sent)
      (Exhausted (channel.session.nextOutgoing + channel.store.admitted records.length)) := by
  induction records generalizing written channel with
  | nil =>
      have none : channel.store.admitted 0 = 0 := Nat.le_zero.mp (channel.store.admitted_le 0)
      rw [List.length_nil, none]
      exact ⟨rfl, rfl, Store.Receives.refl _ _⟩
  | cons record records induction =>
      unfold write
      simp only [Store.set, Store.admitWrite_of_reachable reachable]
      by_cases spent : channel.store.allowance = some 0
      · have none : channel.store.admitted (record :: records).length = 0 := by
          simp [Store.admitted, reachable, spent]
        rw [if_pos spent, none]
        exact ⟨rfl, rfl, Store.Receives.refl _ _⟩
      rw [if_neg spent]
      simp only [Except.map, Session.advanceOutgoing?]
      have count := Store.admitted_succ reachable spent records.length
      rw [List.length_cons, count]
      rcases Key.next?_cases channel.session.nextOutgoing with ⟨next, below⟩ | ⟨last, past⟩
      · rw [next]
        let stored := channel.store.spend.insert
          (Key.outgoing channel.session.nextOutgoing) record
        let moved : Channel :=
          { channel with store := stored, session := moveOn channel.session 1 }
        refine (induction (written + 1) moved reachable).imp ?_ ?_
        · rintro total sent ⟨counted, session, received⟩
          refine ⟨by rw [counted, Nat.add_right_comm]; rfl, ?_, ?_⟩
          · rw [session, moveOn_moveOn, Nat.add_comm]
            rfl
          · have first : channel.store.Receives channel.session.nextOutgoing [record] stored :=
              ⟨stored.connections, rfl⟩
            exact first.trans received
        · intro fault state exhausted
          apply exhausted.mono
          change channel.session.nextOutgoing + 1 + channel.store.spend.admitted records.length ≤ _
          omega
      · rw [last]
        exact ⟨rfl, by omega⟩

/-- The session has come to the last number of either direction, and was to go on from there. -/
def OutOfNumbers (fault : Fault) (channel : Channel) : Prop :=
  fault = .numbersExhausted ∧
    (Key.numberBound ≤ channel.session.nextOutgoing + 1 ∨
      Key.numberBound ≤ channel.session.nextIncoming + 1)

theorem write_stops (written : Nat) (records : List Bytes) (channel : Channel) :
    Yields (channel.write written records) (fun _ _ => True) OutOfNumbers := by
  induction records generalizing written channel with
  | nil => trivial
  | cons record records induction =>
      unfold write
      dsimp only
      cases channel.store.set (Key.outgoing channel.session.nextOutgoing) record with
      | error error => trivial
      | ok store =>
          unfold Session.advanceOutgoing?
          rcases Key.next?_cases channel.session.nextOutgoing with ⟨next, _⟩ | ⟨last, past⟩
          · rw [next]
            exact induction _ _
          · rw [last]
            exact ⟨rfl, Or.inl past⟩

def connected (channel : Channel) : Channel :=
  { channel with
    store := { channel.store with connections := channel.store.connections + 1 } }

theorem connect_of_reachable {channel : Channel} (reachable : channel.store.reachable = true) :
    channel.connect = (true, channel.connected) := by
  unfold connect Store.connect
  rw [if_pos reachable]
  rfl

theorem connect_of_unreachable {channel : Channel} (unreachable : channel.store.reachable = false) :
    ∃ notice, channel.connect = (false, channel.note notice) := by
  unfold connect Store.connect
  rw [if_neg (by simp [unreachable])]
  exact ⟨_, rfl⟩

theorem send_yields (records : List Bytes) (channel : Channel) :
    Yields (channel.send records)
      (fun count sent =>
        count = channel.store.admitted records.length ∧ Sent records channel count sent)
      (Exhausted (channel.session.nextOutgoing + channel.store.admitted records.length)) := by
  have nothing : Sent records channel 0 channel := ⟨rfl, Store.Receives.refl _ _⟩
  unfold send
  cases records with
  | nil =>
      have none : channel.store.admitted 0 = 0 := Nat.le_zero.mp (channel.store.admitted_le 0)
      rw [List.length_nil, none]
      exact ⟨rfl, nothing⟩
  | cons record records =>
      rw [List.isEmpty_cons, if_neg Bool.false_ne_true]
      cases reachable : channel.store.reachable with
      | false =>
          obtain ⟨notice, noted⟩ := connect_of_unreachable reachable
          have none : channel.store.admitted (record :: records).length = 0 := by
            simp [Store.admitted, reachable]
          rw [noted, none]
          exact ⟨rfl, nothing.session, nothing.store⟩
      | true =>
          rw [connect_of_reachable reachable]
          refine (write_yields 0 (record :: records) channel.connected reachable).imp ?_ ?_
          · rintro count sent ⟨counted, session, received⟩
            rw [Nat.zero_add] at counted
            subst counted
            refine ⟨rfl, session, ?_⟩
            have opened : channel.store.Receives channel.session.nextOutgoing []
                channel.connected.store := ⟨_, rfl⟩
            exact opened.trans received
          · intro fault state exhausted
            exact exhausted

theorem send_stops (records : List Bytes) (channel : Channel) :
    Yields (channel.send records) (fun _ _ => True) OutOfNumbers := by
  unfold send
  split
  · trivial
  · rcases channel.connect with ⟨_ | _, connected⟩
    · trivial
    · exact connected.write_stops 0 records

/-! Connections are made to send records, and not to write them. -/

theorem connections_write (written : Nat) (records : List Bytes) (channel : Channel) :
    (channel.write written records).2.store.connections = channel.store.connections := by
  induction records generalizing written channel with
  | nil => rfl
  | cons record records induction =>
      unfold write
      dsimp only
      cases stored : channel.store.set (Key.outgoing channel.session.nextOutgoing) record with
      | error error => rfl
      | ok store =>
          have same := Store.connections_of_set stored
          dsimp only
          cases channel.session.advanceOutgoing? with
          | none => exact same
          | some session => exact (induction _ _).trans same

theorem connections_send (records : List Bytes) (channel : Channel) :
    (channel.send records).2.store.connections = channel.store.connections +
      if records ≠ [] ∧ channel.store.reachable = true then 1 else 0 := by
  unfold send
  cases records with
  | nil => simp
  | cons record records =>
      cases reachable : channel.store.reachable with
      | false =>
          obtain ⟨notice, noted⟩ := connect_of_unreachable reachable
          simp [noted, note]
      | true => simp [connect_of_reachable reachable, connections_write, connected]

end ClauseExchange.Channel
