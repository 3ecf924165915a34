import ClauseExchange.Proofs.Store.Inbox
import ClauseExchange.Proofs.Tracer.Streaming

/-!
The whole effect of a flush. From the records in the spool and the state of the store it is told how many
records are written, and with that what becomes of every part of the tracer, the session and the store.
A flush right after it finds no record, and does nothing.
-/

namespace ClauseExchange.Tracing

variable {tracing : Tracing} {records : List Bytes} {tail : Bytes}

theorem connections_flush (tracing : Tracing) :
    tracing.flush.2.channel.store.connections = tracing.channel.store.connections +
      if tracing.tracer.records ≠ [] ∧ tracing.channel.store.reachable = true then 1 else 0 := by
  unfold flush
  by_cases empty : tracing.tracer.spool.isEmpty = true
  · have none : tracing.tracer.records = [] :=
      Spool.records_of_free (Spool.free_of_isEmpty empty _)
    simp [empty, none]
  · have sending := tracing.channel.connections_send tracing.tracer.records
    unfold Tracer.records at sending ⊢
    rw [if_neg empty, ← sending]
    dsimp only
    rcases tracing.channel.send _ with ⟨fault | written, sent⟩
    · rfl
    · dsimp only
      rw [(settle_spec _ _).2.2]

/-- A spool that holds complete records with an incomplete line behind them. -/
structure Holds (tracing : Tracing) (records : List Bytes) (tail : Bytes) : Prop where
  contents : tracing.tracer.spool.contents =
    frame tracing.tracer.encoding.separator records ++ tail
  whole : ∀ record ∈ records, tracing.tracer.encoding.separator ∉ record
  incomplete : tracing.tracer.encoding.separator ∉ tail

theorem Holds.found (holds : tracing.Holds records tail) : tracing.tracer.records = records :=
  Spool.records_of_contents holds.contents holds.whole holds.incomplete

theorem Holds.kept (holds : tracing.Holds records tail) :
    (tracing.tracer.spool.dropRecords tracing.tracer.encoding.separator).contents = tail :=
  Spool.contents_dropRecords_of_contents holds.contents holds.incomplete

theorem flush_of_holds {count : Nat} (holds : tracing.Holds records tail)
    (numbered : tracing.channel.session.nextOutgoing + records.length < Key.numberBound)
    (admitted : tracing.channel.store.admitted records.length = count) :
    ∃ flushed, tracing.flush = (.ok ⟨count, records.length - count, tail.length⟩, flushed) ∧
      flushed.tracer = tracing.tracer.relieve count ∧
      flushed.channel.session = Channel.moveOn tracing.channel.session count ∧
      flushed.channel.store =
        { tracing.channel.store.deposit tracing.channel.session.nextOutgoing (records.take count) with
          connections := tracing.channel.store.connections +
            if records ≠ [] ∧ tracing.channel.store.reachable = true then 1 else 0 } := by
  have found := holds.found
  have retained : (tracing.tracer.spool.dropRecords tracing.tracer.encoding.separator).size =
      tail.length := by
    rw [← Spool.length_contents, holds.kept]
  have counted : tracing.deliverable = count := by
    rw [deliverable, found, admitted]
  have few : count ≤ records.length := admitted ▸ tracing.channel.store.admitted_le _
  have connections := tracing.connections_flush
  rcases tracing.flush_yields.split with
    ⟨fault, flushed, outcome, exhausted⟩ | ⟨delivery, flushed, outcome, told, tracer, sent⟩
  · have past := exhausted.2
    omega
  · rw [counted, found] at sent
    rw [counted] at tracer told
    rw [outcome, found] at connections
    obtain ⟨session, made, store⟩ := sent
    refine ⟨flushed, ?_, tracer, session, ?_⟩
    · simp [outcome, told, Tracer.delivery, found, retained]
    · simp only [store] at connections ⊢
      rw [connections]

/-- What a flush changes, if it writes so many of the records, and what it leaves as it was. -/
structure Flushes (records : List Bytes) (tail : Bytes) (count : Nat) (before after : Tracing) :
    Prop where
  values {index : Nat} {record : Bytes} (held : records[index]? = some record)
    (written : index < count) :
    after.channel.store.value? (Key.outgoing (before.channel.session.nextOutgoing + index)) =
      some record
  otherValues {key : String}
    (other : ∀ index < count, Key.outgoing (before.channel.session.nextOutgoing + index) ≠ key) :
    after.channel.store.value? key = before.channel.store.value? key
  lists : after.channel.store.lists = before.channel.store.lists
  reachable : after.channel.store.reachable = before.channel.store.reachable
  allowance : after.channel.store.allowance = before.channel.store.allowance.map (· - count)
  connections : after.channel.store.connections = before.channel.store.connections +
    if records ≠ [] ∧ before.channel.store.reachable = true then 1 else 0
  session : after.channel.session = { before.channel.session with
    nextOutgoing := before.channel.session.nextOutgoing + count }
  tracer : ∃ spool : Spool, spool.contents = tail ∧
    spool.capacity = before.tracer.spool.capacity ∧
    after.tracer = { before.tracer with
      spool
      tally := { before.tracer.tally with
        records := before.tracer.tally.records + count
        dropped := before.tracer.tally.dropped + (records.length - count) } }

theorem flushes_of_holds {count : Nat} {flushed : Tracing} (holds : tracing.Holds records tail)
    (few : count ≤ records.length) (tracer : flushed.tracer = tracing.tracer.relieve count)
    (session : flushed.channel.session = Channel.moveOn tracing.channel.session count)
    (store : flushed.channel.store =
      { tracing.channel.store.deposit tracing.channel.session.nextOutgoing (records.take count) with
        connections := tracing.channel.store.connections +
          if records ≠ [] ∧ tracing.channel.store.reachable = true then 1 else 0 }) :
    Flushes records tail count tracing flushed := by
  have taken : (records.take count).length = count := List.length_take_of_le few
  constructor
  case values =>
    intro index record held written
    rw [store]
    apply Store.value?_deposit
    rw [List.getElem?_take_of_lt written, held]
  case otherValues =>
    intro key other
    rw [store]
    apply Store.value?_deposit_of_ne
    rwa [taken]
  case lists =>
    rw [store]
    exact Store.lists_deposit _ _ _
  case reachable =>
    rw [store]
    exact Store.reachable_deposit _ _ _
  case allowance =>
    rw [store]
    exact (Store.allowance_deposit _ _ _).trans (by rw [taken])
  case connections => rw [store]
  case session => rw [session, Channel.moveOn]
  case tracer =>
    refine ⟨_, holds.kept, rfl, ?_⟩
    rw [tracer, Tracer.relieve, Tally.countDelivery, Tracer.delivery, holds.found]

/-- Where there is no separator, there is nothing to flush. -/
theorem flush_of_free (free : tracing.tracer.encoding.separator ∉ tracing.tracer.spool.contents)
    (numbered : tracing.channel.session.nextOutgoing < Key.numberBound) :
    ∃ again, tracing.flush = (.ok ⟨0, 0, tracing.tracer.spool.contents.length⟩, again) ∧
      SameButJournal again tracing := by
  have holds : tracing.Holds [] tracing.tracer.spool.contents :=
    ⟨by simp [frame_nil], nofun, free⟩
  have none : tracing.channel.store.admitted 0 = 0 :=
    Nat.le_zero.mp (tracing.channel.store.admitted_le 0)
  obtain ⟨again, outcome, tracer, session, store⟩ := flush_of_holds holds numbered none
  refine ⟨again, outcome, ?_⟩
  constructor
  · rw [tracer, Tracer.relieve_of_free free]
  · rw [session, Channel.moveOn]
    rfl
  · rw [store]
    rfl

/-- A flush writes the records that the store admits, from the session's number on, and drops the others.
What it leaves is the incomplete line, so that another flush changes nothing. -/
theorem flush_effect (holds : tracing.Holds records tail)
    (numbered : tracing.channel.session.nextOutgoing + records.length < Key.numberBound) :
    let count :=
      if tracing.channel.store.reachable then
        tracing.channel.store.allowance.elim records.length (min records.length)
      else
        0
    ∃ flushed, tracing.flush = (.ok ⟨count, records.length - count, tail.length⟩, flushed) ∧
      Flushes records tail count tracing flushed ∧
      ∃ again, flushed.flush = (.ok ⟨0, 0, tail.length⟩, again) ∧ SameButJournal again flushed := by
  intro count
  have few : count ≤ records.length := tracing.channel.store.admitted_le _
  obtain ⟨flushed, outcome, tracer, session, store⟩ :=
    flush_of_holds holds numbered (rfl : tracing.channel.store.admitted records.length = count)
  have kept : flushed.tracer.spool.contents = tail := by
    rw [tracer]
    exact holds.kept
  refine ⟨flushed, outcome, flushes_of_holds holds few tracer session store, ?_⟩
  rw [← kept]
  apply flush_of_free
  · rw [kept, tracer]
    exact holds.incomplete
  · rw [session]
    exact Nat.lt_of_le_of_lt (Nat.add_le_add_left few _) numbered

/-- Two records and the beginning of a line, and a store that lets one more write in. -/
def allowedOne : Tracing where
  tracer :=
    { Tracer.start .text {} 9 with
      spool :=
        { newest := [100, 10, 98, 10, 97]
          size := 5
          capacity := 9
          length_newest := rfl
          size_le := by decide
          capacity_pos := by decide } }
  channel :=
    { session := { Session.ofSettings {} with nextOutgoing := 7 }
      store := { allowance := some 1 } }

theorem allowedOne_holds : allowedOne.Holds [[97], [98]] [100] where
  contents := by decide
  whole := by decide
  incomplete := by decide

theorem flush_effect_allowedOne :
    allowedOne.Holds [[97], [98]] [100] ∧
      allowedOne.channel.session.nextOutgoing + 2 < Key.numberBound ∧
      ∃ flushed, allowedOne.flush = (.ok ⟨1, 1, 1⟩, flushed) ∧
        Flushes [[97], [98]] [100] 1 allowedOne flushed ∧
        ∃ again, flushed.flush = (.ok ⟨0, 0, 1⟩, again) ∧ SameButJournal again flushed :=
  ⟨allowedOne_holds, by decide, flush_effect allowedOne_holds (by decide)⟩

end ClauseExchange.Tracing
