import ClauseExchange.Proofs.Channel.Sending
import ClauseExchange.Proofs.Spool.Framing
import ClauseExchange.Tracer
import Mathlib.Data.List.TakeWhile

/-!
What a flush does, whatever the spool holds and however the store takes it: the first records go into
the store, the others are lost, and the incomplete line stays.
-/

namespace ClauseExchange

namespace Spool

@[ext] theorem ext {first second : Spool} (newest : first.newest = second.newest)
    (capacity : first.capacity = second.capacity) : first = second := by
  obtain ⟨newest, size, capacity, held, _, _⟩ := first
  obtain ⟨_, _, _, other, _, _⟩ := second
  subst newest capacity held other
  rfl

theorem dropRecords_of_free {spool : Spool} {separator : UInt8}
    (free : separator ∉ spool.contents) : spool.dropRecords separator = spool := by
  apply ext
  · have passes : ∀ byte ∈ spool.newest, (byte != separator) = true := by
      intro byte member
      rw [bne_iff_ne]
      rintro rfl
      exact free (List.mem_reverse.mpr member)
    exact List.takeWhile_eq_self_iff.mpr passes
  · rfl

theorem records_of_free {spool : Spool} {separator : UInt8} (free : separator ∉ spool.contents) :
    spool.records separator = [] := by
  have none : spool.contents = frame separator [] ++ spool.contents := by simp [frame_nil]
  exact records_of_contents none nofun free

theorem free_of_isEmpty {spool : Spool} (empty : spool.isEmpty = true) (separator : UInt8) :
    separator ∉ spool.contents := by
  simp [contents_eq_nil_iff.mpr empty]

end Spool

namespace Tracer

def records (tracer : Tracer) : List Bytes :=
  tracer.spool.records tracer.encoding.separator

def delivery (tracer : Tracer) (written : Nat) : Delivery where
  written
  dropped := tracer.records.length - written
  retained := (tracer.spool.dropRecords tracer.encoding.separator).size

def relieve (tracer : Tracer) (written : Nat) : Tracer :=
  { tracer with
    spool := tracer.spool.dropRecords tracer.encoding.separator
    tally := tracer.tally.countDelivery (tracer.delivery written) }

theorem relieve_of_free {tracer : Tracer}
    (free : tracer.encoding.separator ∉ tracer.spool.contents) : tracer.relieve 0 = tracer := by
  have none := Spool.records_of_free free
  simp [relieve, delivery, records, none, Spool.dropRecords_of_free free, Tally.countDelivery]

end Tracer

namespace Tracing

def deliverable (tracing : Tracing) : Nat :=
  tracing.channel.store.admitted tracing.tracer.records.length

@[simp] theorem session_note (channel : Channel) (notice : Notice) :
    (channel.note notice).session = channel.session := rfl

@[simp] theorem store_note (channel : Channel) (notice : Notice) :
    (channel.note notice).store = channel.store := rfl

theorem settle_spec (delivery : Delivery) (tracing : Tracing) :
    (tracing.settle delivery).tracer =
        { tracing.tracer with
          spool := tracing.tracer.spool.dropRecords tracing.tracer.encoding.separator
          tally := tracing.tracer.tally.countDelivery delivery } ∧
      (tracing.settle delivery).channel.session = tracing.channel.session ∧
      (tracing.settle delivery).channel.store = tracing.channel.store := by
  unfold settle
  by_cases lost : 0 < delivery.dropped
  · simp [lost, note]
  · simp [lost, note]

theorem flush_yields (tracing : Tracing) :
    Yields tracing.flush
      (fun delivery flushed =>
        delivery = tracing.tracer.delivery tracing.deliverable ∧
          flushed.tracer = tracing.tracer.relieve tracing.deliverable ∧
          Channel.Sent tracing.tracer.records tracing.channel tracing.deliverable flushed.channel)
      (Exhausted (tracing.channel.session.nextOutgoing + tracing.deliverable)) := by
  unfold flush
  by_cases empty : tracing.tracer.spool.isEmpty = true
  · have free := Spool.free_of_isEmpty empty tracing.tracer.encoding.separator
    have none : tracing.tracer.records = [] := Spool.records_of_free free
    have nothing : tracing.deliverable = 0 := by
      unfold deliverable
      rw [none]
      exact Nat.le_zero.mp (tracing.channel.store.admitted_le 0)
    rw [if_pos empty, nothing]
    refine ⟨?_, (Tracer.relieve_of_free free).symm, ⟨rfl, Store.Receives.refl _ _⟩⟩
    simp only [Tracer.delivery, none, Spool.dropRecords_of_free free, List.length_nil]
    have size : tracing.tracer.spool.size = 0 := by simpa [Spool.isEmpty] using empty
    rw [size]
  · rw [if_neg empty]
    dsimp only
    rcases (tracing.channel.send_yields
        (tracing.tracer.spool.records tracing.tracer.encoding.separator)).split with
      ⟨fault, sent, outcome, exhausted⟩ | ⟨written, sent, outcome, counted, session, received⟩
    · rw [outcome]
      exact exhausted
    · rw [outcome]
      change written = tracing.deliverable at counted
      subst counted
      obtain ⟨tracer, sameSession, sameStore⟩ :=
        settle_spec (tracing.tracer.delivery tracing.deliverable) { tracing with channel := sent }
      have receives : tracing.channel.store.Receives tracing.channel.session.nextOutgoing
          (tracing.tracer.records.take tracing.deliverable)
          (({ tracing with channel := sent } : Tracing).settle
            (tracing.tracer.delivery tracing.deliverable)).channel.store := by
        rw [sameStore]
        exact received
      exact ⟨rfl, tracer, sameSession.trans session, receives⟩

end Tracing

end ClauseExchange
