import ClauseExchange.Proofs.Tracer.Flushing
import Mathlib.Algebra.GroupWithZero.Nat

/-!
What passes through the spool, whatever it holds to begin with. Bytes are put in behind those that are
there, and from time to time the records in front are taken out: as many as the store takes are
written, and the others are lost. No byte is lost in between, and room is always made.
-/

namespace ClauseExchange

/-- A tracer and another one that wrote some bytes and flushed in between, within one line. -/
def Tracer.SameLine (before after : Tracer) : Prop :=
  ∃ spool delivery,
    after = { before with spool, tally := before.tally.countDelivery delivery }

namespace Tracer.SameLine

theorem refl (tracer : Tracer) : SameLine tracer tracer :=
  ⟨tracer.spool, {}, rfl⟩

theorem trans {before middle after : Tracer} (earlier : SameLine before middle)
    (later : SameLine middle after) : SameLine before after := by
  obtain ⟨_, first, rfl⟩ := earlier
  obtain ⟨spool, second, rfl⟩ := later
  refine ⟨spool,
    { written := first.written + second.written, dropped := first.dropped + second.dropped }, ?_⟩
  simp [Tally.countDelivery, Nat.add_assoc]

end Tracer.SameLine

namespace Tracing

/-- Two moments of tracing with the same bytes, the same counts and the same store. -/
structure Alike (before after : Tracing) : Prop where
  contents : after.tracer.spool.contents = before.tracer.spool.contents
  encoding : after.tracer.encoding = before.tracer.encoding
  flushEachLine : after.tracer.flushEachLine = before.tracer.flushEachLine
  tally : after.tracer.tally = before.tracer.tally
  audited : after.tracer.audit.isSome = before.tracer.audit.isSome
  session : after.channel.session = before.channel.session
  store : after.channel.store = before.channel.store

namespace Alike

variable {before after : Tracing}

theorem note (tracing : Tracing) (notice : Notice) : Alike tracing (tracing.note notice) :=
  ⟨rfl, rfl, rfl, rfl, rfl, rfl, rfl⟩

theorem clearDraft (tracing : Tracing) : Alike tracing tracing.clearDraft :=
  ⟨rfl, rfl, rfl, rfl, Option.isSome_map, rfl, rfl⟩

end Alike

/-- One tracer, and channels with one session and one store. -/
structure SameButJournal (first second : Tracing) : Prop where
  tracer : first.tracer = second.tracer
  session : first.channel.session = second.channel.session
  store : first.channel.store = second.channel.store

namespace SameButJournal

theorem refl (tracing : Tracing) : SameButJournal tracing tracing :=
  ⟨rfl, rfl, rfl⟩

theorem note (tracing : Tracing) (notice : Notice) : SameButJournal (tracing.note notice) tracing :=
  ⟨rfl, rfl, rfl⟩

end SameButJournal

theorem alike_widen (tracing : Tracing) : Alike tracing tracing.widen := by
  unfold widen
  split
  · exact ⟨tracing.tracer.spool.contents_double, rfl, rfl, rfl, rfl, rfl, rfl⟩
  · exact ⟨rfl, rfl, rfl, rfl, rfl, rfl, rfl⟩

theorem sameLine_widen (tracing : Tracing) : tracing.tracer.SameLine tracing.widen.tracer := by
  unfold widen
  split
  · exact ⟨_, {}, rfl⟩
  · exact Tracer.SameLine.refl _

theorem isFull_widen (tracing : Tracing) : tracing.widen.tracer.spool.isFull = false := by
  unfold widen
  split
  case isTrue full =>
      have bounded := tracing.tracer.spool.size_le
      have positive := tracing.tracer.spool.capacity_pos
      change (tracing.tracer.spool.size == 2 * tracing.tracer.spool.capacity) = false
      rw [beq_eq_false_iff_ne]
      omega
  case isFalse room => exact eq_false_of_ne_true room

/-- Bytes were put into the spool, and records were taken out of it, some of which were written. -/
structure Streams (bytes : Bytes) (taken written : List Bytes) (before after : Tracing) : Prop where
  stream : frame before.tracer.encoding.separator taken ++ after.tracer.spool.contents =
    before.tracer.spool.contents ++ bytes
  whole : ∀ record ∈ taken, before.tracer.encoding.separator ∉ record
  fewer : written.Sublist taken
  kept : before.channel.store.IsOpen → written = taken
  store : before.channel.store.Receives before.channel.session.nextOutgoing written
    after.channel.store
  session : after.channel.session = Channel.moveOn before.channel.session written.length
  records : after.tracer.tally.records = before.tracer.tally.records + written.length
  dropped : after.tracer.tally.dropped + written.length =
    before.tracer.tally.dropped + taken.length
  encoding : after.tracer.encoding = before.tracer.encoding

namespace Streams

variable {bytes more : Bytes} {taken written late lateWritten : List Bytes}
  {before middle after : Tracing}

theorem trans (earlier : Streams bytes taken written before middle)
    (later : Streams more late lateWritten middle after) :
    Streams (bytes ++ more) (taken ++ late) (written ++ lateWritten) before after where
  stream := by
    have stream := later.stream
    rw [earlier.encoding] at stream
    rw [frame_append, List.append_assoc, stream, ← List.append_assoc, earlier.stream,
      List.append_assoc]
  whole := by
    have whole := later.whole
    rw [earlier.encoding] at whole
    exact List.forall_mem_append.mpr ⟨earlier.whole, whole⟩
  fewer := earlier.fewer.append later.fewer
  kept := by
    intro isOpen
    rw [earlier.kept isOpen, later.kept (earlier.store.isOpen isOpen)]
  store := by
    have store := later.store
    rw [earlier.session] at store
    exact earlier.store.trans store
  session := by rw [later.session, earlier.session, Channel.moveOn_moveOn, List.length_append]
  records := by rw [later.records, earlier.records, List.length_append, Nat.add_assoc]
  dropped := by
    have first := earlier.dropped
    have second := later.dropped
    rw [List.length_append, List.length_append]
    omega
  encoding := later.encoding.trans earlier.encoding

theorem ofAlike (alike : Alike before after) : Streams [] [] [] before after where
  stream := by rw [frame_nil, alike.contents, List.append_nil, List.nil_append]
  whole := nofun
  fewer := .refl []
  kept := fun _ => rfl
  store := by
    rw [alike.store]
    exact .refl _ _
  session := alike.session
  records := by rw [alike.tally]; rfl
  dropped := by rw [alike.tally]
  encoding := alike.encoding

theorem refl (tracing : Tracing) : Streams [] [] [] tracing tracing :=
  ofAlike ⟨rfl, rfl, rfl, rfl, rfl, rfl, rfl⟩

/-- Where the last byte put in is a separator and no separator is left, nothing is left. -/
theorem contents_eq_nil {record : Bytes}
    (streams : Streams (record ++ [before.tracer.encoding.separator]) taken written before after)
    (free : before.tracer.encoding.separator ∉ after.tracer.spool.contents) :
    after.tracer.spool.contents = [] := by
  rcases List.eq_nil_or_concat' after.tracer.spool.contents with empty | ⟨earlier, last, ended⟩
  · exact empty
  · have stream := streams.stream
    rw [ended, ← List.append_assoc, ← List.append_assoc] at stream
    have same := (List.append_inj' stream rfl).2
    rw [List.singleton_inj] at same
    rw [ended, same] at free
    exact absurd (List.mem_append_right _ (List.mem_singleton_self _)) free

end Streams

/-- Bytes of one line were put into the spool. -/
def Passes (bytes : Bytes) (before after : Tracing) : Prop :=
  (∃ taken written, Streams bytes taken written before after) ∧
    before.tracer.SameLine after.tracer

theorem Passes.trans {bytes more : Bytes} {before middle after : Tracing}
    (earlier : Passes bytes before middle) (later : Passes more middle after) :
    Passes (bytes ++ more) before after := by
  obtain ⟨⟨_, _, first⟩, sameLine⟩ := earlier
  obtain ⟨⟨_, _, second⟩, further⟩ := later
  exact ⟨⟨_, _, first.trans second⟩, sameLine.trans further⟩

theorem Passes.refl (tracing : Tracing) : Passes [] tracing tracing :=
  ⟨⟨[], [], .refl tracing⟩, Tracer.SameLine.refl _⟩

/-- The fault of an operation that puts bytes into the spool: the numbers for records have run out,
and with as many records as there are separators it was bound to come to that. -/
structure Stops (bytes : Bytes) (before : Tracing) (fault : Fault) (after : Tracing) : Prop where
  outOfNumbers : after.channel.OutOfNumbers fault
  bound : Key.numberBound ≤ before.channel.session.nextOutgoing +
    (before.tracer.spool.contents ++ bytes).count before.tracer.encoding.separator

namespace Stops

variable {bytes more : Bytes} {taken written : List Bytes} {before middle after : Tracing}
  {fault : Fault}

theorem append (stops : Stops bytes before fault after) (more : Bytes) :
    Stops (bytes ++ more) before fault after where
  outOfNumbers := stops.outOfNumbers
  bound := by
    have bound := stops.bound
    rw [← List.append_assoc, List.count_append]
    omega

theorem since (stops : Stops more middle fault after)
    (streams : Streams bytes taken written before middle) :
    Stops (bytes ++ more) before fault after where
  outOfNumbers := stops.outOfNumbers
  bound := by
    have bound := stops.bound
    have few := streams.fewer.length_le
    rw [← List.append_assoc, ← streams.stream, List.append_assoc, List.count_append,
      count_frame streams.whole]
    rw [streams.session, streams.encoding] at bound
    simp only [Channel.moveOn] at bound
    omega

end Stops

variable (tracing : Tracing)

theorem deliverable_le : tracing.deliverable ≤ tracing.tracer.records.length :=
  tracing.channel.store.admitted_le _

theorem flush_stops :
    Yields tracing.flush (fun _ _ => True) (fun fault after => after.channel.OutOfNumbers fault) := by
  unfold flush
  split
  · trivial
  · dsimp only
    rcases (tracing.channel.send_stops
        (tracing.tracer.spool.records tracing.tracer.encoding.separator)).split with
      ⟨fault, sent, outcome, stops⟩ | ⟨written, sent, outcome, _⟩
    · rw [outcome]
      exact stops
    · rw [outcome]
      trivial

theorem flush_streams :
    Yields tracing.flush
      (fun delivery flushed =>
        delivery = tracing.tracer.delivery tracing.deliverable ∧
          Streams [] tracing.tracer.records (tracing.tracer.records.take tracing.deliverable)
            tracing flushed ∧
          tracing.tracer.SameLine flushed.tracer ∧
          tracing.tracer.encoding.separator ∉ flushed.tracer.spool.contents)
      (Stops [] tracing) := by
  obtain ⟨contents, whole, free⟩ :=
    tracing.tracer.spool.frame_records_append tracing.tracer.encoding.separator
  have few := tracing.deliverable_le
  refine (tracing.flush_yields.both tracing.flush_stops).imp ?_ ?_
  · rintro delivery flushed ⟨⟨told, tracer, session, received⟩, _⟩
    have count : (tracing.tracer.records.take tracing.deliverable).length =
        tracing.deliverable := List.length_take_of_le few
    refine ⟨told, ?_, ?_, ?_⟩
    · constructor
      case stream =>
        rw [tracer, List.append_nil]
        exact contents
      case whole => exact whole
      case fewer => exact List.take_sublist _ _
      case kept =>
        intro isOpen
        rw [deliverable, isOpen.admitted_eq, List.take_length]
      case store => exact received
      case session => rw [session, count]
      case records => rw [tracer, count]; rfl
      case dropped =>
        rw [tracer, count]
        change _ + (tracing.tracer.records.length - tracing.deliverable) + _ = _
        omega
      case encoding => rw [tracer]; rfl
    · rw [tracer]
      exact ⟨_, _, rfl⟩
    · rw [tracer]
      exact free
  · rintro fault after ⟨exhausted, outOfNumbers⟩
    refine ⟨outOfNumbers, Nat.le_trans exhausted.2 ?_⟩
    rw [List.append_nil, ← contents, List.count_append, count_frame whole]
    change _ + _ ≤ _ + (tracing.tracer.records.length + _)
    omega

theorem makeRoom_passes :
    Yields tracing.makeRoom
      (fun _ roomy => Passes [] tracing roomy ∧ roomy.tracer.spool.isFull = false)
      (Stops [] tracing) := by
  unfold makeRoom
  split
  case isTrue full =>
    rcases tracing.flush_streams.split with
      ⟨fault, flushed, outcome, stops⟩ | ⟨delivery, flushed, outcome, _, streams, sameLine, _⟩
    · rw [outcome]
      exact stops
    · rw [outcome]
      have widened : Passes [] flushed flushed.widen :=
        ⟨⟨[], [], .ofAlike (alike_widen flushed)⟩, sameLine_widen flushed⟩
      exact ⟨Passes.trans ⟨⟨_, _, streams⟩, sameLine⟩ widened, isFull_widen flushed⟩
  case isFalse room => exact ⟨.refl tracing, eq_false_of_ne_true room⟩

theorem put_passes (byte : UInt8) :
    Yields (tracing.put byte) (fun _ after => Passes [byte] tracing after)
      (Stops [byte] tracing) := by
  unfold put
  rcases tracing.makeRoom_passes.split with
    ⟨fault, roomy, outcome, stops⟩ | ⟨_, roomy, outcome, made, room⟩
  · rw [outcome]
    exact stops.append [byte]
  · rw [outcome]
    dsimp only
    cases push : roomy.tracer.spool.push? byte with
    | none => exact absurd (Spool.push?_eq_none_iff.mp push) (by simp [room])
    | some spool =>
        have held := Streams.refl roomy
        have pushed : Streams [byte] [] [] roomy
            { roomy with tracer := { roomy.tracer with spool } } := by
          refine ⟨?_, held.whole, held.fewer, held.kept, held.store, held.session, held.records,
            held.dropped, held.encoding⟩
          exact Spool.contents_of_push? push
        have further : Passes [byte] roomy { roomy with tracer := { roomy.tracer with spool } } :=
          ⟨⟨[], [], pushed⟩, spool, {}, rfl⟩
        exact made.trans further

theorem putAll_passes (bytes : Bytes) :
    Yields (tracing.putAll bytes) (fun _ after => Passes bytes tracing after)
      (Stops bytes tracing) := by
  induction bytes generalizing tracing with
  | nil => exact .refl tracing
  | cons byte bytes induction =>
      unfold putAll
      rcases (tracing.put_passes byte).split with
        ⟨fault, middle, outcome, stops⟩ | ⟨_, middle, outcome, passes⟩
      · rw [outcome]
        exact stops.append bytes
      · rw [outcome]
        obtain ⟨_, _, streams⟩ := passes.1
        exact (induction middle).imp (fun _ _ further => passes.trans further)
          (fun _ _ stops => stops.since streams)

end Tracing

end ClauseExchange
