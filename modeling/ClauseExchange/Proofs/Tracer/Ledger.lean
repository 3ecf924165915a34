import ClauseExchange.Proofs.Tracer.Streaming

/-!
A ledger of the lines of a proof: those that have left the spool, each with its fate, and those still
in it. The tracer, its session and the store agree with the ledger, and whatever passes through the
spool, there is a ledger that they agree with afterwards.
-/

namespace ClauseExchange

inductive Fate where
  | stored
  | dropped
deriving DecidableEq

def Fate.among (fate : Fate) (settled : List (Line × Fate)) : List Line :=
  settled.filterMap fun entry => if entry.2 = fate then some entry.1 else none

structure Ledger where
  settled : List (Line × Fate) := []
  pending : List Line := []

namespace Ledger

def lines (ledger : Ledger) : List Line :=
  ledger.settled.map Prod.fst ++ ledger.pending

def stored (ledger : Ledger) : List Line :=
  Fate.stored.among ledger.settled

def dropped (ledger : Ledger) : List Line :=
  Fate.dropped.among ledger.settled

theorem among_append (fate : Fate) (first second : List (Line × Fate)) :
    fate.among (first ++ second) = fate.among first ++ fate.among second :=
  List.filterMap_append

@[simp] theorem among_cons_self (fate : Fate) (line : Line) (settled : List (Line × Fate)) :
    fate.among ((line, fate) :: settled) = line :: fate.among settled :=
  List.filterMap_cons_some (if_pos rfl)

@[simp] theorem among_cons_of_ne {fate other : Fate} (differ : other ≠ fate) (line : Line)
    (settled : List (Line × Fate)) : fate.among ((line, other) :: settled) = fate.among settled :=
  List.filterMap_cons_none (if_neg differ)

theorem length_among (settled : List (Line × Fate)) :
    (Fate.stored.among settled).length + (Fate.dropped.among settled).length = settled.length := by
  induction settled with
  | nil => rfl
  | cons entry settled induction =>
      obtain ⟨line, fate⟩ := entry
      cases fate with
      | stored =>
          rw [among_cons_self, among_cons_of_ne (by decide), List.length_cons, List.length_cons]
          omega
      | dropped =>
          rw [among_cons_self, among_cons_of_ne (by decide), List.length_cons, List.length_cons]
          omega

/-- Some of the lines that leave the spool are stored, and the fate of each is told from that. -/
theorem exists_fates {stored lines : List Line} (fewer : stored.Sublist lines) :
    ∃ news : List (Line × Fate), news.map Prod.fst = lines ∧ Fate.stored.among news = stored := by
  induction fewer with
  | slnil => exact ⟨[], rfl, rfl⟩
  | cons line _ induction =>
      obtain ⟨news, rfl, rfl⟩ := induction
      exact ⟨(line, .dropped) :: news, rfl, among_cons_of_ne (by decide) line news⟩
  | cons_cons line _ induction =>
      obtain ⟨news, rfl, rfl⟩ := induction
      exact ⟨(line, .stored) :: news, rfl, among_cons_self .stored line news⟩

theorem length_settled (ledger : Ledger) :
    ledger.stored.length + ledger.dropped.length = ledger.settled.length :=
  length_among ledger.settled

theorem length_stored_add_length_pending_le (ledger : Ledger) :
    ledger.stored.length + ledger.pending.length ≤ ledger.lines.length := by
  have settled := ledger.length_settled
  rw [lines, List.length_append, List.length_map]
  omega

theorem lines_of_dropped_eq_nil {ledger : Ledger} (kept : ledger.dropped = []) :
    ledger.lines = ledger.stored ++ ledger.pending := by
  obtain ⟨settled, pending⟩ := ledger
  change Fate.dropped.among settled = [] at kept
  change settled.map Prod.fst ++ pending = Fate.stored.among settled ++ pending
  congr 1
  induction settled with
  | nil => rfl
  | cons entry settled induction =>
      obtain ⟨line, fate⟩ := entry
      cases fate with
      | stored =>
          rw [among_cons_of_ne (by decide)] at kept
          rw [among_cons_self, List.map_cons, induction kept]
      | dropped =>
          rw [among_cons_self] at kept
          exact absurd kept (List.cons_ne_nil _ _)

end Ledger

namespace Tracing

/-- The books agree with a ledger; `tail` is what there is of an unfinished line. -/
structure Agrees (first : Nat) (ledger : Ledger) (tail : Bytes) (tracing : Tracing) : Prop where
  contents : tracing.tracer.spool.contents =
    ledger.pending.flatMap (Line.encode tracing.tracer.encoding) ++ tail
  next : tracing.channel.session.nextOutgoing = first + ledger.stored.length
  records : tracing.tracer.tally.records = ledger.stored.length
  dropped : tracing.tracer.tally.dropped = ledger.dropped.length

/-- What happened between two moments of tracing: lines were emitted, lines met their fates, and the
store received one write for each line stored and none besides, apart from the deeds of others. -/
structure Progress (first : Nat) (news : List (Line × Fate)) (emitted : List Line)
    (deeds : List Store.Deed) (ledger : Ledger) (before : Tracing) (next : Ledger)
    (after : Tracing) : Prop where
  settled : next.settled = ledger.settled ++ news
  lines : next.lines = ledger.lines ++ emitted
  course : Store.Course (first + ledger.stored.length)
    ((Fate.stored.among news).map (Line.record before.tracer.encoding)) deeds
    before.channel.store after.channel.store
  kept : before.channel.store.IsOpen → (∀ deed ∈ deeds, deed.KeepsOpen) →
    Fate.dropped.among news = []
  encoding : after.tracer.encoding = before.tracer.encoding
  flushEachLine : after.tracer.flushEachLine = before.tracer.flushEachLine
  audited : after.tracer.audit.isSome = before.tracer.audit.isSome

namespace Progress

variable {first : Nat} {news later : List (Line × Fate)} {emitted more : List Line}
  {deeds others : List Store.Deed} {ledger middle next : Ledger} {before between after : Tracing}

theorem refl (first : Nat) (ledger : Ledger) (tracing : Tracing) :
    Progress first [] [] [] ledger tracing ledger tracing where
  settled := (List.append_nil _).symm
  lines := (List.append_nil _).symm
  course := .start _
  kept := fun _ _ => rfl
  encoding := rfl
  flushEachLine := rfl
  audited := rfl

theorem stored (progress : Progress first news emitted deeds ledger before next after) :
    next.stored = ledger.stored ++ Fate.stored.among news := by
  rw [Ledger.stored, progress.settled, Ledger.among_append]
  rfl

theorem trans (earlier : Progress first news emitted deeds ledger before middle between)
    (further : Progress first later more others middle between next after) :
    Progress first (news ++ later) (emitted ++ more) (deeds ++ others) ledger before next after where
  settled := by rw [further.settled, earlier.settled, List.append_assoc]
  lines := by rw [further.lines, earlier.lines, List.append_assoc]
  course := by
    rw [Ledger.among_append, List.map_append]
    apply earlier.course.trans
    have later := further.course
    rw [earlier.stored, List.length_append, earlier.encoding] at later
    rw [List.length_map, Nat.add_assoc]
    exact later
  kept := by
    intro isOpen keeps
    have keepsEarlier := fun deed member => keeps deed (List.mem_append_left _ member)
    have keepsLater := fun deed member => keeps deed (List.mem_append_right _ member)
    have middleOpen := earlier.course.isOpen keepsEarlier isOpen
    rw [Ledger.among_append, earlier.kept isOpen keepsEarlier, further.kept middleOpen keepsLater]
    rfl
  encoding := further.encoding.trans earlier.encoding
  flushEachLine := further.flushEachLine.trans earlier.flushEachLine
  audited := further.audited.trans earlier.audited

end Progress

variable {first : Nat} {ledger : Ledger} {tail : Bytes} {tracing : Tracing}

/-- Where the spool has no separator, no line is pending. -/
theorem Agrees.pending_eq_nil (agrees : Agrees first ledger tail tracing)
    (free : tracing.tracer.encoding.separator ∉ tracing.tracer.spool.contents) :
    ledger.pending = [] := by
  rw [agrees.contents] at free
  cases pending : ledger.pending with
  | nil => rfl
  | cons line rest =>
      rw [pending] at free
      exact absurd (by simp [Line.encode]) free

/-- As many lines are pending as there are separators in the spool. -/
theorem Agrees.count_separator (agrees : Agrees first ledger tail tracing)
    (tailFree : tracing.tracer.encoding.separator ∉ tail) :
    tracing.tracer.spool.contents.count tracing.tracer.encoding.separator =
      ledger.pending.length := by
  rw [agrees.contents, ← frame_records, List.count_append,
    count_frame (separator_not_mem_records _ _), List.length_map,
    List.count_eq_zero.mpr tailFree, Nat.add_zero]

/-- The records taken out are those of the first lines, and the lines behind them are pending. -/
theorem Agrees.streams {bytes rest : Bytes} {emitted : List Line} {taken written : List Bytes}
    {before after : Tracing} (agrees : Agrees first ledger tail before)
    (streams : Streams bytes taken written before after)
    (whole : tail ++ bytes = emitted.flatMap (Line.encode before.tracer.encoding) ++ rest)
    (restFree : before.tracer.encoding.separator ∉ rest) :
    ∃ (news : List (Line × Fate)) (next : Ledger), Agrees first next rest after ∧
      next.settled = ledger.settled ++ news ∧ next.lines = ledger.lines ++ emitted ∧
        written = (Fate.stored.among news).map (Line.record before.tracer.encoding) ∧
          (written = taken → Fate.dropped.among news = []) := by
  have stream := streams.stream
  rw [agrees.contents, List.append_assoc, whole, ← List.append_assoc, ← List.flatMap_append,
    ← frame_records] at stream
  obtain ⟨others, split, left⟩ := exists_frame_of_append stream streams.whole
    (separator_not_mem_records _ _) restFree
  obtain ⟨gone, pending, apart, rfl, rfl⟩ := List.map_eq_append_iff.mp split
  obtain ⟨stored, fewer, rfl⟩ := List.sublist_map_iff.mp streams.fewer
  obtain ⟨news, rfl, rfl⟩ := Ledger.exists_fates fewer
  let next : Ledger := ⟨ledger.settled ++ news, pending⟩
  have storedNext : next.stored = ledger.stored ++ Fate.stored.among news :=
    Ledger.among_append _ _ _
  have droppedNext : next.dropped = ledger.dropped ++ Fate.dropped.among news :=
    Ledger.among_append _ _ _
  have fates := Ledger.length_among news
  refine ⟨news, next, ⟨?_, ?_, ?_, ?_⟩, rfl, ?_, rfl, ?_⟩
  · rw [left, frame_records, streams.encoding]
  · rw [streams.session, storedNext, List.length_append, ← Nat.add_assoc, ← agrees.next,
      List.length_map]
    rfl
  · rw [streams.records, agrees.records, storedNext, List.length_append, List.length_map]
  · have dropped := streams.dropped
    rw [agrees.dropped, List.length_map, List.length_map, List.length_map] at dropped
    rw [droppedNext, List.length_append]
    omega
  · rw [Ledger.lines, Ledger.lines, List.map_append, List.append_assoc, ← apart,
      List.append_assoc]
  · intro all
    have same := congrArg List.length all
    rw [List.length_map, List.length_map, List.length_map] at same
    exact List.length_eq_zero_iff.mp (by omega)

end Tracing

end ClauseExchange
