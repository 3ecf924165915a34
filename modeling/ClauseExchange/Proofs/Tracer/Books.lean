import ClauseExchange.Proofs.Tracer.Emitting
import ClauseExchange.Proofs.Tracer.Ledger

/-!
The books of a tracer between two lines: its counters, its session and its spool agree with a ledger.
They go on with every line that is emitted, and so the tracer keeps to the plan of every request.
-/

namespace ClauseExchange.Tracing

structure Counts (emitted : List Line) (tally : Tally) : Prop where
  added : tally.added = emitted.countP (·.action = .add)
  deleted : tally.deleted = emitted.countP (·.action = .delete)
  lines : tally.lines = emitted.length
  literals : tally.literals = (emitted.map (·.literals.length)).sum

theorem Counts.added_add_deleted {emitted : List Line} {tally : Tally}
    (counts : Counts emitted tally) : tally.added + tally.deleted = tally.lines := by
  have either : ∀ line ∈ emitted,
      decide (line.action = .delete) = true ↔ decide ¬decide (line.action = .add) = true := by
    intro line _
    cases line.action <;> simp
  rw [counts.added, counts.deleted, counts.lines, List.countP_congr either]
  exact (List.length_eq_countP_add_countP _).symm

theorem Counts.advance {lines emitted : List Line} {before after : Tracing}
    (counts : Counts lines before.tracer.tally) (emits : Emits emitted before after) :
    Counts (lines ++ emitted) after.tracer.tally where
  added := by rw [emits.added, counts.added, List.countP_append]
  deleted := by rw [emits.deleted, counts.deleted, List.countP_append]
  lines := by rw [emits.lines, counts.lines, List.length_append]
  literals := by rw [emits.literals, counts.literals, List.map_append, List.sum_append]

structure Accounts (first : Nat) (ledger : Ledger) (tracing : Tracing) : Prop
    extends Agrees first ledger [] tracing where
  counts : Counts ledger.lines tracing.tracer.tally
  prompt : tracing.tracer.flushEachLine = true → ledger.pending = []

structure Books (first : Nat) (ledger : Ledger) (tracing : Tracing) : Prop
    extends Accounts first ledger tracing where
  draft : tracing.tracer.draft = []
  watched : Watched ledger.lines tracing.tracer.audit

variable {σ : Type} {first : Nat} {ledger : Ledger} {before after tracing : Tracing}
  {emitted : List Line}

namespace Books

theorem ready (books : Books first ledger tracing) : Ready ledger.lines tracing :=
  ⟨books.draft, books.watched⟩

/-- The books do not depend on who else uses the store. -/
theorem moved {tracer : Tracer} {link other : Channel}
    (books : Books first ledger ⟨tracer, link⟩)
    (next : other.session.nextOutgoing = link.session.nextOutgoing) :
    Books first ledger ⟨tracer, other⟩ where
  contents := books.contents
  next := next.trans books.next
  records := books.records
  dropped := books.dropped
  counts := books.counts
  prompt := books.prompt
  draft := books.draft
  watched := books.watched

/-- The books go on with the lines that are emitted. -/
theorem advance (books : Books first ledger before) (emits : Emits emitted before after)
    (ready : Ready (ledger.lines ++ emitted) after) :
    ∃ news next, Books first next after ∧
      Progress first news emitted [] ledger before next after := by
  obtain ⟨taken, written, streams⟩ := emits.streams
  obtain ⟨news, next, agrees, settled, lines, stored, all⟩ :=
    books.toAgrees.streams streams (List.append_nil _).symm List.not_mem_nil
  refine ⟨news, next, ⟨⟨agrees, ?_, ?_⟩, ready.draft, ?_⟩, ?_⟩
  · rw [lines]
    exact books.counts.advance emits
  · intro prompt
    rw [emits.flushEachLine] at prompt
    have empty : before.tracer.spool.contents = [] := by
      rw [books.contents, books.prompt prompt]
      rfl
    apply agrees.pending_eq_nil
    rw [emits.prompt prompt empty]
    exact List.not_mem_nil
  · rw [lines]
    exact ready.watched
  · have received := streams.store
    rw [stored, books.next] at received
    exact ⟨settled, lines, .ofReceives received, fun isOpen _ => all (streams.kept isOpen),
      streams.encoding, emits.flushEachLine, emits.audited⟩

/-- Where emitting lines meets its fault, the numbers do not suffice for all lines. -/
theorem exhausted {fault : Fault} (books : Books first ledger before)
    (halts : Halts emitted before fault after) :
    Exhausted (first + (ledger.lines.length + emitted.length)) fault after := by
  refine ⟨halts.outOfNumbers.1, Nat.le_trans halts.bound ?_⟩
  have room := ledger.length_stored_add_length_pending_le
  rw [List.count_append, books.count_separator List.not_mem_nil, ← frame_records,
    count_frame (separator_not_mem_records _ _), List.length_map, books.next]
  omega

end Books

/-- What became of an operation that had a plan: the books go on, and the answer is the planned one. -/
def Follows (first : Nat) (ledger : Ledger) (before : Tracing) (plan : Plan)
    (answer : Except TraceError Unit) (after : Tracing) : Prop :=
  answer = plan.answer ∧ ∃ news next, Books first next after ∧
    Progress first news plan.lines [] ledger before next after

theorem perform_follows (books : Books first ledger tracing) (solver : Solver σ)
    (state : SolverState σ) (request : Request) :
    Yields (tracing.perform solver state request)
      (Follows first ledger tracing
        (request.plan solver state (Plan.barsEmpty tracing.tracer.audit.isSome ledger.lines)))
      (Exhausted (first + (ledger.lines.length +
        (request.plan solver state
          (Plan.barsEmpty tracing.tracer.audit.isSome ledger.lines)).lines.length))) :=
  (perform_executes books.ready solver state request).imp
    (fun _ _ ⟨told, emits, ready, _⟩ => ⟨told, books.advance emits ready⟩)
    (fun _ _ halts => books.exhausted halts)

/-- After a flush no line is pending. -/
theorem flush_books (books : Books first ledger tracing) :
    Yields tracing.flush
      (fun _ flushed => ∃ news next, Books first next flushed ∧ next.pending = [] ∧
        Progress first news [] [] ledger tracing next flushed)
      (Exhausted (first + ledger.lines.length)) := by
  refine tracing.flush_emits.imp ?_ (fun _ _ halts => books.exhausted halts)
  rintro _ flushed ⟨emits, sameLine, free⟩
  have ready := books.ready.ofSameLine sameLine
  rw [← List.append_nil ledger.lines] at ready
  obtain ⟨news, next, booksAfter, progress⟩ := books.advance emits ready
  rw [← progress.encoding] at free
  exact ⟨news, next, booksAfter, booksAfter.pending_eq_nil free, progress⟩

end ClauseExchange.Tracing
