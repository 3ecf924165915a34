import ClauseExchange.Proofs.Solver.KeepsStack
import ClauseExchange.Proofs.Tracer.Run

/-!
What runs of a tracer keep. On a store that takes every write, the records and the bytes in the spool
are the stream of all lines emitted; on any store, every line emitted has one fate and every counter
agrees with it.
-/

namespace ClauseExchange

namespace Tracing

variable {σ : Type}

/-- The stream of lines on its way from a channel: the records under the channel's next numbers, and
behind them the bytes in the spool. No other record of the solver has changed. -/
structure Conserves (encoding : Encoding) (channel : Channel) (lines : List Line)
    (tracing : Tracing) : Prop where
  stream : ∃ records : List Bytes,
    tracing.channel.session.nextOutgoing = channel.session.nextOutgoing + records.length ∧
      (∀ index record, records[index]? = some record →
        tracing.channel.store.value? (Key.outgoing (channel.session.nextOutgoing + index)) =
          some record) ∧
      frame encoding.separator records ++ tracing.tracer.spool.contents =
        lines.flatMap (Line.encode encoding)
  others : ∀ number,
    number < channel.session.nextOutgoing ∨ tracing.channel.session.nextOutgoing ≤ number →
      tracing.channel.store.value? (Key.outgoing number) =
        channel.store.value? (Key.outgoing number)

/-- The end of the stream: each line is a record, in order, and nothing was lost or left over. -/
structure Completes (encoding : Encoding) (channel : Channel) (lines : List Line) (tally : Tally)
    (tracing : Tracing) : Prop where
  next : tracing.channel.session.nextOutgoing = channel.session.nextOutgoing + lines.length
  held : ∀ index line, lines[index]? = some line →
    tracing.channel.store.value? (Key.outgoing (channel.session.nextOutgoing + index)) =
      some (line.record encoding)
  others : ∀ number,
    number < channel.session.nextOutgoing ∨
        channel.session.nextOutgoing + lines.length ≤ number →
      tracing.channel.store.value? (Key.outgoing number) =
        channel.store.value? (Key.outgoing number)
  empty : tracing.tracer.spool.contents = []
  records : tally.records = lines.length
  dropped : tally.dropped = 0

/-- Every line has one fate, and the counters, the store and the spool show it. -/
structure Reconciles (encoding : Encoding) (channel : Channel) (deeds : List Store.Deed)
    (ledger : Ledger) (tracing : Tracing) : Prop where
  next : tracing.channel.session.nextOutgoing =
    channel.session.nextOutgoing + tracing.tracer.tally.records
  records : tracing.tracer.tally.records = ledger.stored.length
  dropped : tracing.tracer.tally.dropped = ledger.dropped.length
  held : ∀ index line, ledger.stored[index]? = some line →
    tracing.channel.store.value? (Key.outgoing (channel.session.nextOutgoing + index)) =
      some (line.record encoding)
  others : ∀ number,
    number < channel.session.nextOutgoing ∨ tracing.channel.session.nextOutgoing ≤ number →
      tracing.channel.store.value? (Key.outgoing number) =
        channel.store.value? (Key.outgoing number)
  /-- Each number was written once, in its turn. -/
  course : Store.Course channel.session.nextOutgoing (ledger.stored.map (Line.record encoding))
    deeds channel.store tracing.channel.store
  pending : tracing.tracer.spool.contents = ledger.pending.flatMap (Line.encode encoding)
  balance : tracing.tracer.tally.records + tracing.tracer.tally.dropped +
    tracing.tracer.spool.contents.count encoding.separator = tracing.tracer.tally.lines
  lines : tracing.tracer.tally.lines = ledger.lines.length
  changes : tracing.tracer.tally.added + tracing.tracer.tally.deleted = tracing.tracer.tally.lines
  literals : tracing.tracer.tally.literals =
    (ledger.lines.map fun line => line.literals.length).sum

section

variable {encoding : Encoding} {settings : Settings} {capacity : Nat} {channel : Channel}
  {news : List (Line × Fate)} {lines : List Line} {deeds : List Store.Deed} {ledger : Ledger}
  {tracing : Tracing}

theorem stored_of_progress
    (progress : Progress channel.session.nextOutgoing news lines deeds {}
      ⟨Tracer.start encoding settings capacity, channel⟩ ledger tracing) :
    Fate.stored.among news = ledger.stored := by
  rw [progress.stored]
  rfl

theorem course_of_progress
    (progress : Progress channel.session.nextOutgoing news lines deeds {}
      ⟨Tracer.start encoding settings capacity, channel⟩ ledger tracing) :
    Store.Course channel.session.nextOutgoing (ledger.stored.map (Line.record encoding)) deeds
      channel.store tracing.channel.store := by
  have course := progress.course
  rw [stored_of_progress progress] at course
  exact course

theorem reconciles_of_books
    (spares : ∀ deed ∈ deeds, deed.Spares Key.outgoingStem)
    (books : Books channel.session.nextOutgoing ledger tracing)
    (progress : Progress channel.session.nextOutgoing news lines deeds {}
      ⟨Tracer.start encoding settings capacity, channel⟩ ledger tracing) :
    Reconciles encoding channel deeds ledger tracing := by
  have course := course_of_progress progress
  have same : tracing.tracer.encoding = encoding := progress.encoding
  have pending : tracing.tracer.spool.contents =
      ledger.pending.flatMap (Line.encode encoding) := by
    rw [books.contents, same, List.append_nil]
  have next : tracing.channel.session.nextOutgoing =
      channel.session.nextOutgoing + tracing.tracer.tally.records := by
    rw [books.next, books.records]
  constructor
  case next => exact next
  case records => exact books.records
  case dropped => exact books.dropped
  case held =>
    intro index line here
    apply course.value? spares
    rw [List.getElem?_map, here]
    rfl
  case others =>
    intro number outside
    apply course.value?_of_ne spares
    rw [List.length_map, ← books.records, ← next]
    exact outside
  case course => exact course
  case pending => exact pending
  case balance =>
    rw [← same, books.count_separator List.not_mem_nil, books.records, books.dropped,
      books.counts.lines, ledger.length_settled, Ledger.lines, List.length_append, List.length_map]
  case lines => exact books.counts.lines
  case changes => exact books.counts.added_add_deleted
  case literals => exact books.counts.literals

theorem lines_of_progress (isOpen : channel.store.IsOpen)
    (keeps : ∀ deed ∈ deeds, deed.KeepsOpen)
    (progress : Progress channel.session.nextOutgoing news lines deeds {}
      ⟨Tracer.start encoding settings capacity, channel⟩ ledger tracing) :
    ledger.dropped = [] ∧ lines = ledger.stored ++ ledger.pending := by
  have kept : ledger.dropped = [] := by
    rw [Ledger.dropped, progress.settled]
    exact progress.kept isOpen keeps
  refine ⟨kept, ?_⟩
  rw [← Ledger.lines_of_dropped_eq_nil kept, progress.lines]
  rfl

theorem conserves_of_books (isOpen : channel.store.IsOpen)
    (undisturbed : ∀ deed ∈ deeds, deed.Spares Key.outgoingStem ∧ deed.KeepsOpen)
    (books : Books channel.session.nextOutgoing ledger tracing)
    (progress : Progress channel.session.nextOutgoing news lines deeds {}
      ⟨Tracer.start encoding settings capacity, channel⟩ ledger tracing) :
    Conserves encoding channel lines tracing := by
  have spares := fun deed member => (undisturbed deed member).1
  have keeps := fun deed member => (undisturbed deed member).2
  have reconciled := reconciles_of_books spares books progress
  obtain ⟨_, parts⟩ := lines_of_progress isOpen keeps progress
  refine ⟨⟨ledger.stored.map (Line.record encoding), ?_, ?_, ?_⟩, reconciled.others⟩
  · rw [List.length_map]
    exact books.next
  · intro index record here
    exact reconciled.course.value? spares here
  · rw [frame_records, reconciled.pending, parts, List.flatMap_append]

theorem completes_of_books (isOpen : channel.store.IsOpen)
    (undisturbed : ∀ deed ∈ deeds, deed.Spares Key.outgoingStem ∧ deed.KeepsOpen)
    (books : Books channel.session.nextOutgoing ledger tracing)
    (progress : Progress channel.session.nextOutgoing news lines deeds {}
      ⟨Tracer.start encoding settings capacity, channel⟩ ledger tracing)
    (nothing : ledger.pending = []) :
    Completes encoding channel lines tracing.tracer.tally tracing := by
  have spares := fun deed member => (undisturbed deed member).1
  have keeps := fun deed member => (undisturbed deed member).2
  have reconciled := reconciles_of_books spares books progress
  obtain ⟨kept, parts⟩ := lines_of_progress isOpen keeps progress
  rw [nothing, List.append_nil] at parts
  subst parts
  refine ⟨books.next, reconciled.held, ?_, ?_, books.records, ?_⟩
  · rw [← books.next]
    exact reconciled.others
  · rw [reconciled.pending, nothing]
    rfl
  · rw [books.dropped, kept]
    rfl

end

variable (solver : Solver σ) (encoding : Encoding) (settings : Settings) (capacity : Nat)
  (channel : Channel) (steps more : List (Step σ))

/-- On a store that takes every write, no byte of the stream of lines is lost, doubled or moved,
wherever in a line the flushes fall. A fault can only be that the numbers for records run out. -/
theorem run_conserves_bytes (isOpen : channel.store.IsOpen)
    (undisturbed : ∀ deed ∈ steps.flatMap Step.deeds,
      deed.Spares Key.outgoingStem ∧ deed.KeepsOpen) :
    Yields (run solver steps ⟨Tracer.start encoding settings capacity, channel⟩)
      (fun _ after =>
        Conserves encoding channel (Step.emitted solver settings.audit steps) after ∧
          (settings.flushEachLine = true → after.tracer.spool.contents = []) ∧
          Yields after.finish
            (Completes encoding channel (Step.emitted solver settings.audit steps))
            (Exhausted (channel.session.nextOutgoing +
              (Step.emitted solver settings.audit steps).length)))
      (Exhausted (channel.session.nextOutgoing +
        (Step.emitted solver settings.audit steps).length)) := by
  have running := run_follows (start_books encoding settings capacity channel) solver steps
  dsimp only at running
  rw [isSome_audit_start] at running
  refine running.imp ?_ ?_
  · rintro answers after ⟨_, news, ledger, books, progress⟩
    refine ⟨conserves_of_books isOpen undisturbed books progress, ?_, ?_⟩
    · intro prompt
      have empty : ledger.pending = [] := books.prompt (progress.flushEachLine.trans prompt)
      rw [books.contents, empty]
      rfl
    · refine (finish_books books).imp ?_ ?_
      · rintro tally finished ⟨rfl, later, last, settled, nothing, further⟩
        have whole := progress.trans further
        rw [List.append_nil, List.append_nil] at whole
        exact completes_of_books isOpen undisturbed settled whole nothing
      · intro fault state exhausted
        rw [progress.lines] at exhausted
        exact exhausted
  · intro fault state exhausted
    apply exhausted.mono
    rw [show (({} : Ledger).lines).length = 0 from rfl, Nat.zero_add]
    exact Nat.le_refl _

/-- A run in which a peer leaves a contribution while a line is still in the spool. -/
def besidePeer : List (Step Unit) :=
  [.perform ⟨(), #[]⟩ (.add [1, 2]), .outside (.push (Key.incoming 0) [52]), .flush]

theorem besidePeer_undisturbed : ∀ deed ∈ besidePeer.flatMap Step.deeds,
    deed.Spares Key.outgoingStem ∧ deed.KeepsOpen := by
  intro deed member
  cases List.mem_singleton.mp member
  exact ⟨fun number same => Key.outgoing_ne_incoming number 0 same.symm, trivial⟩

theorem run_conserves_bytes_besidePeer :
    Store.IsOpen {} ∧
      (∀ deed ∈ besidePeer.flatMap Step.deeds,
        deed.Spares Key.outgoingStem ∧ deed.KeepsOpen) ∧
      Yields (run .plain besidePeer ⟨Tracer.start .text {} 0, ⟨Session.ofSettings {}, {}, #[]⟩⟩)
        (fun _ after =>
          Conserves .text ⟨Session.ofSettings {}, {}, #[]⟩ (Step.emitted .plain true besidePeer)
              after ∧
            (false = true → after.tracer.spool.contents = []) ∧
            Yields after.finish
              (Completes .text ⟨Session.ofSettings {}, {}, #[]⟩
                (Step.emitted .plain true besidePeer))
              (Exhausted (0 + (Step.emitted .plain true besidePeer).length)))
        (Exhausted (0 + (Step.emitted .plain true besidePeer).length)) :=
  ⟨⟨rfl, rfl⟩, besidePeer_undisturbed,
    run_conserves_bytes .plain .text {} 0 ⟨Session.ofSettings {}, {}, #[]⟩ besidePeer ⟨rfl, rfl⟩
      besidePeer_undisturbed⟩

/-- Whatever the store does between the steps, every line emitted is stored, dropped or pending, and
what is stored or dropped remains so, whatever steps come after. -/
theorem run_reconciles
    (spares : ∀ deed ∈ (steps ++ more).flatMap Step.deeds, deed.Spares Key.outgoingStem) :
    Yields (run solver steps ⟨Tracer.start encoding settings capacity, channel⟩)
      (fun _ middle => ∃ ledger,
        ledger.lines = Step.emitted solver settings.audit steps ∧
          Reconciles encoding channel (steps.flatMap Step.deeds) ledger middle ∧
          Yields (middle.run solver more)
            (fun _ after => ∃ news next,
              next.settled = ledger.settled ++ news ∧
                next.lines = Step.emitted solver settings.audit (steps ++ more) ∧
                Reconciles encoding channel ((steps ++ more).flatMap Step.deeds) next after)
            (Exhausted (channel.session.nextOutgoing +
              (Step.emitted solver settings.audit (steps ++ more)).length)))
      (Exhausted (channel.session.nextOutgoing +
        (Step.emitted solver settings.audit steps).length)) := by
  have running := run_follows (start_books encoding settings capacity channel) solver steps
  dsimp only at running
  rw [isSome_audit_start] at running
  rw [List.flatMap_append] at spares ⊢
  refine running.imp ?_ ?_
  · rintro answers middle ⟨_, news, ledger, books, progress⟩
    have emitted : ledger.lines = Step.emitted solver settings.audit steps := progress.lines
    have audited : middle.tracer.audit.isSome = settings.audit :=
      progress.audited.trans (isSome_audit_start encoding settings capacity)
    have sparesFirst := fun deed member => spares deed (List.mem_append_left _ member)
    refine ⟨ledger, emitted, reconciles_of_books sparesFirst books progress, ?_⟩
    have further := run_follows books solver more
    rw [audited, emitted, ← List.length_append, ← Step.emitted_append] at further
    refine further.imp ?_ (fun _ _ exhausted => exhausted)
    rintro others after ⟨_, later, next, settled, onward⟩
    refine ⟨later, next, onward.settled, ?_, ?_⟩
    · rw [onward.lines, emitted, Step.emitted_append]
    · exact reconciles_of_books spares settled (progress.trans onward)
  · intro fault state exhausted
    apply exhausted.mono
    rw [show (({} : Ledger).lines).length = 0 from rfl, Nat.zero_add]
    exact Nat.le_refl _

def outage : List (Step Unit) :=
  [.perform ⟨(), #[]⟩ (.add [1, 2]), .outside (.reach false), .flush]

def recovery : List (Step Unit) :=
  [.outside (.reach true), .outside (.limit (some 1)), .perform ⟨(), #[]⟩ (.delete [1, 2]), .flush]

theorem outage_recovery_spares : ∀ deed ∈ (outage ++ recovery).flatMap Step.deeds,
    deed.Spares Key.outgoingStem := by
  intro deed member
  change deed ∈ [Store.Deed.reach false, .reach true, .limit (some 1)] at member
  simp only [List.mem_cons, List.not_mem_nil, or_false] at member
  rcases member with rfl | rfl | rfl <;> trivial

theorem run_reconciles_outage :
    (∀ deed ∈ (outage ++ recovery).flatMap Step.deeds, deed.Spares Key.outgoingStem) ∧
      Yields (run .plain outage ⟨Tracer.start .text {} 0, ⟨Session.ofSettings {}, {}, #[]⟩⟩)
        (fun _ middle => ∃ ledger,
          ledger.lines = Step.emitted .plain true outage ∧
            Reconciles .text ⟨Session.ofSettings {}, {}, #[]⟩ (outage.flatMap Step.deeds) ledger
              middle ∧
            Yields (middle.run .plain recovery)
              (fun _ after => ∃ news next,
                next.settled = ledger.settled ++ news ∧
                  next.lines = Step.emitted .plain true (outage ++ recovery) ∧
                  Reconciles .text ⟨Session.ofSettings {}, {}, #[]⟩
                    ((outage ++ recovery).flatMap Step.deeds) next after)
              (Exhausted (0 + (Step.emitted .plain true (outage ++ recovery)).length)))
        (Exhausted (0 + (Step.emitted .plain true outage).length)) :=
  ⟨outage_recovery_spares,
    run_reconciles .plain .text {} 0 ⟨Session.ofSettings {}, {}, #[]⟩ outage recovery
      outage_recovery_spares⟩

end Tracing

end ClauseExchange
