import ClauseExchange.Proofs.Participant.Chronicle

/-!
The account of a participant: the chronicle with a ledger for each proof, which says of every line
whether it is stored, dropped or pending. The account goes on with every call, the participant and the
store keep to it, and its lines are those of the chronicle.
-/

namespace ClauseExchange

variable {σ : Type}

namespace Ledger

def tally (ledger : Ledger) : Tally where
  added := ledger.lines.countP (·.action = .add)
  deleted := ledger.lines.countP (·.action = .delete)
  lines := ledger.lines.length
  literals := (ledger.lines.map (·.literals.length)).sum
  records := ledger.stored.length
  dropped := ledger.dropped.length

end Ledger

theorem Tracing.Accounts.tally_eq {first : Nat} {ledger : Ledger} {tracing : Tracing}
    (accounts : Accounts first ledger tracing) : tracing.tracer.tally = ledger.tally := by
  rcases equal : tracing.tracer.tally with ⟨added, deleted, lines, literals, records, dropped⟩
  have counts := accounts.counts
  have records := accounts.records
  have dropped := accounts.dropped
  rw [equal] at counts records dropped
  cases counts.added
  cases counts.deleted
  cases counts.lines
  cases counts.literals
  cases records
  cases dropped
  rfl

namespace Chronicle

/-- The records of the lines that are stored. -/
def deposited (account : Chronicle Ledger) : List Bytes :=
  (account.map Ledger.stored).records

def tallies (account : Chronicle Ledger) : List Tally :=
  account.closed.map fun chapter => chapter.content.tally

/-- No line was dropped. -/
def Whole (account : Chronicle Ledger) : Prop :=
  ∀ chapter ∈ account.chapters, chapter.content.dropped = []

theorem Whole.of_closed {account : Chronicle Ledger} {encoding : Encoding} {ledger : Ledger}
    (closed : ∀ chapter ∈ account.closed, chapter.content.dropped = [])
    (nothing : ledger.dropped = []) :
    Whole { account with current := some ⟨encoding, ledger⟩ } := by
  intro chapter member
  rcases List.mem_append.mp member with old | new
  · exact closed chapter old
  · cases List.mem_singleton.mp new
    exact nothing

theorem deposited_of_none {account : Chronicle Ledger} (current : account.current = none) :
    account.deposited = (account.map Ledger.stored).closedRecords := by
  apply records_of_none
  rw [map, current]
  rfl

theorem deposited_of_some {account : Chronicle Ledger} {chapter : Chapter Ledger}
    (current : account.current = some chapter) :
    account.deposited =
      (account.map Ledger.stored).closedRecords ++
        chapter.content.stored.map (Line.record chapter.encoding) := by
  have mapped : (account.map Ledger.stored).current = some (chapter.map Ledger.stored) := by
    rw [map, current]
    rfl
  exact records_of_some mapped

theorem length_stored_le (chapters : List (Chapter Ledger)) :
    ((chapters.map (Chapter.map Ledger.stored)).flatMap Chapter.records).length ≤
      ((chapters.map (Chapter.map Ledger.lines)).flatMap Chapter.records).length := by
  induction chapters with
  | nil => exact Nat.le_refl _
  | cons chapter chapters induction =>
      have fewer := chapter.content.length_stored_add_length_pending_le
      rw [List.map_cons, List.map_cons, List.flatMap_cons, List.flatMap_cons, List.length_append,
        List.length_append, Chapter.records, Chapter.records, List.length_map, List.length_map]
      exact Nat.add_le_add (Nat.le_of_add_right_le fewer) induction

theorem length_closed_stored_le (account : Chronicle Ledger) :
    (account.map Ledger.stored).closedRecords.length ≤
      (account.map Ledger.lines).closedRecords.length :=
  length_stored_le account.closed

end Chronicle

def Reply.tally? : Except Error Reply → Option Tally
  | .ok (.tally told) => some told
  | _ => none

namespace Seat

/-- A proof is under way, and its books agree with the ledger, or none is. -/
def Traces (first : Nat) (seat : Seat) : Option (Chapter Ledger) → Prop
  | none => seat.participant.tracer = none
  | some chapter => ∃ tracer, seat.participant.tracer = some tracer ∧
      tracer.encoding = chapter.encoding ∧
      tracer.audit.isSome = seat.participant.settings.audit ∧
      Tracing.Books first chapter.content ⟨tracer, seat.channel⟩

structure Keeps (settings : Settings) (account : Chronicle Ledger) (seat : Seat) : Prop where
  settings : seat.participant.settings = settings
  next : seat.participant.session.nextOutgoing = account.deposited.length
  ended : ∀ chapter ∈ account.closed, chapter.content.pending = []
  traces : seat.Traces (account.map Ledger.stored).closedRecords.length account.current

/-- From one account to the next: the lines that are new among the stored ones were laid down in the
store, none was dropped where the store takes every write, and every proof that ended was told of. -/
structure Advances (settings : Settings) (account : Chronicle Ledger) (before : Seat)
    (told : List Tally) (next : Chronicle Ledger) (after : Seat) : Prop where
  keeps : after.Keeps settings next
  receives : ∃ records, next.deposited = account.deposited ++ records ∧
    before.store.Receives account.deposited.length records after.store
  whole : before.store.IsOpen → account.Whole → next.Whole
  tallies : next.tallies = account.tallies ++ told

/-- The fault of counting past the last number, in either direction. -/
def Exhausts (chronicle : Chronicle (List Line)) (fault : Fault) (seat : Seat) : Prop :=
  Exhausted chronicle.records.length fault seat ∨
    Exhausted (seat.participant.session.nextIncoming + 1) fault seat

variable {settings : Settings} {account middle next : Chronicle Ledger} {seat between after : Seat}
  {told more : List Tally}

theorem Keeps.idle (keeps : seat.Keeps settings account) (current : account.current = none) :
    seat.participant.tracer = none := by
  have traces := keeps.traces
  rwa [current] at traces

theorem Keeps.tracing {chapter : Chapter Ledger} (keeps : seat.Keeps settings account)
    (current : account.current = some chapter) :
    ∃ tracer, seat.participant.tracer = some tracer ∧ tracer.encoding = chapter.encoding ∧
      tracer.audit.isSome = seat.participant.settings.audit ∧
      Tracing.Books (account.map Ledger.stored).closedRecords.length chapter.content
        ⟨tracer, seat.channel⟩ := by
  have traces := keeps.traces
  rwa [current] at traces

theorem Keeps.isSome_tracer (keeps : seat.Keeps settings account) :
    seat.participant.tracer.isSome = account.current.isSome := by
  cases current : account.current with
  | none =>
      rw [keeps.idle current]
      rfl
  | some chapter =>
      obtain ⟨tracer, present, _⟩ := keeps.tracing current
      rw [present]
      rfl

/-- Whatever happens to the rest of the seat, and to the store. -/
theorem Keeps.elsewhere (keeps : seat.Keeps settings account)
    (sameSettings : after.participant.settings = seat.participant.settings)
    (sameTracer : after.participant.tracer = seat.participant.tracer)
    (sameNext : after.participant.session.nextOutgoing = seat.participant.session.nextOutgoing) :
    after.Keeps settings account where
  settings := sameSettings.trans keeps.settings
  next := sameNext.trans keeps.next
  ended := keeps.ended
  traces := by
    cases current : account.current with
    | none => exact sameTracer.trans (keeps.idle current)
    | some chapter =>
        obtain ⟨tracer, present, encoding, audited, books⟩ := keeps.tracing current
        refine ⟨tracer, sameTracer.trans present, encoding, ?_, books.moved sameNext⟩
        rw [sameSettings]
        exact audited

namespace Advances

theorem trans (earlier : Advances settings account seat told middle between)
    (later : Advances settings middle between more next after) :
    Advances settings account seat (told ++ more) next after where
  keeps := later.keeps
  receives := by
    obtain ⟨records, deposited, received⟩ := earlier.receives
    obtain ⟨others, further, followed⟩ := later.receives
    refine ⟨records ++ others, ?_, ?_⟩
    · rw [further, deposited, List.append_assoc]
    · rw [deposited, List.length_append] at followed
      exact received.trans followed
  whole := by
    intro isOpen whole
    obtain ⟨records, _, received⟩ := earlier.receives
    exact later.whole (received.isOpen isOpen) (earlier.whole isOpen whole)
  tallies := by
    rw [later.tallies, earlier.tallies, List.append_assoc]

/-- A call that is no matter of the proofs. -/
theorem aside (keeps : after.Keeps settings account)
    (store : ∃ connections, after.store = { seat.store with connections }) :
    Advances settings account seat [] account after where
  keeps := keeps
  receives := ⟨[], (List.append_nil _).symm, store⟩
  whole := fun _ whole => whole
  tallies := (List.append_nil _).symm

/-- A proof that begins has no line yet. -/
theorem start (keeps : seat.Keeps settings account) (idle : account.current = none)
    (encoding : Encoding) (capacity : Nat) :
    Advances settings account seat []
      { account with current := some ⟨encoding, {}⟩ } (seat.startProof encoding capacity) := by
  let opened : Chronicle Ledger := { account with current := some ⟨encoding, {}⟩ }
  have closed := Chronicle.deposited_of_none idle
  have deposited : opened.deposited = account.deposited ++ [] := by
    rw [closed]
    exact Chronicle.deposited_of_some (show opened.current = _ from rfl)
  have books := Tracing.start_books encoding seat.participant.settings capacity
    (seat.startProof encoding capacity).channel
  constructor
  case keeps =>
    constructor
    case settings => exact keeps.settings
    case next =>
      rw [deposited, List.append_nil]
      exact keeps.next
    case ended => exact keeps.ended
    case traces =>
      refine ⟨_, rfl, rfl, Tracing.isSome_audit_start encoding _ capacity, ?_⟩
      change Tracing.Books (account.map Ledger.stored).closedRecords.length _ _
      rw [← closed, ← keeps.next]
      exact books
  case receives => exact ⟨[], deposited, Store.Receives.refl _ _⟩
  case whole =>
    intro _ whole
    exact .of_closed (fun chapter member => whole chapter (List.mem_append_left _ member)) rfl
  case tallies => exact (List.append_nil _).symm

variable {chapter : Chapter Ledger} {tracer : Tracer}

/-- A proof that goes on: its new ledger takes the place of the old one. -/
theorem onward {news : List (Line × Fate)} {emitted : List Line} {ledger : Ledger}
    {tracing : Tracing} (keeps : seat.Keeps settings account)
    (current : account.current = some chapter) (encoding : tracer.encoding = chapter.encoding)
    (audited : tracer.audit.isSome = seat.participant.settings.audit)
    (books : Tracing.Books (account.map Ledger.stored).closedRecords.length ledger tracing)
    (progress : Tracing.Progress (account.map Ledger.stored).closedRecords.length news emitted []
      chapter.content ⟨tracer, seat.channel⟩ ledger tracing) :
    Advances settings account seat [] { account with current := some ⟨chapter.encoding, ledger⟩ }
      (ofTracing seat.participant tracing) := by
  let renewed : Chronicle Ledger := { account with current := some ⟨chapter.encoding, ledger⟩ }
  have before := Chronicle.deposited_of_some current
  have now := Chronicle.deposited_of_some (show renewed.current = _ from rfl)
  change renewed.deposited = (account.map Ledger.stored).closedRecords ++
    ledger.stored.map (Line.record chapter.encoding) at now
  constructor
  case keeps =>
    constructor
    case settings => exact keeps.settings
    case next =>
      rw [now, List.length_append, List.length_map]
      exact books.next
    case ended => exact keeps.ended
    case traces =>
      exact ⟨tracing.tracer, rfl, progress.encoding.trans encoding, progress.audited.trans audited,
        books⟩
  case receives =>
    have received := progress.course.receives
    rw [encoding] at received
    refine ⟨(Fate.stored.among news).map (Line.record chapter.encoding), ?_, ?_⟩
    · rw [now, before, progress.stored, List.map_append, List.append_assoc]
    · rw [before, List.length_append, List.length_map]
      exact received
  case whole =>
    intro isOpen whole
    apply Chronicle.Whole.of_closed
    · exact fun other member => whole other (List.mem_append_left _ member)
    · have earlier : chapter.content.dropped = [] := by
        apply whole chapter
        rw [Chronicle.chapters, current]
        exact List.mem_append_right _ (List.mem_singleton_self chapter)
      have outside : ∀ deed ∈ ([] : List Store.Deed), deed.KeepsOpen := List.forall_mem_nil _
      rw [Ledger.dropped, progress.settled, Ledger.among_append, progress.kept isOpen outside]
      exact List.append_eq_nil_iff.mpr ⟨earlier, rfl⟩
  case tallies => exact (List.append_nil _).symm

/-- A proof that ends has no line left that is pending. -/
theorem close (keeps : seat.Keeps settings account) (current : account.current = some chapter)
    (nothing : chapter.content.pending = []) :
    Advances settings account seat [chapter.content.tally] account.close seat.dropTracer := by
  have chapters : account.chapters = account.closed ++ [chapter] := by
    rw [Chronicle.chapters, current]
    rfl
  have deposited : account.close.deposited = account.deposited := by
    rw [Chronicle.deposited, Chronicle.map_close, Chronicle.records_close]
    rfl
  constructor
  case keeps =>
    constructor
    case settings => exact keeps.settings
    case next =>
      rw [deposited]
      exact keeps.next
    case ended =>
      intro other member
      change other ∈ account.chapters at member
      rw [chapters] at member
      rcases List.mem_append.mp member with old | new
      · exact keeps.ended other old
      · cases List.mem_singleton.mp new
        exact nothing
    case traces => rfl
  case receives =>
    exact ⟨[], deposited.trans (List.append_nil _).symm, Store.Receives.refl _ _⟩
  case whole =>
    intro _ whole other member
    apply whole other
    have closed : account.close.chapters = account.chapters := List.append_nil _
    rwa [closed] at member
  case tallies =>
    rw [Chronicle.tallies, Chronicle.close, chapters, List.map_append]
    rfl

end Advances

theorem trace_yields {tracer : Tracer} {α : Type} {holds : Except Error α → Seat → Prop}
    {breaks : Fault → Seat → Prop} (tracing : seat.participant.tracer = some tracer)
    {operation : Tracing → Except Fault (Except TraceError α) × Tracing}
    (yields : Yields (operation ⟨tracer, seat.channel⟩)
      (fun answer after => holds (answer.mapError Error.trace) (ofTracing seat.participant after))
      (fun fault after => breaks fault (ofTracing seat.participant after))) :
    Yields (seat.trace operation) holds breaks := by
  rw [trace_of_some tracing]
  exact yields.through (Except.mapError Error.trace) (ofTracing seat.participant)

/-- What becomes of a seat by a call: the account goes on as the chronicle does. -/
def Follows (solver : Solver σ) (settings : Settings) (state : SolverState σ) (call : Call)
    (account : Chronicle Ledger) (before : Seat) (reply : Except Error Reply)
    (after : SolverState σ × Seat) : Prop :=
  ∃ next, next.map Ledger.lines =
      (account.map Ledger.lines).note solver settings state call ∧
    Advances settings account before (Reply.tally? reply).toList next after.2

variable {chapter : Chapter Ledger}

theorem Exhausts.mono {chronicle further : Chronicle (List Line)} {fault : Fault}
    (exhausts : seat.Exhausts chronicle fault) (begins : chronicle.records <+: further.records) :
    seat.Exhausts further fault := by
  rcases exhausts with outgoing | incoming
  · exact Or.inl (outgoing.mono begins.length_le)
  · exact Or.inr incoming

theorem length_records_of_lines (account : Chronicle Ledger) (encoding : Encoding)
    (lines : List Line) :
    (account.map Ledger.stored).closedRecords.length + lines.length ≤
      ({ account.map Ledger.lines with current := some ⟨encoding, lines⟩ } :
        Chronicle (List Line)).records.length := by
  rw [Chronicle.records_of_some rfl, List.length_append, Chapter.records, List.length_map]
  exact Nat.add_le_add_right account.length_closed_stored_le _

theorem map_lines_of_some (current : account.current = some chapter) :
    account.map Ledger.lines =
      { account.map Ledger.lines with
        current := some ⟨chapter.encoding, chapter.content.lines⟩ } := by
  unfold Chronicle.map
  rw [current]
  rfl

theorem perform_follows (keeps : seat.Keeps settings account)
    (current : account.current = some chapter) (solver : Solver σ) (state : SolverState σ)
    (request : Request) :
    Yields (seat.answer solver state (.perform request))
      (Follows solver settings state (.perform request) account seat)
      (fun fault after =>
        after.2.Exhausts ((account.map Ledger.lines).note solver settings state (.perform request))
          fault) := by
  obtain ⟨tracer, tracing, encoding, audited, books⟩ := keeps.tracing current
  have performing := Tracing.perform_follows books solver state request
  rw [audited, keeps.settings] at performing
  unfold Follows
  rw [map_lines_of_some current, Chronicle.note_of_some rfl]
  dsimp only
  generalize request.plan solver state _ = plan at performing ⊢
  apply Yields.through (Except.map fun _ => Reply.done) (fun after => (state, after))
  apply trace_yields tracing
  refine performing.imp ?_ ?_
  · rintro answer after ⟨_, news, next, settled, progress⟩
    have untold : Reply.tally? ((answer.mapError Error.trace).map fun _ => Reply.done) = none := by
      cases answer <;> rfl
    rw [untold]
    refine ⟨_, ?_, Advances.onward keeps current encoding audited settled progress⟩
    rw [map_lines_of_some rfl, progress.lines]
    rfl
  · intro fault after exhausted
    rw [← List.length_append] at exhausted
    exact Or.inl (exhausted.mono (length_records_of_lines account _ _))

theorem flush_follows (keeps : seat.Keeps settings account)
    (current : account.current = some chapter) (solver : Solver σ) (state : SolverState σ) :
    Yields (seat.answer solver state .flush) (Follows solver settings state .flush account seat)
      (fun fault after => after.2.Exhausts (account.map Ledger.lines) fault) := by
  obtain ⟨tracer, tracing, encoding, audited, books⟩ := keeps.tracing current
  have same := Chronicle.note_of_some (congrArg Chronicle.current (map_lines_of_some current))
    solver settings state .flush
  have flushing : Yields seat.flushProof
      (fun answer after =>
        Follows solver settings state .flush account seat (answer.map Reply.delivery) (state, after))
      (fun fault after => after.Exhausts (account.map Ledger.lines) fault) := by
    apply trace_yields tracing
    rcases (Tracing.flush_books books).split with
      ⟨fault, flushed, outcome, exhausted⟩ |
      ⟨delivery, flushed, outcome, news, next, booksAfter, _, progress⟩
    · rw [outcome, map_lines_of_some current]
      exact Or.inl (exhausted.mono (length_records_of_lines account _ _))
    · rw [outcome]
      refine ⟨_, ?_, Advances.onward keeps current encoding audited booksAfter progress⟩
      rw [same, map_lines_of_some current, map_lines_of_some rfl, progress.lines, List.append_nil]
      rfl
  exact flushing.through (Except.map Reply.delivery) (fun after => (state, after))

theorem endProof_closes (keeps : seat.Keeps settings account)
    (current : account.current = some chapter) :
    Yields seat.endProof
      (fun answer after => ∃ tally next, answer = .ok tally ∧
        next.map Ledger.lines = (account.map Ledger.lines).close ∧
          Advances settings account seat [tally] next after)
      (Exhausted (account.map Ledger.lines).records.length) := by
  obtain ⟨tracer, tracing, encoding, audited, books⟩ := keeps.tracing current
  unfold endProof
  rw [trace_of_some tracing]
  dsimp only
  rcases (Tracing.finish_books books).split with
    ⟨fault, finished, outcome, exhausted⟩ |
    ⟨_, finished, outcome, rfl, news, next, settled, nothing, progress⟩
  · rw [outcome, map_lines_of_some current]
    exact exhausted.mono (length_records_of_lines account _ _)
  · rw [outcome]
    have onward := Advances.onward keeps current encoding audited settled progress
    have closing := onward.trans (Advances.close onward.keeps rfl nothing)
    rw [← settled.tally_eq] at closing
    refine ⟨_, _, rfl, ?_, closing⟩
    rw [Chronicle.map_close, map_lines_of_some current, map_lines_of_some rfl, progress.lines,
      List.append_nil]
    rfl

theorem finish_follows (keeps : seat.Keeps settings account)
    (current : account.current = some chapter) (solver : Solver σ) (state : SolverState σ) :
    Yields (seat.answer solver state .finish) (Follows solver settings state .finish account seat)
      (fun fault after => after.2.Exhausts (account.map Ledger.lines) fault) := by
  have same := Chronicle.note_of_some (congrArg Chronicle.current (map_lines_of_some current))
    solver settings state .finish
  refine Yields.through (Except.map Reply.tally) (fun after => (state, after))
    ((endProof_closes keeps current).imp ?_ (fun _ _ exhausted => Or.inl exhausted))
  rintro answer after ⟨tally, next, rfl, closed, advances⟩
  exact ⟨next, closed.trans same.symm, advances⟩

/-- A poll does not touch the proof, and leaves nothing in the store. -/
theorem poll_aside (keeps : seat.Keeps settings account) (solver : Solver σ)
    (state : SolverState σ) :
    Yields (seat.poll solver state)
      (fun _ after => Advances settings account seat [] account after.2)
      (fun fault after => after.2.Exhausts (account.map Ledger.lines) fault) := by
  refine Yields.through (Except.mapError Error.intake)
    (fun intake => (intake.state, ofIntake seat.participant intake))
    ((Intake.poll_passes solver ⟨seat.participant.intake, state, seat.channel⟩).imp ?_ ?_)
  · rintro _ after ⟨⟨count, session⟩, store, _⟩
    have next : after.channel.session.nextOutgoing = seat.participant.session.nextOutgoing := by
      rw [session]
      rfl
    exact Advances.aside (keeps.elsewhere rfl rfl next) store
  · intro fault after spent
    exact Or.inr ⟨spent.1, spent.2.1⟩

theorem requestPoll_aside (keeps : seat.Keeps settings account) :
    Advances settings account seat [] account seat.requestPoll.2 := by
  obtain ⟨participant, store, journal⟩ := seat
  unfold requestPoll Channel.requestPoll
  dsimp only
  rcases participant.session.throttle.request with ⟨_ | requests, throttle⟩
  · exact Advances.aside (keeps.elsewhere rfl rfl rfl) ⟨store.connections, rfl⟩
  · exact Advances.aside (keeps.elsewhere rfl rfl rfl) ⟨store.connections, rfl⟩

theorem start_follows (keeps : seat.Keeps settings account) (current : account.current = none)
    (solver : Solver σ) (state : SolverState σ) (encoding : Option Encoding) :
    Yields (seat.answer solver state (.start encoding))
      (Follows solver settings state (.start encoding) account seat)
      (fun fault after => after.2.Exhausts (account.map Ledger.lines) fault) := by
  unfold answer beginProof
  rw [keeps.idle current, keeps.settings]
  refine ⟨_, ?_, Advances.start keeps current _ _⟩
  unfold Chronicle.note Chronicle.map
  rw [current]
  rfl

theorem poll_follows (keeps : seat.Keeps settings account) (solver : Solver σ)
    (state : SolverState σ) :
    Yields (seat.answer solver state .poll) (Follows solver settings state .poll account seat)
      (fun fault after => after.2.Exhausts (account.map Ledger.lines) fault) := by
  refine Yields.through (Except.map Reply.taken) id
    ((poll_aside keeps solver state).imp ?_ (fun _ _ exhausts => exhausts))
  rintro (_ | count) after advances
  · exact ⟨account, rfl, advances⟩
  · exact ⟨account, rfl, advances⟩

/-- The account goes on as the chronicle does, whatever the call. -/
theorem answer_follows (keeps : seat.Keeps settings account) (solver : Solver σ)
    (state : SolverState σ) (call : Call) :
    Yields (seat.answer solver state call) (Follows solver settings state call account seat)
      (fun fault after =>
        after.2.Exhausts ((account.map Ledger.lines).note solver settings state call) fault) := by
  have later {outcome : Except Fault (Except Error Reply) × SolverState σ × Seat}
      (yields : Yields outcome (Follows solver settings state call account seat)
        (fun fault after => after.2.Exhausts (account.map Ledger.lines) fault)) :
      Yields outcome (Follows solver settings state call account seat)
        (fun fault after =>
          after.2.Exhausts ((account.map Ledger.lines).note solver settings state call) fault) :=
    yields.imp (fun _ _ follows => follows)
      (fun _ _ exhausts => exhausts.mono (Chronicle.prefix_records_note _ _ _ _ _))
  cases refused : call.refusal? account.current.isSome with
  | some error =>
      have same : (account.map Ledger.lines).current.isSome = account.current.isSome :=
        Option.isSome_map
      rw [answer_of_refusal (by rwa [keeps.isSome_tracer])]
      rw [← same] at refused
      exact ⟨account, (Chronicle.note_of_refusal refused).symm,
        Advances.aside keeps ⟨seat.store.connections, rfl⟩⟩
  | none =>
      cases current : account.current with
      | none =>
          rw [current] at refused
          cases call with
          | start encoding => exact later (start_follows keeps current solver state encoding)
          | perform request => cases refused
          | flush => cases refused
          | finish => cases refused
          | poll => exact later (poll_follows keeps solver state)
          | tick => exact ⟨account, rfl, requestPoll_aside keeps⟩
      | some chapter =>
          rw [current] at refused
          cases call with
          | start encoding => cases refused
          | perform request => exact perform_follows keeps current solver state request
          | flush => exact later (flush_follows keeps current solver state)
          | finish => exact later (finish_follows keeps current solver state)
          | poll => exact later (poll_follows keeps solver state)
          | tick => exact ⟨account, rfl, requestPoll_aside keeps⟩

end Seat

end ClauseExchange
