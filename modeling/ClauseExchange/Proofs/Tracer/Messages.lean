import ClauseExchange.Proofs.Channel.LineNotices
import ClauseExchange.Proofs.Tracer.Drafting
import ClauseExchange.Proofs.Tracer.Shrinking
import ClauseExchange.Proofs.Tracer.Trail

/-!
What a tracer tells of its lines: one message for each, made before the line is written, with the solver's
literals that it comes from where these are kept. A message is read off the request of its own line, so
nothing of an earlier request shows in it.
-/

namespace ClauseExchange

variable {σ : Type} {line : Line}

/-- The message about a line when these literals of the solver are kept with it. -/
def Line.notice (audited : Bool) (sources : List UInt32) (line : Line) : Notice :=
  .lineTraced line.action line.literals
    (if audited = true ∧ sources.length = line.literals.length ∧ line.literals ≠ [] then
      some sources
    else
      none)

namespace Request

/-- The literals of its own that a solver gives for a line of a request. -/
def given (solver : Solver σ) (state : SolverState σ) (action : Action) :
    Request → Option (List UInt32)
  | .add clause | .delete clause => some clause
  | .deleteExported _ => none
  | .shrink clause remove keep =>
      match action with
      | .add => some (clause.filter (solver.retains state remove keep))
      | .delete => some clause

/-- The message about a line, made from what its request puts on the draft. -/
def notice (solver : Solver σ) (state : SolverState σ) (audited : Bool) (request : Request)
    (line : Line) : Notice :=
  line.notice audited ((request.given solver state line.action).getD [])

/-- The words that a request has for the literals of a line. -/
def words (solver : Solver σ) (state : SolverState σ) (action : Action) (request : Request) :
    List Int32 :=
  match request with
  | .deleteExported words => words
  | request => ((request.given solver state action).getD []).map (solver.exportLiteral state)

theorem words_of_given {solver : Solver σ} {state : SolverState σ} {action : Action}
    {request : Request} {sources : List UInt32}
    (gives : request.given solver state action = some sources) :
    request.words solver state action = sources.map (solver.exportLiteral state) := by
  cases request with
  | deleteExported => cases gives
  | _ => rw [words, gives, Option.getD_some]; nofun

theorem given_eq_none_iff {solver : Solver σ} {state : SolverState σ} {action : Action}
    {request : Request} :
    request.given solver state action = none ↔ ∃ words, request = .deleteExported words := by
  cases request with
  | shrink => cases action <;> simp [given]
  | _ => simp [given]

theorem outcome_of_mem_plan {solver : Solver σ} {state : SolverState σ} {barred : Bool}
    {request : Request} (member : line ∈ (request.plan solver state barred).lines) :
    ∃ action, .ok line =
      Plan.lineOf barred action ((request.words solver state action).mapM Tracing.exported?) := by
  cases request <;> simp only [plan, Solver.exportClause?_eq] at member
  case add clause => exact ⟨.add, List.mem_singleton.mp (Plan.mem_lines_ofLines member)⟩
  case delete clause => exact ⟨.delete, List.mem_singleton.mp (Plan.mem_lines_ofLines member)⟩
  case deleteExported words =>
    exact ⟨.delete, List.mem_singleton.mp (Plan.mem_lines_ofLines member)⟩
  case shrink clause remove keep =>
    split at member
    case isFalse => cases member
    case isTrue =>
      rcases List.mem_cons.mp (Plan.mem_lines_ofLines member) with adds | deletes
      · exact ⟨.add, adds⟩
      · exact ⟨.delete, List.mem_singleton.mp deletes⟩

/-- The literals of a line in a plan are the words that its request has for it. -/
theorem words_of_mem_plan {solver : Solver σ} {state : SolverState σ} {barred : Bool}
    {request : Request} (member : line ∈ (request.plan solver state barred).lines) :
    line.literals.map Literal.word = request.words solver state line.action := by
  obtain ⟨action, outcome⟩ := outcome_of_mem_plan member
  rcases Plan.lineOf_words_cases barred action (request.words solver state action) with
    ⟨_, _, refused⟩ | ⟨_, refused⟩ | ⟨_, _, literals, words, passed⟩
  · cases outcome.trans refused
  · cases outcome.trans refused
  · cases outcome.trans passed
    exact words

end Request

theorem Tracer.lineTraced_setDraft (tracer : Tracer) (line : Line) (sources : List UInt32) :
    .lineTraced line.action line.literals (tracer.setDraft line.literals sources).draftSources? =
      line.notice tracer.audit.isSome sources := by
  unfold setDraft draftSources? Line.notice
  cases tracer.audit with
  | none => simp
  | some audit => simp

/-- A line of a proof, with the request that it comes from and the state of the solver then. -/
structure Message (σ : Type) where
  state : SolverState σ
  request : Request
  line : Line

namespace Message

variable {solver : Solver σ} {audited : Bool}

/-- The solver's literals that are told of a line. -/
def sources (solver : Solver σ) (audited : Bool) (message : Message σ) : Option (List UInt32) :=
  if audited = true ∧ message.line.literals ≠ [] then
    message.request.given solver message.state message.line.action
  else
    none

def notice (solver : Solver σ) (audited : Bool) (message : Message σ) : Notice :=
  .lineTraced message.line.action message.line.literals (message.sources solver audited)

/-- A message agrees with what its own request had for the line. -/
structure Matches (solver : Solver σ) (audited : Bool) (message : Message σ) : Prop where
  wording : (message.notice solver audited).text =
    message.line.action.name ++ " line " ++
      (Notice.showLiterals message.line.literals ++
        Notice.internalPart (message.sources solver audited))
  words : message.line.literals.map Literal.word =
    message.request.words solver message.state message.line.action
  shown : (message.sources solver audited).isSome = true ↔
    audited = true ∧ message.line.literals ≠ [] ∧
      ∀ words, message.request ≠ .deleteExported words
  own : ∀ sources, message.sources solver audited = some sources →
    message.request.given solver message.state message.line.action = some sources
  exports : ∀ sources, message.sources solver audited = some sources →
    sources.map (solver.exportLiteral message.state) = message.line.literals.map Literal.word
  retained : ∀ clause remove keep sources, message.request = .shrink clause remove keep →
    message.line.action = .add → message.sources solver audited = some sources →
      sources = solver.staying message.state remove keep clause

theorem given_of_sources {message : Message σ} {sources : List UInt32}
    (told : message.sources solver audited = some sources) :
    message.request.given solver message.state message.line.action = some sources := by
  unfold Message.sources at told
  split at told
  case isTrue => exact told
  case isFalse => cases told

theorem matches_of_mem_plan (solver : Solver σ) (audited : Bool) {state : SolverState σ}
    {barred : Bool} {request : Request}
    (member : line ∈ (request.plan solver state barred).lines) :
    Matches solver audited ⟨state, request, line⟩ where
  wording := Notice.text_lineTraced line.action line.literals _
  words := Request.words_of_mem_plan member
  shown := by
    have missing := @Request.given_eq_none_iff σ solver state line.action request
    rw [sources, ← not_exists, ← missing]
    split
    case isTrue kept => simp [kept, Option.isSome_iff_ne_none]
    case isFalse missed =>
      simp only [Option.isSome_none, Bool.false_eq_true, false_iff]
      tauto
  own _ := given_of_sources
  exports := by
    intro sources told
    rw [Request.words_of_mem_plan member]
    exact (Request.words_of_given (given_of_sources told)).symm
  retained := by
    rintro clause remove keep sources rfl adds told
    have gives := given_of_sources told
    dsimp only at adds gives
    rw [adds] at gives
    rw [← solver.filter_retains_eq]
    exact (Option.some.inj gives).symm

theorem notice_eq {state : SolverState σ} {barred : Bool} {request : Request}
    (member : line ∈ (request.plan solver state barred).lines) :
    request.notice solver state audited line =
      notice solver audited ⟨state, request, line⟩ := by
  have words := Request.words_of_mem_plan member
  refine congrArg (Notice.lineTraced line.action line.literals) ?_
  unfold sources
  cases present : request.given solver state line.action with
  | none =>
      -- No source goes with a line that has literals.
      rw [ite_self, if_neg]
      rintro ⟨_, same, some⟩
      exact some (List.length_eq_zero_iff.mp same.symm)
  | some clause =>
      rw [Request.words_of_given present] at words
      have same : clause.length = line.literals.length := by
        simpa using (congrArg List.length words).symm
      simp [same]

end Message

namespace Tracing

variable {emitted : List Line} {tracing before middle after : Tracing} {notices more : List Notice}

/-! Nothing but a line that is written has a message of its own. -/

theorem lineNotices_note {notice : Notice} (other : notice.tellsLine = false) (tracing : Tracing) :
    (tracing.note notice).channel.lineNotices = tracing.channel.lineNotices :=
  Channel.lineNotices_note_of_other other

theorem lineNotices_settle (delivery : Delivery) (tracing : Tracing) :
    (tracing.settle delivery).channel.lineNotices = tracing.channel.lineNotices := by
  unfold settle
  rw [lineNotices_note rfl]
  dsimp only
  split
  · exact lineNotices_note rfl _
  · rfl

theorem lineNotices_flush (tracing : Tracing) :
    tracing.flush.2.channel.lineNotices = tracing.channel.lineNotices := by
  unfold flush
  split
  · rfl
  · have sending :=
      Channel.lineNotices_send (tracing.tracer.spool.records tracing.tracer.encoding.separator)
        tracing.channel
    dsimp only
    generalize tracing.channel.send _ = outcome at sending ⊢
    obtain ⟨fault | written, channel⟩ := outcome
    · exact sending
    · exact (lineNotices_settle _ _).trans sending

theorem lineNotices_widen (tracing : Tracing) :
    tracing.widen.channel.lineNotices = tracing.channel.lineNotices := by
  unfold widen
  split
  · exact lineNotices_note rfl tracing
  · rfl

theorem lineNotices_makeRoom (tracing : Tracing) :
    tracing.makeRoom.2.channel.lineNotices = tracing.channel.lineNotices := by
  have flushing := lineNotices_flush tracing
  unfold makeRoom
  split
  · generalize tracing.flush = outcome at flushing ⊢
    obtain ⟨fault | delivery, flushed⟩ := outcome
    · exact flushing
    · exact (lineNotices_widen flushed).trans flushing
  · rfl

theorem lineNotices_put (byte : UInt8) (tracing : Tracing) :
    (tracing.put byte).2.channel.lineNotices = tracing.channel.lineNotices := by
  have making := lineNotices_makeRoom tracing
  unfold put
  generalize tracing.makeRoom = outcome at making ⊢
  obtain ⟨fault | _, roomy⟩ := outcome
  · exact making
  · dsimp only
    cases roomy.tracer.spool.push? byte with
    | none => exact making
    | some spool => exact making

theorem lineNotices_putAll (bytes : Bytes) (tracing : Tracing) :
    (tracing.putAll bytes).2.channel.lineNotices = tracing.channel.lineNotices := by
  induction bytes generalizing tracing with
  | nil => rfl
  | cons byte bytes induction =>
      have putting := lineNotices_put byte tracing
      unfold putAll
      generalize tracing.put byte = outcome at putting ⊢
      obtain ⟨fault | _, put⟩ := outcome
      · exact putting
      · exact (induction put).trans putting

theorem lineNotices_flushIfDue (tracing : Tracing) :
    tracing.flushIfDue.2.channel.lineNotices = tracing.channel.lineNotices := by
  have flushing := lineNotices_flush tracing
  unfold flushIfDue
  split
  · generalize tracing.flush = outcome at flushing ⊢
    obtain ⟨fault | delivery, flushed⟩ := outcome
    · exact flushing
    · exact flushing
  · rfl

theorem lineNotices_finish (tracing : Tracing) :
    tracing.finish.2.channel.lineNotices = tracing.channel.lineNotices := by
  have flushing :=
    (lineNotices_flush (tracing.note .proofStopped)).trans (lineNotices_note rfl tracing)
  unfold finish
  generalize (tracing.note .proofStopped).flush = outcome at flushing ⊢
  obtain ⟨fault | delivery, flushed⟩ := outcome
  · exact flushing
  · dsimp only
    split
    · exact (lineNotices_note rfl flushed).trans flushing
    · exact flushing

/-- The message is made before the first byte is written, and so also where the writing breaks off. -/
theorem lineNotices_writeDraft (tracing : Tracing) (action : Action) :
    (tracing.writeDraft action).2.channel.lineNotices =
      tracing.channel.lineNotices ++
        [.lineTraced action tracing.tracer.draft tracing.tracer.draftSources?] := by
  unfold writeDraft
  dsimp only
  generalize traces : Notice.lineTraced action tracing.tracer.draft tracing.tracer.draftSources? =
    notice
  have noted : (tracing.note notice).channel.lineNotices =
      tracing.channel.lineNotices ++ [notice] := by
    rw [note, Channel.lineNotices_note, ← traces, Notice.tellsLine_lineTraced, if_pos rfl]
  generalize (⟨action, tracing.tracer.draft⟩ : Line) = line
  have putting :=
    (lineNotices_putAll (line.encode tracing.tracer.encoding) (tracing.note notice)).trans noted
  generalize (tracing.note notice).putAll _ = outcome at putting ⊢
  obtain ⟨fault | _, put⟩ := outcome
  · exact putting
  · exact (lineNotices_flushIfDue (put.closeLine line)).trans putting

/-- A fault left the first of some messages about lines behind. -/
def TracesPart (notices : List Notice) (before : Tracing) (_ : Fault) (after : Tracing) : Prop :=
  ∃ part, part <+: notices ∧
    after.channel.lineNotices = before.channel.lineNotices ++ part

namespace TracesPart

variable {fault : Fault}

theorem append (traces : TracesPart notices before fault after) (more : List Notice) :
    TracesPart (notices ++ more) before fault after := by
  obtain ⟨part, within, told⟩ := traces
  exact ⟨part, within.trans (List.prefix_append notices more), told⟩

theorem since (traces : TracesPart more middle fault after)
    (earlier : middle.channel.lineNotices = before.channel.lineNotices ++ notices) :
    TracesPart (notices ++ more) before fault after := by
  obtain ⟨part, within, told⟩ := traces
  refine ⟨notices ++ part, (List.prefix_append_right_inj notices).mpr within, ?_⟩
  rw [told, earlier, List.append_assoc]

end TracesPart

/-- An operation makes these messages about lines, or meets its fault on the way. -/
def Traces {α : Type} (notices : List Notice) (before : Tracing)
    (outcome : Except Fault α × Tracing) : Prop :=
  Yields outcome
    (fun _ after => after.channel.lineNotices = before.channel.lineNotices ++ notices)
    (TracesPart notices before)

namespace Traces

variable {α : Type} {outcome : Except Fault α × Tracing}

theorem of_eq (told : outcome.2.channel.lineNotices = before.channel.lineNotices ++ notices) :
    Traces notices before outcome := by
  rcases outcome with ⟨fault | answer, after⟩
  · exact ⟨notices, List.prefix_rfl, told⟩
  · exact told

theorem of_silent (silent : outcome.2.channel.lineNotices = before.channel.lineNotices) :
    Traces [] before outcome :=
  of_eq (silent.trans (List.append_nil _).symm)

theorem since (traces : Traces more middle outcome)
    (earlier : middle.channel.lineNotices = before.channel.lineNotices ++ notices) :
    Traces (notices ++ more) before outcome := by
  refine traces.imp ?_ (fun _ _ part => part.since earlier)
  intro _ after told
  rw [told, earlier, List.append_assoc]

end Traces

theorem emitClause_traces (ready : Ready emitted tracing) (action : Action)
    (exported : Except Int32 (List Literal)) (sources : List UInt32) {tell : Line → Notice}
    (tells : ∀ line, line.action = action →
      tell line = line.notice tracing.tracer.audit.isSome sources) :
    Traces
      ((Plan.ofLines
        [Plan.lineOf (Plan.barsEmpty tracing.tracer.audit.isSome emitted) action exported]).lines.map
          tell)
      tracing (tracing.emitClause action exported sources) := by
  rcases emitClause_cases ready action exported sources with
    ⟨error, barred, outcome⟩ | ⟨drafted, _, passed, _, drafts, same, outcome⟩
  · rw [outcome, barred]
    exact .of_silent rfl
  · rw [outcome, passed]
    apply Traces.of_eq
    change (drafted.writeDraft action).2.channel.lineNotices =
      tracing.channel.lineNotices ++ [tell ⟨action, drafted.tracer.draft⟩]
    rw [lineNotices_writeDraft, drafts.channel, same, tells _ rfl, ← Tracer.lineTraced_setDraft]

theorem emitShrunk_traces (ready : Ready emitted tracing) (solver : Solver σ)
    (state : SolverState σ) (clause : List UInt32) (remove keep : UInt32) {tell : Line → Notice}
    (adds : ∀ line, line.action = .add →
      tell line = line.notice tracing.tracer.audit.isSome
        (clause.filter (solver.retains state remove keep)))
    (deletes : ∀ line, line.action = .delete →
      tell line = line.notice tracing.tracer.audit.isSome clause) :
    Traces
      (((Request.shrink clause remove keep).plan solver state
        (Plan.barsEmpty tracing.tracer.audit.isSome emitted)).lines.map tell)
      tracing (tracing.emitShrunk solver state clause remove keep) := by
  unfold emitShrunk Request.plan
  rw [ready.draft, List.isEmpty_nil, Bool.not_true, if_neg Bool.false_ne_true]
  dsimp only
  split
  case isFalse absent => exact .of_silent rfl
  case isTrue present =>
    generalize clause.filter (solver.retains state remove keep) = retained at adds ⊢
    have adding := emitClause_traces ready .add (solver.exportClause? state retained) retained adds
    cases planned : Plan.lineOf (Plan.barsEmpty tracing.tracer.audit.isSome emitted) .add
        (solver.exportClause? state retained) with
    | error error =>
        rw [emitClause_of_error ready planned]
        exact .of_silent rfl
    | ok line =>
        rw [planned] at adding
        rcases ((emitClause_of_ok ready planned retained).both adding).split with
          ⟨fault, added, outcome, _, part⟩ | ⟨_, added, outcome, ⟨rfl, emits, rests⟩, told⟩
        · rw [outcome]
          exact part.append _
        · rw [outcome]
          rw [← emits.audited] at deletes
          have deleting := emitClause_traces rests.ready .delete
            (solver.exportClause? state clause) clause deletes
          rw [Plan.lineOf_delete_eq _ (Plan.barsEmpty tracing.tracer.audit.isSome emitted)]
            at deleting
          exact deleting.since told

/-- Every line of a request has its message, and a request that is refused has none. -/
theorem perform_traces (ready : Ready emitted tracing) (solver : Solver σ)
    (state : SolverState σ) (request : Request) :
    Traces
      ((request.plan solver state (Plan.barsEmpty tracing.tracer.audit.isSome emitted)).lines.map
        (request.notice solver state tracing.tracer.audit.isSome))
      tracing (tracing.perform solver state request) := by
  cases request with
  | add clause => exact emitClause_traces ready .add _ clause fun _ _ => rfl
  | delete clause => exact emitClause_traces ready .delete _ clause fun _ _ => rfl
  | shrink clause remove keep =>
      apply emitShrunk_traces ready
      · intro line acts
        rw [Request.notice, acts]
        rfl
      · intro line acts
        rw [Request.notice, acts]
        rfl
  | deleteExported words =>
      have noted : Ready emitted (tracing.note (.deletionGiven words)) :=
        ready.ofSameLine (.refl _)
      have other : (Notice.deletionGiven words).tellsLine = false :=
        Notice.tellsLine_eq_false (by simp)
      have silent : (tracing.note (.deletionGiven words)).channel.lineNotices =
          tracing.channel.lineNotices ++ [] :=
        (lineNotices_note other tracing).trans (List.append_nil _).symm
      exact (emitClause_traces noted .delete (words.mapM exported?) [] fun _ _ => rfl).since silent

namespace Step

/-- The messages of a step that emits these lines. -/
def messagesOf (lines : List Line) : Step σ → List (Message σ)
  | .perform state request => lines.map (.mk state request)
  | _ => []

/-- The messages of steps, each in view of the lines emitted before it. -/
def messages (solver : Solver σ) (audited : Bool) (emitted : List Line) :
    List (Step σ) → List (Message σ)
  | [] => []
  | step :: steps =>
      let plan := step.plan solver audited emitted
      step.messagesOf plan.lines ++ messages solver audited (emitted ++ plan.lines) steps

theorem map_line_messagesOf (solver : Solver σ) (audited : Bool) (emitted : List Line)
    (step : Step σ) :
    (step.messagesOf (step.plan solver audited emitted).lines).map Message.line =
      (step.plan solver audited emitted).lines := by
  cases step with
  | perform state request => exact (List.map_map.trans (List.map_id _))
  | _ => rfl

/-- One message for each line, in their order. -/
theorem map_line_messages (solver : Solver σ) (audited : Bool) (emitted : List Line)
    (steps : List (Step σ)) :
    (messages solver audited emitted steps).map Message.line =
      (plans solver audited emitted steps).flatMap Plan.lines := by
  induction steps generalizing emitted with
  | nil => rfl
  | cons step steps induction =>
      rw [messages, plans, List.map_append, List.flatMap_cons, induction, map_line_messagesOf]

theorem matches_of_mem_messages {solver : Solver σ} {audited : Bool} {emitted : List Line}
    {steps : List (Step σ)} {message : Message σ}
    (member : message ∈ messages solver audited emitted steps) :
    message.Matches solver audited := by
  induction steps generalizing emitted with
  | nil => cases member
  | cons step steps induction =>
      rcases List.mem_append.mp member with own | later
      · cases step with
        | perform state request =>
            obtain ⟨line, planned, rfl⟩ := List.mem_map.mp own
            exact Message.matches_of_mem_plan solver audited planned
        | _ => cases own
      · exact induction later

end Step

theorem step_traces (ready : Ready emitted tracing) (solver : Solver σ) (step : Step σ) :
    Traces
      ((step.messagesOf (step.plan solver tracing.tracer.audit.isSome emitted).lines).map
        (Message.notice solver tracing.tracer.audit.isSome))
      tracing (tracing.step solver step) := by
  cases step with
  | perform state request =>
      have performed := perform_traces ready solver state request
      rw [List.map_congr_left fun _ => Message.notice_eq] at performed
      unfold Step.messagesOf
      rw [List.map_map]
      exact performed
  | flush =>
      have silent := lineNotices_flush tracing
      apply Traces.of_silent
      unfold Tracing.step
      dsimp only
      generalize tracing.flush = outcome at silent ⊢
      obtain ⟨fault | delivery, flushed⟩ := outcome
      · exact silent
      · exact silent
  | outside deed => exact .of_silent rfl

theorem run_traces (rests : Rests emitted tracing) (solver : Solver σ) (steps : List (Step σ)) :
    Traces
      ((Step.messages solver tracing.tracer.audit.isSome emitted steps).map
        (Message.notice solver tracing.tracer.audit.isSome))
      tracing (tracing.run solver steps) := by
  induction steps generalizing emitted tracing with
  | nil => exact .of_silent rfl
  | cons step steps induction =>
      have stepping := (step_rests rests solver step).both (step_traces rests.ready solver step)
      rw [Step.messages, List.map_append]
      apply Yields.runAll_cons
      · exact stepping.imp (fun _ _ held => held) (fun _ _ broken => broken.2.append _)
      · rintro answer middle ⟨⟨_, audited, restsBetween⟩, told⟩
        have running := induction restsBetween
        rw [audited] at running
        exact running.since told

/-- A run from the start makes one message for each line that it emits, and no other message about a line.
Each message has the kind and the literals of its line. The solver's literals stand in it where there is
an audit, the line is not empty and its request gave them; they are exported to the literals of the line.
It is no other run if drafts are taken up literal by literal, so nothing of an earlier draft is left. -/
theorem run_traces_lines (encoding : Encoding) (settings : Settings) (capacity : Nat)
    (channel : Channel) (solver : Solver σ) (steps : List (Step σ)) :
    let start : Tracing := ⟨Tracer.start encoding settings capacity, channel⟩
    let messages := Step.messages solver settings.audit [] steps
    let notices := messages.map (Message.notice solver settings.audit)
    (∀ message ∈ messages, message.Matches solver settings.audit) ∧
      runAll (stepEach solver) steps start = run solver steps start ∧
      Yields (run solver steps start)
        (fun answers after =>
          answers = (Step.plans solver settings.audit [] steps).map Plan.answer ∧
            Trail start (messages.map Message.line) after ∧
            after.channel.lineNotices = channel.lineNotices ++ notices ∧
            after.finish.2.channel.lineNotices = after.channel.lineNotices)
        (fun fault after =>
          Exhausted (channel.session.nextOutgoing + messages.length) fault after ∧
            ∃ part, part <+: notices ∧
              after.channel.lineNotices = channel.lineNotices ++ part) := by
  intro start messages notices
  have audited := isSome_audit_start encoding settings capacity
  have lines : messages.map Message.line = Step.emitted solver settings.audit steps :=
    Step.map_line_messages solver settings.audit [] steps
  have rests := start_rests encoding settings capacity channel
  have trails := run_start_trails encoding settings capacity channel solver steps
  have telling := run_traces rests solver steps
  have answering := run_rests rests solver steps
  dsimp only at telling answering trails
  rw [audited] at telling answering
  rw [← lines, List.length_map] at trails
  refine ⟨fun message => Step.matches_of_mem_messages, runEach_eq rests solver steps, ?_⟩
  refine ((trails.both telling).both answering).imp ?_ ?_
  · rintro answers after ⟨⟨trail, told⟩, answered, _⟩
    exact ⟨answered, trail, told, lineNotices_finish after⟩
  · rintro fault after ⟨⟨exhausted, part⟩, _⟩
    exact ⟨exhausted, part⟩

/-- Nothing of a clause that was refused shows with the next line. -/
example :
    let state : SolverState Unit := ⟨(), #[]⟩
    let start : Tracing := ⟨Tracer.start .text {} 64, ⟨.ofSettings {}, {}, #[]⟩⟩
    let steps : List (Step Unit) :=
      [.perform state (.add [7, 0]), .perform state (.deleteExported [3]),
        .perform state (.shrink [2, 5] 2 5)]
    (run .plain steps start).2.channel.lineNotices.map Notice.text =
      ["Delete line [3]", "Add line [5] (internal [5])",
        "Delete line [2, 5] (internal [2, 5])"] := by
  decide +kernel

end Tracing

end ClauseExchange
