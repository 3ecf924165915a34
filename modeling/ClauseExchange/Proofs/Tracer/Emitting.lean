import ClauseExchange.Proofs.Tracer.Plan
import ClauseExchange.Proofs.Tracer.Streaming

/-!
What a request does to a tracer between two lines, over any channel and with anything in its spool.
The lines of its plan go through the spool one after another and are counted, and the tracer is between
two lines again. If it is at rest, it stays so, and a request that is refused before its first line
leaves everything as it was.
-/

namespace ClauseExchange

/-- No line is being assembled. -/
structure Tracer.AtRest (tracer : Tracer) : Prop where
  draft : tracer.draft = []
  sources : ∀ audit, tracer.audit = some audit → audit.sources = []

namespace Tracer

variable {tracer : Tracer}

theorem AtRest.ofSameLine {before after : Tracer} (rest : before.AtRest)
    (sameLine : before.SameLine after) : after.AtRest := by
  obtain ⟨spool, delivery, rfl⟩ := sameLine
  exact ⟨rest.draft, rest.sources⟩

theorem AtRest.clearDraft_eq (rest : tracer.AtRest) : tracer.clearDraft = tracer := by
  have forgotten : (tracer.audit.map fun audit => { audit with sources := [] }) = tracer.audit := by
    cases present : tracer.audit with
    | none => rfl
    | some audit =>
        have empty := rest.sources audit present
        cases audit
        cases empty
        rfl
  unfold clearDraft
  rw [forgotten, ← rest.draft]

/-- To note a draft changes nothing of where its literals come from. -/
theorem draftSources?_of_noteDraft {noted : Tracer} {action : Action}
    (passed : tracer.noteDraft action = .ok (.ok noted)) :
    noted.draftSources? = tracer.draftSources? := by
  unfold noteDraft at passed
  split at passed
  case h_1 audit present =>
    split at passed
    case h_1 => cases passed
    case h_2 => cases passed
    case h_3 after kept =>
      cases passed
      simp [draftSources?, present, Audit.sources_of_note kept]
  case h_2 =>
    cases passed
    rfl

theorem clearDraft_setDraft (tracer : Tracer) (literals : List Literal) (sources : List UInt32) :
    (tracer.setDraft literals sources).clearDraft = tracer.clearDraft := by
  unfold clearDraft setDraft
  rw [Option.map_map]
  rfl

theorem sources_of_forgotten {watched : Option Audit} (audit : Audit)
    (forgotten : (watched.map fun audit => { audit with sources := [] }) = some audit) :
    audit.sources = [] := by
  obtain ⟨_, _, rfl⟩ := Option.map_eq_some_iff.mp forgotten
  rfl

theorem atRest_clearDraft (tracer : Tracer) : tracer.clearDraft.AtRest where
  draft := rfl
  sources := sources_of_forgotten

theorem atRest_start (encoding : Encoding) (settings : Settings) (capacity : Nat) :
    (start encoding settings capacity).AtRest where
  draft := rfl
  sources := by
    intro audit present
    unfold start at present
    dsimp only at present
    split at present
    · cases present
      rfl
    · cases present

end Tracer

namespace Tracing

variable {σ : Type} {emitted more : List Line} {before middle after tracing : Tracing}

/-- Lines went through the spool, one after another, and were counted. -/
structure Emits (emitted : List Line) (before after : Tracing) : Prop where
  streams : ∃ taken written,
    Streams (emitted.flatMap (Line.encode before.tracer.encoding)) taken written before after
  added : after.tracer.tally.added =
    before.tracer.tally.added + emitted.countP (·.action = .add)
  deleted : after.tracer.tally.deleted =
    before.tracer.tally.deleted + emitted.countP (·.action = .delete)
  lines : after.tracer.tally.lines = before.tracer.tally.lines + emitted.length
  literals : after.tracer.tally.literals =
    before.tracer.tally.literals + (emitted.map (·.literals.length)).sum
  audited : after.tracer.audit.isSome = before.tracer.audit.isSome
  flushEachLine : after.tracer.flushEachLine = before.tracer.flushEachLine
  prompt : before.tracer.flushEachLine = true → before.tracer.spool.contents = [] →
    after.tracer.spool.contents = []

namespace Emits

theorem ofAlike (alike : Alike before after) : Emits [] before after where
  streams := ⟨[], [], .ofAlike alike⟩
  added := by rw [alike.tally]; rfl
  deleted := by rw [alike.tally]; rfl
  lines := by rw [alike.tally]; rfl
  literals := by rw [alike.tally]; rfl
  audited := alike.audited
  flushEachLine := alike.flushEachLine
  prompt := by
    intro _ empty
    rw [alike.contents, empty]

theorem refl (tracing : Tracing) : Emits [] tracing tracing :=
  ofAlike ⟨rfl, rfl, rfl, rfl, rfl, rfl, rfl⟩

theorem ofLine {line : Line} {taken written : List Bytes}
    (streams : Streams (line.encode before.tracer.encoding) taken written before after)
    (tally : ∃ delivery late, after.tracer.tally =
      ((before.tracer.tally.countDelivery delivery).countLine line).countDelivery late)
    (audited : after.tracer.audit.isSome = before.tracer.audit.isSome)
    (flushEachLine : after.tracer.flushEachLine = before.tracer.flushEachLine)
    (free : before.tracer.flushEachLine = true →
      before.tracer.encoding.separator ∉ after.tracer.spool.contents) :
    Emits [line] before after := by
  obtain ⟨delivery, late, counted⟩ := tally
  constructor
  case streams =>
    rw [List.flatMap_singleton]
    exact ⟨taken, written, streams⟩
  case added => rw [counted, List.countP_singleton]; simp [Tally.countDelivery, Tally.countLine]
  case deleted => rw [counted, List.countP_singleton]; simp [Tally.countDelivery, Tally.countLine]
  case lines => rw [counted]; rfl
  case literals => rw [counted]; rfl
  case audited => exact audited
  case flushEachLine => exact flushEachLine
  case prompt => exact fun prompt _ => streams.contents_eq_nil (free prompt)

theorem trans (earlier : Emits emitted before middle) (later : Emits more middle after) :
    Emits (emitted ++ more) before after where
  streams := by
    obtain ⟨taken, written, first⟩ := earlier.streams
    obtain ⟨late, lateWritten, second⟩ := later.streams
    rw [first.encoding] at second
    rw [List.flatMap_append]
    exact ⟨_, _, first.trans second⟩
  added := by rw [later.added, earlier.added, List.countP_append, Nat.add_assoc]
  deleted := by rw [later.deleted, earlier.deleted, List.countP_append, Nat.add_assoc]
  lines := by rw [later.lines, earlier.lines, List.length_append, Nat.add_assoc]
  literals := by
    rw [later.literals, earlier.literals, List.map_append, List.sum_append, Nat.add_assoc]
  audited := later.audited.trans earlier.audited
  flushEachLine := later.flushEachLine.trans earlier.flushEachLine
  prompt := by
    intro prompt empty
    exact later.prompt (earlier.flushEachLine.trans prompt) (earlier.prompt prompt empty)

end Emits

/-- The fault of emitting lines. -/
def Halts (emitted : List Line) (before : Tracing) : Fault → Tracing → Prop :=
  Stops (emitted.flatMap (Line.encode before.tracer.encoding)) before

namespace Halts

variable {fault : Fault}

theorem ofLine {line : Line}
    (stops : Stops (line.encode before.tracer.encoding) before fault after) :
    Halts [line] before fault after := by
  unfold Halts
  rw [List.flatMap_singleton]
  exact stops

theorem append (halts : Halts emitted before fault after) (more : List Line) :
    Halts (emitted ++ more) before fault after := by
  unfold Halts
  rw [List.flatMap_append]
  exact Stops.append halts _

theorem since (halts : Halts more middle fault after) (emits : Emits emitted before middle) :
    Halts (emitted ++ more) before fault after := by
  obtain ⟨_, _, streams⟩ := emits.streams
  unfold Halts at *
  rw [streams.encoding] at halts
  rw [List.flatMap_append]
  exact halts.since streams

end Halts

/-- No line has begun, and these lines were emitted so far. -/
structure Ready (emitted : List Line) (tracing : Tracing) : Prop where
  draft : tracing.tracer.draft = []
  watched : Watched emitted tracing.tracer.audit

/-- The tracer is at rest, and these lines were emitted so far. -/
structure Rests (emitted : List Line) (tracing : Tracing) : Prop extends
    tracing.tracer.AtRest where
  watched : Watched emitted tracing.tracer.audit

theorem Rests.ready (rests : Rests emitted tracing) : Ready emitted tracing :=
  ⟨rests.draft, rests.watched⟩

theorem Rests.over (rests : Rests emitted tracing) (channel : Channel) :
    Rests emitted ⟨tracing.tracer, channel⟩ :=
  ⟨rests.toAtRest, rests.watched⟩

theorem Ready.ofSameLine (ready : Ready emitted before)
    (sameLine : before.tracer.SameLine after.tracer) : Ready emitted after := by
  obtain ⟨spool, delivery, same⟩ := sameLine
  constructor
  · rw [same]
    exact ready.draft
  · rw [same]
    exact ready.watched

theorem Rests.ofSameLine (rests : Rests emitted before)
    (sameLine : before.tracer.SameLine after.tracer) : Rests emitted after :=
  ⟨rests.toAtRest.ofSameLine sameLine, (rests.ready.ofSameLine sameLine).watched⟩

theorem flushIfDue_passes (tracing : Tracing) :
    Yields tracing.flushIfDue
      (fun _ flushed => Passes [] tracing flushed ∧
        (tracing.tracer.flushEachLine = true →
          tracing.tracer.encoding.separator ∉ flushed.tracer.spool.contents))
      (Stops [] tracing) := by
  unfold flushIfDue
  split
  case isTrue due =>
    rcases tracing.flush_streams.split with
      ⟨fault, flushed, outcome, stops⟩ | ⟨delivery, flushed, outcome, _, streams, sameLine, free⟩
    · rw [outcome]
      exact stops
    · rw [outcome]
      exact ⟨⟨⟨_, _, streams⟩, sameLine⟩, fun _ => free⟩
  case isFalse notDue => exact ⟨.refl tracing, fun due => absurd due notDue⟩

theorem streams_closeLine (tracing : Tracing) (line : Line) :
    Streams [] [] [] tracing (tracing.closeLine line) := by
  have same := Streams.refl tracing
  exact ⟨same.stream, same.whole, same.fewer, same.kept, same.store, same.session, same.records,
    same.dropped, same.encoding⟩

theorem writeDraft_emits (tracing : Tracing) (action : Action) :
    Yields (tracing.writeDraft action)
      (fun _ written => Emits [⟨action, tracing.tracer.draft⟩] tracing written ∧
        written.tracer.draft = [] ∧
        written.tracer.audit =
          tracing.tracer.audit.map fun audit => { audit with sources := [] })
      (Halts [⟨action, tracing.tracer.draft⟩] tracing) := by
  unfold writeDraft
  dsimp only
  generalize (⟨action, tracing.tracer.draft⟩ : Line) = line
  generalize noting : tracing.note (.lineTraced action tracing.tracer.draft
    tracing.tracer.draftSources?) = traced
  have sameTracer : traced.tracer = tracing.tracer := by rw [← noting]; rfl
  have noted : Streams [] [] [] tracing traced := by
    rw [← noting]
    exact .ofAlike (Alike.note tracing _)
  rcases (traced.putAll_passes (line.encode tracing.tracer.encoding)).split with
    ⟨fault, put, outcome, stops⟩ | ⟨_, put, outcome, ⟨_, _, streams⟩, spool, delivery, same⟩
  · rw [outcome]
    exact .ofLine (stops.since noted)
  · rw [outcome]
    rw [sameTracer] at same
    have closing := (noted.trans streams).trans (streams_closeLine put line)
    rw [List.append_nil, List.nil_append] at closing
    refine (put.closeLine line).flushIfDue_passes.imp ?_ ?_
    case refine_2 =>
      intro fault flushed stops
      have stopping := stops.since closing
      rw [List.append_nil] at stopping
      exact .ofLine stopping
    rintro _ flushed ⟨⟨⟨_, _, further⟩, after, late, sameEnd⟩, free⟩
    have whole := closing.trans further
    rw [List.append_nil] at whole
    have closed : (put.closeLine line).tracer.encoding = tracing.tracer.encoding ∧
        (put.closeLine line).tracer.flushEachLine = tracing.tracer.flushEachLine := by
      change put.tracer.encoding = _ ∧ put.tracer.flushEachLine = _
      rw [same]
      exact ⟨rfl, rfl⟩
    have final : flushed.tracer =
        { tracing.tracer with
          spool := after
          draft := []
          tally := ((tracing.tracer.tally.countDelivery delivery).countLine line).countDelivery late
          audit := tracing.tracer.audit.map fun audit => { audit with sources := [] } } := by
      rw [sameEnd]
      unfold closeLine clearDraft Tracer.clearDraft
      rw [same]
    rw [closed.1, closed.2] at free
    refine ⟨.ofLine whole ⟨delivery, late, ?_⟩ ?_ ?_ free, ?_, ?_⟩
    · rw [final]
    · rw [final, Option.isSome_map]
    · rw [final]
    · rw [final]
    · rw [final]

/-- A line is put on the draft, and the audit lets it pass. -/
structure Drafts (line : Line) (before drafted : Tracing) : Prop where
  noted : ∃ sources,
    (before.tracer.setDraft line.literals sources).noteDraft line.action = .ok (.ok drafted.tracer)
  channel : drafted.channel = before.channel

/-- A clause is refused, and nothing remains of it, or it becomes the draft of a line. -/
theorem emitClause_cases (ready : Ready emitted tracing) (action : Action)
    (exported : Except Int32 (List Literal)) (sources : List UInt32) :
    (∃ error, Plan.lineOf (Plan.barsEmpty tracing.tracer.audit.isSome emitted) action exported =
        .error error ∧
      tracing.emitClause action exported sources = (.ok (.error error), tracing.clearDraft)) ∨
      ∃ drafted, Alike tracing drafted ∧
        Plan.lineOf (Plan.barsEmpty tracing.tracer.audit.isSome emitted) action exported =
          .ok ⟨action, drafted.tracer.draft⟩ ∧
        Watched (emitted ++ [⟨action, drafted.tracer.draft⟩]) drafted.tracer.audit ∧
        Drafts ⟨action, drafted.tracer.draft⟩ tracing drafted ∧
        drafted.tracer.draftSources? =
          (tracing.tracer.setDraft drafted.tracer.draft sources).draftSources? ∧
        tracing.emitClause action exported sources =
          ((drafted.writeDraft action).1.map .ok, (drafted.writeDraft action).2) := by
  unfold emitClause
  rw [ready.draft, List.isEmpty_nil, if_pos rfl]
  cases exported with
  | error word => exact Or.inl ⟨_, rfl, rfl⟩
  | ok literals =>
      unfold assemble emit
      dsimp only
      have watched : Watched emitted (tracing.tracer.setDraft literals sources).audit :=
        ready.watched.forget sources
      have same : (tracing.tracer.setDraft literals sources).audit.isSome =
          tracing.tracer.audit.isSome := Option.isSome_map
      rcases noteDraft_cases watched action with
        ⟨barred, noted⟩ | ⟨passed, audit, noted, audited, known⟩
      · rw [same] at barred
        refine Or.inl ⟨_, barred, ?_⟩
        rw [noted]
        unfold clearDraft
        dsimp only
        rw [Tracer.clearDraft_setDraft]
      · rw [same] at passed
        let drafted : Tracing :=
          { tracing with tracer := { tracing.tracer.setDraft literals sources with audit } }
        have alike : Alike tracing drafted :=
          ⟨rfl, rfl, rfl, rfl, audited.trans same, rfl, rfl⟩
        have same := Tracer.draftSources?_of_noteDraft noted
        refine Or.inr ⟨drafted, alike, passed, known, ⟨⟨sources, noted⟩, rfl⟩, same, ?_⟩
        rw [noted]
        dsimp only
        rcases drafted.writeDraft action with ⟨fault | _, written⟩
        · rfl
        · rfl

theorem emitClause_of_error (ready : Ready emitted tracing) {action : Action}
    {exported : Except Int32 (List Literal)} {error : TraceError}
    (refused : Plan.lineOf (Plan.barsEmpty tracing.tracer.audit.isSome emitted) action exported =
      .error error) (sources : List UInt32) :
    tracing.emitClause action exported sources = (.ok (.error error), tracing.clearDraft) := by
  rcases emitClause_cases ready action exported sources with
    ⟨_, barred, outcome⟩ | ⟨_, _, passed, _⟩
  · cases refused.symm.trans barred
    exact outcome
  · cases refused.symm.trans passed

theorem Rests.emitClause_of_error (rests : Rests emitted tracing) {action : Action}
    {exported : Except Int32 (List Literal)} {error : TraceError}
    (refused : Plan.lineOf (Plan.barsEmpty tracing.tracer.audit.isSome emitted) action exported =
      .error error) (sources : List UInt32) :
    tracing.emitClause action exported sources = (.ok (.error error), tracing) := by
  rw [Tracing.emitClause_of_error rests.ready refused, clearDraft, rests.toAtRest.clearDraft_eq]

theorem emitClause_of_ok (ready : Ready emitted tracing) {action : Action}
    {exported : Except Int32 (List Literal)} {line : Line}
    (planned : Plan.lineOf (Plan.barsEmpty tracing.tracer.audit.isSome emitted) action exported =
      .ok line) (sources : List UInt32) :
    Yields (tracing.emitClause action exported sources)
      (fun answer after => answer = .ok () ∧ Emits [line] tracing after ∧
        Rests (emitted ++ [line]) after)
      (Halts [line] tracing) := by
  rcases emitClause_cases ready action exported sources with
    ⟨_, barred, _⟩ | ⟨drafted, alike, passed, known, _, _, outcome⟩
  · cases planned.symm.trans barred
  · cases planned.symm.trans passed
    rw [outcome]
    refine Yields.through Except.ok id ((drafted.writeDraft_emits action).imp ?_
      (fun _ _ halts => halts.since (.ofAlike alike)))
    rintro _ written ⟨emits, empty, cleared⟩
    refine ⟨rfl, (Emits.ofAlike alike).trans emits, ⟨empty, ?_⟩, ?_⟩
    · rw [id, cleared]
      exact Tracer.sources_of_forgotten
    · rw [id, cleared]
      exact known.forget []

/-- An operation keeps to its plan and ends between two lines, at rest if it began so, or it meets its
fault on the way. -/
def Executes (before : Tracing) (emitted : List Line) (plan : Plan)
    (outcome : Except Fault (Except TraceError Unit) × Tracing) : Prop :=
  Yields outcome
    (fun answer after => answer = plan.answer ∧ Emits plan.lines before after ∧
      Ready (emitted ++ plan.lines) after ∧ (before.tracer.AtRest → after.tracer.AtRest))
    (Halts plan.lines before)

theorem Executes.rests {plan : Plan}
    {outcome : Except Fault (Except TraceError Unit) × Tracing}
    (executes : before.Executes emitted plan outcome) (rest : before.tracer.AtRest) :
    Yields outcome
      (fun answer after => answer = plan.answer ∧ Emits plan.lines before after ∧
        Rests (emitted ++ plan.lines) after)
      (Halts plan.lines before) :=
  executes.imp (fun _ _ ⟨told, emits, ready, keeps⟩ => ⟨told, emits, keeps rest, ready.watched⟩)
    (fun _ _ halts => halts)

theorem Ready.executes_refusal (ready : Ready emitted tracing) (error : TraceError) :
    tracing.Executes emitted ⟨[], .error error⟩ (.ok (.error error), tracing) := by
  refine ⟨rfl, .refl tracing, ?_, id⟩
  rw [List.append_nil]
  exact ready

theorem Ready.executes_clearDraft (ready : Ready emitted tracing) (error : TraceError) :
    tracing.Executes emitted ⟨[], .error error⟩ (.ok (.error error), tracing.clearDraft) := by
  refine ⟨rfl, .ofAlike (Alike.clearDraft tracing), ⟨rfl, ?_⟩, fun _ => Tracer.atRest_clearDraft _⟩
  rw [List.append_nil]
  exact ready.watched.forget []

theorem emitClause_executes (ready : Ready emitted tracing) (action : Action)
    (exported : Except Int32 (List Literal)) (sources : List UInt32) :
    tracing.Executes emitted
      (.ofLines [Plan.lineOf (Plan.barsEmpty tracing.tracer.audit.isSome emitted) action exported])
      (tracing.emitClause action exported sources) := by
  cases planned : Plan.lineOf (Plan.barsEmpty tracing.tracer.audit.isSome emitted) action
      exported with
  | error error =>
      rw [emitClause_of_error ready planned]
      exact ready.executes_clearDraft error
  | ok line =>
      exact (emitClause_of_ok ready planned sources).imp
        (fun _ _ ⟨told, emits, rests⟩ => ⟨told, emits, rests.ready, fun _ => rests.toAtRest⟩)
        (fun _ _ halts => halts)

theorem emitShrunk_executes (ready : Ready emitted tracing) (solver : Solver σ)
    (state : SolverState σ) (clause : List UInt32) (remove keep : UInt32) :
    tracing.Executes emitted
      ((Request.shrink clause remove keep).plan solver state
        (Plan.barsEmpty tracing.tracer.audit.isSome emitted))
      (tracing.emitShrunk solver state clause remove keep) := by
  unfold emitShrunk Request.plan
  rw [ready.draft, List.isEmpty_nil, Bool.not_true, if_neg Bool.false_ne_true]
  dsimp only
  by_cases present : clause.contains remove = true
  · rw [if_pos present, if_pos present]
    generalize clause.filter (solver.retains state remove keep) = retained
    cases planned : Plan.lineOf (Plan.barsEmpty tracing.tracer.audit.isSome emitted) .add
        (solver.exportClause? state retained) with
    | error error =>
        rw [emitClause_of_error ready planned]
        exact ready.executes_clearDraft error
    | ok line =>
        rcases (emitClause_of_ok ready planned retained).split with
          ⟨fault, added, outcome, halts⟩ | ⟨_, added, outcome, rfl, emits, restsBetween⟩
        · rw [outcome]
          exact halts.append _
        · rw [outcome]
          -- The second line begins where the first one left the tracer at rest.
          have deleting := (emitClause_executes restsBetween.ready .delete
            (solver.exportClause? state clause) clause).rests restsBetween.toAtRest
          rw [Plan.lineOf_delete_eq _ (Plan.barsEmpty tracing.tracer.audit.isSome emitted)]
            at deleting
          refine deleting.imp ?_ (fun _ _ halts => halts.since emits)
          rintro answer deleted ⟨rfl, later, restsLast⟩
          rw [List.append_assoc] at restsLast
          exact ⟨rfl, emits.trans later, restsLast.ready, fun _ => restsLast.toAtRest⟩
  · rw [if_neg present, if_neg present]
    exact ready.executes_refusal .literalNotInClause

theorem perform_executes (ready : Ready emitted tracing) (solver : Solver σ)
    (state : SolverState σ) (request : Request) :
    tracing.Executes emitted
      (request.plan solver state (Plan.barsEmpty tracing.tracer.audit.isSome emitted))
      (tracing.perform solver state request) := by
  cases request with
  | add clause => exact emitClause_executes ready .add _ clause
  | delete clause => exact emitClause_executes ready .delete _ clause
  | shrink clause remove keep => exact emitShrunk_executes ready solver state clause remove keep
  | deleteExported words =>
      have aside := Emits.ofAlike (Alike.note tracing (.deletionGiven words))
      have noted : Ready emitted (tracing.note (.deletionGiven words)) :=
        ready.ofSameLine (.refl _)
      refine (emitClause_executes noted .delete (words.mapM exported?) []).imp ?_
        (fun _ _ halts => halts.since aside)
      rintro answer after ⟨told, emits, readyAfter, keeps⟩
      exact ⟨told, aside.trans emits, readyAfter, keeps⟩

/-- A flush touches no line that has begun, and takes every separator out of the spool. -/
theorem flush_emits (tracing : Tracing) :
    Yields tracing.flush
      (fun _ flushed => Emits [] tracing flushed ∧ tracing.tracer.SameLine flushed.tracer ∧
        tracing.tracer.encoding.separator ∉ flushed.tracer.spool.contents)
      (Halts [] tracing) := by
  refine tracing.flush_streams.imp ?_ (fun _ _ stops => stops)
  rintro delivery flushed ⟨_, streams, sameLine, free⟩
  obtain ⟨spool, late, same⟩ := sameLine
  refine ⟨⟨⟨_, _, streams⟩, ?_, ?_, ?_, ?_, ?_, ?_, ?_⟩, ⟨spool, late, same⟩, free⟩
  · rw [same]; rfl
  · rw [same]; rfl
  · rw [same]; rfl
  · rw [same]; rfl
  · rw [same]
  · rw [same]
  · intro _ empty
    have stream := streams.stream
    rw [empty] at stream
    exact (List.append_eq_nil_iff.mp stream).2

theorem start_rests (encoding : Encoding) (settings : Settings) (capacity : Nat)
    (channel : Channel) : Rests [] ⟨Tracer.start encoding settings capacity, channel⟩ where
  toAtRest := Tracer.atRest_start encoding settings capacity
  watched := by
    intro audit present
    unfold Tracer.start at present
    dsimp only at present
    split at present
    · cases present
      rfl
    · cases present

end Tracing

end ClauseExchange
