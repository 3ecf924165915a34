import ClauseExchange.Proofs.Tracer.Run

/-!
A run as a trail of what happens between two lines. Whatever each of these events keeps holds after a run,
with the lines that the run emits.
-/

namespace ClauseExchange.Tracing

variable {σ : Type} {emitted : List Line} {start tracing : Tracing}

/-- What a tracer came to from a start, and the lines that it emitted on the way. -/
inductive Trail (start : Tracing) : List Line → Tracing → Prop where
  | start : Trail start [] start
  | note {emitted : List Line} {tracing : Tracing} (trail : Trail start emitted tracing)
      (notice : Notice) : Trail start emitted (tracing.note notice)
  | clearDraft {emitted : List Line} {tracing : Tracing} (trail : Trail start emitted tracing) :
      Trail start emitted tracing.clearDraft
  | line {emitted : List Line} {line : Line} {tracing drafted written : Tracing}
      (trail : Trail start emitted tracing) (drafts : Drafts line tracing drafted)
      (wrote : drafted.writeDraft line.action = (.ok (), written)) :
      Trail start (emitted ++ [line]) written
  | flush {emitted : List Line} {tracing flushed : Tracing} {delivery : Delivery}
      (trail : Trail start emitted tracing) (sent : tracing.flush = (.ok delivery, flushed)) :
      Trail start emitted flushed
  | undergo {emitted : List Line} {tracing : Tracing} (trail : Trail start emitted tracing)
      (deed : Store.Deed) :
      Trail start emitted
        { tracing with
          channel := { tracing.channel with store := tracing.channel.store.undergo deed } }

theorem Drafts.tracer {line : Line} {before drafted : Tracing} (drafts : Drafts line before drafted) :
    ∃ sources audit,
      drafted.tracer = { before.tracer.setDraft line.literals sources with audit } := by
  obtain ⟨sources, noted⟩ := drafts.noted
  rcases noteDraft_passes (before.tracer.setDraft line.literals sources) line.action with
    refused | ⟨audit, passed⟩
  · rw [refused] at noted
    cases noted
  · rw [passed] at noted
    exact ⟨sources, audit, (Except.ok.inj (Except.ok.inj noted)).symm⟩

namespace Trail

theorem emitClause (trail : Trail start emitted tracing) (ready : Ready emitted tracing)
    (action : Action) (exported : Except Int32 (List Literal)) (sources : List UInt32) :
    Yields (tracing.emitClause action exported sources)
      (fun _ after => Trail start
        (emitted ++ (Plan.ofLines
          [Plan.lineOf (Plan.barsEmpty tracing.tracer.audit.isSome emitted) action exported]).lines)
        after)
      (fun _ _ => True) := by
  rcases emitClause_cases ready action exported sources with
    ⟨error, barred, outcome⟩ | ⟨drafted, _, passed, _, drafts, _, outcome⟩
  · rw [outcome, barred]
    change Trail start (emitted ++ []) tracing.clearDraft
    rw [List.append_nil]
    exact trail.clearDraft
  · rw [outcome, passed]
    apply Yields.through Except.ok id
    rcases wrote : drafted.writeDraft action with ⟨fault | _, written⟩
    · trivial
    · exact trail.line drafts wrote

theorem emitShrunk (trail : Trail start emitted tracing) (ready : Ready emitted tracing)
    (solver : Solver σ) (state : SolverState σ) (clause : List UInt32) (remove keep : UInt32) :
    Yields (tracing.emitShrunk solver state clause remove keep)
      (fun _ after => Trail start
        (emitted ++ ((Request.shrink clause remove keep).plan solver state
          (Plan.barsEmpty tracing.tracer.audit.isSome emitted)).lines) after)
      (fun _ _ => True) := by
  unfold Tracing.emitShrunk Request.plan
  rw [ready.draft, List.isEmpty_nil, Bool.not_true, if_neg Bool.false_ne_true]
  dsimp only
  split
  case isFalse absent =>
    change Trail start (emitted ++ []) tracing
    rwa [List.append_nil]
  case isTrue present =>
    generalize clause.filter (solver.retains state remove keep) = retained
    have adding := trail.emitClause ready .add (solver.exportClause? state retained) retained
    cases planned : Plan.lineOf (Plan.barsEmpty tracing.tracer.audit.isSome emitted) .add
        (solver.exportClause? state retained) with
    | error error =>
        rw [planned] at adding
        rw [emitClause_of_error ready planned] at adding ⊢
        exact adding
    | ok line =>
        rw [planned] at adding
        rcases ((emitClause_of_ok ready planned retained).both adding).split with
          ⟨fault, added, outcome, _⟩ | ⟨_, added, outcome, ⟨rfl, _, rests⟩, trailBetween⟩
        · rw [outcome]
          trivial
        · rw [outcome]
          -- The addition left the tracer at rest, and the deletion goes on with its trail.
          have deleting := trailBetween.emitClause rests.ready .delete
            (solver.exportClause? state clause) clause
          rw [Plan.lineOf_delete_eq _ (Plan.barsEmpty tracing.tracer.audit.isSome emitted)]
            at deleting
          simpa [Plan.ofLines] using deleting

theorem perform (trail : Trail start emitted tracing) (ready : Ready emitted tracing)
    (solver : Solver σ) (state : SolverState σ) (request : Request) :
    Yields (tracing.perform solver state request)
      (fun _ after => Trail start
        (emitted ++ (request.plan solver state
          (Plan.barsEmpty tracing.tracer.audit.isSome emitted)).lines) after)
      (fun _ _ => True) := by
  cases request with
  | add clause => exact trail.emitClause ready .add _ clause
  | delete clause => exact trail.emitClause ready .delete _ clause
  | shrink clause remove keep => exact trail.emitShrunk ready solver state clause remove keep
  | deleteExported words =>
      have noted : Ready emitted (tracing.note (.deletionGiven words)) :=
        ready.ofSameLine (.refl _)
      exact (trail.note _).emitClause noted .delete (words.mapM exported?) []

theorem step (trail : Trail start emitted tracing) (ready : Ready emitted tracing)
    (solver : Solver σ) (step : Step σ) :
    Yields (tracing.step solver step)
      (fun _ after => Trail start
        (emitted ++ (step.plan solver tracing.tracer.audit.isSome emitted).lines) after)
      (fun _ _ => True) := by
  have unchanged : emitted ++ (Plan.ofLines []).lines = emitted := List.append_nil _
  cases step with
  | perform state request => exact trail.perform ready solver state request
  | flush =>
      unfold Tracing.step Step.plan
      dsimp only
      rw [unchanged]
      rcases sent : tracing.flush with ⟨fault | delivery, flushed⟩
      · trivial
      · exact trail.flush sent
  | outside deed =>
      unfold Step.plan
      rw [unchanged]
      exact trail.undergo deed

end Trail

/-- A run leaves a trail with the lines that its plans tell, unless it comes to the last number. -/
theorem run_start_trails (encoding : Encoding) (settings : Settings) (capacity : Nat)
    (channel : Channel) (solver : Solver σ) (steps : List (Step σ)) :
    let start : Tracing := ⟨Tracer.start encoding settings capacity, channel⟩
    let emitted := Step.emitted solver settings.audit steps
    Yields (run solver steps start) (fun _ after => Trail start emitted after)
      (Exhausted (channel.session.nextOutgoing + emitted.length)) := by
  intro start emitted
  have following := run_follows (start_books encoding settings capacity channel) solver steps
  rw [isSome_audit_start] at following
  have trails : Yields (run solver steps start)
      (fun _ after =>
        after.tracer.audit.isSome = settings.audit ∧
          Rests (Step.emitted solver settings.audit steps) after ∧
          Trail start (Step.emitted solver settings.audit steps) after)
      (fun _ _ => True) := by
    apply Yields.runAll_invariant
    · exact ⟨isSome_audit_start encoding settings capacity,
        start_rests encoding settings capacity channel, .start⟩
    · intro done one middle _ _ _ held
      obtain ⟨audited, rests, trail⟩ := held
      have grown : Step.emitted solver settings.audit (done ++ [one]) =
          Step.emitted solver settings.audit done ++
            (one.plan solver middle.tracer.audit.isSome
              (Step.emitted solver settings.audit done)).lines := by
        rw [Step.emitted_append, audited]
        simp [Step.plans]
      rw [grown]
      refine ((step_rests rests solver one).both (trail.step rests.ready solver one)).imp ?_
        (fun _ _ _ => trivial)
      intro _ after next
      exact ⟨next.1.2.1.trans audited, next.1.2.2, next.2⟩
  refine (trails.both following).imp (fun _ _ held => held.1.2.2) ?_
  intro fault state broken
  exact broken.2.mono (by simp [Ledger.lines, emitted, Step.emitted])

end ClauseExchange.Tracing
