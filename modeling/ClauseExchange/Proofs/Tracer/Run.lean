import ClauseExchange.Proofs.Tracer.Books

/-!
Runs of a tracer: requests of the solver, flushes, and what others do to the store in between. The
plans of a run tell beforehand which lines it emits and how it answers, whatever becomes of the lines.
-/

namespace ClauseExchange.Tracing

variable {σ : Type}

/-- A step of a run. The solver may have gone on to another state from one request to the next. -/
inductive Step (σ : Type) where
  | perform (state : SolverState σ) (request : Request)
  | flush
  | outside (deed : Store.Deed)

namespace Step

def deeds : Step σ → List Store.Deed
  | .outside deed => [deed]
  | _ => []

def plan (solver : Solver σ) (audited : Bool) (emitted : List Line) : Step σ → Plan
  | .perform state request => request.plan solver state (Plan.barsEmpty audited emitted)
  | _ => .ofLines []

/-- The plans of steps, each in view of the lines emitted before it. -/
def plans (solver : Solver σ) (audited : Bool) (emitted : List Line) : List (Step σ) → List Plan
  | [] => []
  | step :: steps =>
      let plan := step.plan solver audited emitted
      plan :: plans solver audited (emitted ++ plan.lines) steps

def emitted (solver : Solver σ) (audited : Bool) (steps : List (Step σ)) : List Line :=
  (plans solver audited [] steps).flatMap Plan.lines

theorem plans_append (solver : Solver σ) (audited : Bool) (emitted : List Line)
    (steps more : List (Step σ)) :
    plans solver audited emitted (steps ++ more) =
      plans solver audited emitted steps ++
        plans solver audited
          (emitted ++ (plans solver audited emitted steps).flatMap Plan.lines) more := by
  induction steps generalizing emitted with
  | nil => simp [plans]
  | cons step steps induction =>
      rw [List.cons_append, plans, plans, induction, List.cons_append, List.flatMap_cons,
        List.append_assoc]

theorem emitted_append (solver : Solver σ) (audited : Bool) (steps more : List (Step σ)) :
    emitted solver audited (steps ++ more) =
      emitted solver audited steps ++
        (plans solver audited (emitted solver audited steps) more).flatMap Plan.lines := by
  rw [emitted, plans_append, List.flatMap_append, List.nil_append]
  rfl

end Step

def step (solver : Solver σ) : Step σ → Tracing → Except Fault (Except TraceError Unit) × Tracing
  | .perform state request, tracing => tracing.perform solver state request
  | .flush, tracing =>
      match tracing.flush with
      | (.error fault, tracing) => (.error fault, tracing)
      | (.ok _, tracing) => (.ok (.ok ()), tracing)
  | .outside deed, tracing =>
      let store := tracing.channel.store.undergo deed
      (.ok (.ok ()), { tracing with channel := { tracing.channel with store } })

def run (solver : Solver σ) (steps : List (Step σ)) (tracing : Tracing) :
    Except Fault (List (Except TraceError Unit)) × Tracing :=
  runAll (step solver) steps tracing

/-! Between its steps a run is at rest, whatever channel it began on. -/

theorem step_rests {emitted : List Line} {tracing : Tracing} (rests : Rests emitted tracing)
    (solver : Solver σ) (step : Step σ) :
    Yields (tracing.step solver step)
      (fun answer after =>
        answer = (step.plan solver tracing.tracer.audit.isSome emitted).answer ∧
          after.tracer.audit.isSome = tracing.tracer.audit.isSome ∧
          Rests (emitted ++ (step.plan solver tracing.tracer.audit.isSome emitted).lines) after)
      (fun fault after => after.channel.OutOfNumbers fault) := by
  have unchanged : emitted ++ (Plan.ofLines []).lines = emitted := List.append_nil _
  cases step with
  | perform state request =>
      refine ((perform_executes rests.ready solver state request).rests rests.toAtRest).imp ?_
        (fun _ _ halts => halts.outOfNumbers)
      exact fun answer after ⟨told, emits, restsAfter⟩ => ⟨told, emits.audited, restsAfter⟩
  | flush =>
      unfold Tracing.step Step.plan
      dsimp only
      rw [unchanged]
      rcases tracing.flush_emits.split with
        ⟨fault, flushed, outcome, halts⟩ | ⟨delivery, flushed, outcome, emits, sameLine, _⟩
      · rw [outcome]
        exact halts.outOfNumbers
      · rw [outcome]
        exact ⟨rfl, emits.audited, rests.ofSameLine sameLine⟩
  | outside deed =>
      unfold Step.plan
      rw [unchanged]
      exact ⟨rfl, rfl, rests.toAtRest, rests.watched⟩

theorem run_rests {emitted : List Line} {tracing : Tracing} (rests : Rests emitted tracing)
    (solver : Solver σ) (steps : List (Step σ)) :
    Yields (tracing.run solver steps)
      (fun answers after =>
        answers = (Step.plans solver tracing.tracer.audit.isSome emitted steps).map Plan.answer ∧
          after.tracer.audit.isSome = tracing.tracer.audit.isSome ∧
          Rests (emitted ++
            (Step.plans solver tracing.tracer.audit.isSome emitted steps).flatMap Plan.lines) after)
      (fun fault after => after.channel.OutOfNumbers fault) := by
  induction steps generalizing emitted tracing with
  | nil =>
      refine ⟨rfl, rfl, ?_⟩
      rw [Step.plans, List.flatMap_nil, List.append_nil]
      exact rests
  | cons step steps induction =>
      have stepping := step_rests rests solver step
      unfold Step.plans
      dsimp only
      generalize step.plan solver tracing.tracer.audit.isSome emitted = plan at *
      apply Yields.runAll_cons stepping
      rintro answer middle ⟨rfl, audited, restsBetween⟩
      have running := induction restsBetween
      rw [audited] at running
      refine running.imp ?_ (fun _ _ outOfNumbers => outOfNumbers)
      rintro answers after ⟨rfl, auditedAfter, restsAfter⟩
      refine ⟨rfl, auditedAfter, ?_⟩
      rw [List.append_assoc] at restsAfter
      exact restsAfter

variable {first : Nat} {ledger : Ledger} {tracing : Tracing}

theorem step_follows (books : Books first ledger tracing) (solver : Solver σ) (step : Step σ) :
    Yields (tracing.step solver step)
      (fun answer after =>
        answer = (step.plan solver tracing.tracer.audit.isSome ledger.lines).answer ∧
          ∃ news next, Books first next after ∧
            Progress first news (step.plan solver tracing.tracer.audit.isSome ledger.lines).lines
              step.deeds ledger tracing next after)
      (Exhausted (first + (ledger.lines.length +
        (step.plan solver tracing.tracer.audit.isSome ledger.lines).lines.length))) := by
  cases step with
  | perform state request => exact perform_follows books solver state request
  | flush =>
      unfold Tracing.step
      dsimp only
      rcases (flush_books books).split with
        ⟨fault, flushed, outcome, exhausted⟩ |
        ⟨delivery, flushed, outcome, news, next, booksAfter, _, progress⟩
      · rw [outcome]
        exact exhausted
      · rw [outcome]
        exact ⟨rfl, news, next, booksAfter, progress⟩
  | outside deed =>
      have unchanged := Progress.refl first ledger tracing
      refine ⟨rfl, [], ledger, books.moved rfl, ?_⟩
      exact ⟨unchanged.settled, unchanged.lines, unchanged.course.undergo deed, fun _ _ => rfl,
        rfl, rfl, rfl⟩

theorem run_follows (books : Books first ledger tracing) (solver : Solver σ)
    (steps : List (Step σ)) :
    Yields (tracing.run solver steps)
      (fun answers after =>
        answers =
            (Step.plans solver tracing.tracer.audit.isSome ledger.lines steps).map Plan.answer ∧
          ∃ news next, Books first next after ∧
            Progress first news
              ((Step.plans solver tracing.tracer.audit.isSome ledger.lines steps).flatMap Plan.lines)
              (steps.flatMap Step.deeds) ledger tracing next after)
      (Exhausted (first + (ledger.lines.length +
        ((Step.plans solver tracing.tracer.audit.isSome ledger.lines steps).flatMap
          Plan.lines).length))) := by
  induction steps generalizing ledger tracing with
  | nil => exact ⟨rfl, [], ledger, books, Progress.refl first ledger tracing⟩
  | cons step steps induction =>
      have stepping := step_follows books solver step
      unfold Step.plans
      dsimp only
      generalize step.plan solver tracing.tracer.audit.isSome ledger.lines = plan at *
      apply Yields.runAll_cons
      · refine stepping.imp (fun _ _ followed => followed) ?_
        intro fault state exhausted
        apply exhausted.mono
        rw [List.flatMap_cons, List.length_append]
        omega
      · rintro answer middle ⟨rfl, news, next, settled, progress⟩
        have running := induction settled
        rw [progress.audited, progress.lines] at running
        refine running.imp ?_ ?_
        · rintro answers after ⟨rfl, later, last, booksAfter, further⟩
          exact ⟨rfl, _, last, booksAfter, progress.trans further⟩
        · intro fault state exhausted
          apply exhausted.mono
          rw [List.flatMap_cons, List.length_append, List.length_append]
          omega

/-! Where a proof starts and where it ends. -/

theorem start_books (encoding : Encoding) (settings : Settings) (capacity : Nat)
    (channel : Channel) :
    Books channel.session.nextOutgoing {} ⟨Tracer.start encoding settings capacity, channel⟩ := by
  refine ⟨⟨⟨?_, rfl, rfl, rfl⟩, ⟨rfl, rfl, rfl, rfl⟩, fun _ => rfl⟩, rfl, ?_⟩
  · exact Spool.contents_empty capacity
  · intro audit present
    change (if settings.audit = true then some ({} : Audit) else none) = some audit at present
    split at present
    · cases present
      rfl
    · cases present

theorem isSome_audit_start (encoding : Encoding) (settings : Settings) (capacity : Nat) :
    (Tracer.start encoding settings capacity).audit.isSome = settings.audit := by
  unfold Tracer.start
  cases settings.audit <;> rfl

theorem run_start_rests (encoding : Encoding) (settings : Settings) (capacity : Nat)
    (channel : Channel) (solver : Solver σ) (steps : List (Step σ)) :
    Yields (run solver steps ⟨Tracer.start encoding settings capacity, channel⟩)
      (fun _ after => after.tracer.audit.isSome = settings.audit ∧
        Rests (Step.emitted solver settings.audit steps) after)
      (fun fault after => after.channel.OutOfNumbers fault) := by
  have running := run_rests (start_rests encoding settings capacity channel) solver steps
  dsimp only at running
  rw [isSome_audit_start] at running
  exact running.imp (fun _ _ held => held.2) (fun _ _ outOfNumbers => outOfNumbers)

theorem finish_books (books : Books first ledger tracing) :
    Yields tracing.finish
      (fun tally finished =>
        tally = finished.tracer.tally ∧
          ∃ news next, Books first next finished ∧ next.pending = [] ∧
            Progress first news [] [] ledger tracing next finished)
      (Exhausted (first + ledger.lines.length)) := by
  have noted : Books first ledger (tracing.note .proofStopped) := books.moved rfl
  unfold finish
  rcases (flush_books noted).split with
    ⟨fault, flushed, outcome, exhausted⟩ |
    ⟨delivery, flushed, outcome, news, next, booksAfter, nothing, progress⟩
  · rw [outcome]
    exact exhausted
  · rw [outcome]
    have empty : flushed.tracer.spool.size = 0 := by
      rw [← Spool.length_contents, booksAfter.contents, nothing]
      rfl
    dsimp only
    rw [empty, if_neg (Nat.lt_irrefl 0)]
    exact ⟨rfl, news, next, booksAfter, nothing, progress.settled, progress.lines, progress.course,
      progress.kept, progress.encoding, progress.flushEachLine, progress.audited⟩

end ClauseExchange.Tracing
