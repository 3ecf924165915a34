import ClauseExchange.Proofs.Channel.Journals
import ClauseExchange.Proofs.Tracer.Parallel
import ClauseExchange.Proofs.Tracer.Run

/-!
The audit is an onlooker. A tracer with an audit does the same as one without, save that it refuses a
second addition of the empty clause and does nothing then.
-/

namespace ClauseExchange

variable {σ : Type}

namespace Channel

/-- One session and one store, and journals that differ at most in the solver's literals of lines. -/
structure SameButSources (first second : Channel) : Prop where
  session : first.session = second.session
  store : first.store = second.store
  journal : first.journal.map Notice.withoutSources = second.journal.map Notice.withoutSources

namespace SameButSources

variable {first second : Channel}

theorem refl (channel : Channel) : SameButSources channel channel :=
  ⟨rfl, rfl, rfl⟩

theorem note (same : SameButSources first second) {one other : Notice}
    (alike : one.withoutSources = other.withoutSources) :
    SameButSources (first.note one) (second.note other) where
  session := same.session
  store := same.store
  journal := by
    unfold Channel.note
    rw [Array.map_push, Array.map_push, same.journal, alike]

theorem iff_sameBut : SameButSources first second ↔
    SameBut (fun one other => one.map Notice.withoutSources = other.map Notice.withoutSources)
      first second :=
  ⟨fun same => ⟨same.session, same.store, same.journal⟩,
    fun same => ⟨same.session, same.store, same.journal⟩⟩

theorem send (same : SameButSources first second) (records : List Bytes) :
    Agree SameButSources (first.send records) (second.send records) := by
  simp only [Agree, iff_sameBut] at same ⊢
  apply same.send
  intro one other alike notice
  simp [alike]

end SameButSources

end Channel

/-! A request is planned alike with and without an audit, as long as no empty clause is barred. -/

namespace Plan

theorem lineOf_false_ne (action : Action) (exported : Except Int32 (List Literal)) :
    lineOf false action exported ≠ .error .emptyClauseAgain := by
  cases exported with
  | error word => exact nofun
  | ok literals => exact nofun

theorem lineOf_delete_ne (barred : Bool) (exported : Except Int32 (List Literal)) :
    lineOf barred .delete exported ≠ .error .emptyClauseAgain := by
  rw [lineOf_delete_eq barred false]
  exact lineOf_false_ne .delete exported

theorem lineOf_eq_of_ne (barred : Bool) {action : Action} {exported : Except Int32 (List Literal)}
    (fresh : lineOf false action exported ≠ .ok Line.addEmpty) :
    lineOf barred action exported = lineOf false action exported := by
  cases exported with
  | error word => rfl
  | ok literals =>
      have other : (⟨action, literals⟩ : Line) ≠ Line.addEmpty :=
        fun same => fresh (congrArg Except.ok same)
      rw [lineOf, beq_eq_false_iff_ne.mpr other, Bool.and_false]
      rfl

theorem answer_ofLines_ne {lines : List (Except TraceError Line)}
    (fresh : ∀ line ∈ lines, line ≠ .error .emptyClauseAgain) :
    (ofLines lines).answer ≠ .error .emptyClauseAgain := by
  induction lines with
  | nil => exact nofun
  | cons line lines induction =>
      obtain ⟨first, rest⟩ := List.forall_mem_cons.mp fresh
      cases line with
      | error error => exact fun same => first (by rw [← Except.error.inj same])
      | ok line => exact induction rest

theorem ofLines_congr {first other : Except TraceError Line} {rest : List (Except TraceError Line)}
    (same : first ≠ .ok Line.addEmpty → other = first)
    (fresh : Line.addEmpty ∉ (ofLines (first :: rest)).lines) :
    ofLines (other :: rest) = ofLines (first :: rest) := by
  rw [same]
  rintro rfl
  exact fresh List.mem_cons_self

end Plan

namespace Request

variable (solver : Solver σ) (state : SolverState σ) (request : Request)

theorem answer_plan_false_ne :
    (request.plan solver state false).answer ≠ .error .emptyClauseAgain := by
  have single (action : Action) (exported : Except Int32 (List Literal)) :
      (Plan.ofLines [Plan.lineOf false action exported]).answer ≠ .error .emptyClauseAgain :=
    Plan.answer_ofLines_ne (List.forall_mem_singleton.mpr (Plan.lineOf_false_ne action exported))
  cases request with
  | add clause => exact single .add _
  | delete clause => exact single .delete _
  | deleteExported words => exact single .delete _
  | shrink clause remove keep =>
      unfold plan
      dsimp only
      split
      · exact Plan.answer_ofLines_ne (List.forall_mem_cons.mpr ⟨Plan.lineOf_false_ne .add _,
          List.forall_mem_singleton.mpr (Plan.lineOf_false_ne .delete _)⟩)
      · exact nofun

theorem plan_eq_of_not_mem (barred : Bool)
    (fresh : Line.addEmpty ∉ (request.plan solver state false).lines) :
    request.plan solver state barred = request.plan solver state false := by
  cases request with
  | add clause => exact Plan.ofLines_congr (Plan.lineOf_eq_of_ne barred) fresh
  | delete clause => exact Plan.ofLines_congr (Plan.lineOf_eq_of_ne barred) fresh
  | deleteExported words => exact Plan.ofLines_congr (Plan.lineOf_eq_of_ne barred) fresh
  | shrink clause remove keep =>
      unfold plan at fresh ⊢
      dsimp only at fresh ⊢
      split
      case isTrue present =>
        rw [if_pos present] at fresh
        rw [Plan.lineOf_delete_eq barred false]
        exact Plan.ofLines_congr (Plan.lineOf_eq_of_ne barred) fresh
      case isFalse => rfl

end Request

namespace Tracing

namespace Step

variable (solver : Solver σ)

theorem answer_plan_false_ne (emitted : List Line) (step : Step σ) :
    (step.plan solver false emitted).answer ≠ .error .emptyClauseAgain := by
  cases step with
  | perform state request => exact request.answer_plan_false_ne solver state
  | flush => exact nofun
  | outside deed => exact nofun

theorem answer_plans_false_ne (emitted : List Line) (steps : List (Step σ)) :
    ∀ plan ∈ plans solver false emitted steps, plan.answer ≠ .error .emptyClauseAgain := by
  induction steps generalizing emitted with
  | nil => exact nofun
  | cons step steps induction =>
      exact List.forall_mem_cons.mpr ⟨answer_plan_false_ne solver emitted step, induction _⟩

theorem length_plans (audited : Bool) (emitted : List Line) (steps : List (Step σ)) :
    (plans solver audited emitted steps).length = steps.length := by
  induction steps generalizing emitted with
  | nil => rfl
  | cons step steps induction => exact congrArg (· + 1) (induction _)

/-- Where the empty clause comes up once at most, an audit has nothing to refuse. -/
theorem plans_true_eq (emitted : List Line) (steps : List (Step σ))
    (once : (emitted ++ (plans solver false emitted steps).flatMap Plan.lines).count
      Line.addEmpty ≤ 1) :
    plans solver true emitted steps = plans solver false emitted steps := by
  induction steps generalizing emitted with
  | nil => rfl
  | cons step steps induction =>
      unfold plans at once ⊢
      dsimp only at once ⊢
      rw [List.flatMap_cons, ← List.append_assoc] at once
      have same : step.plan solver true emitted = step.plan solver false emitted := by
        cases step with
        | flush => rfl
        | outside deed => rfl
        | perform state request =>
            unfold plan at once ⊢
            dsimp only at once ⊢
            by_cases added : Line.addEmpty ∈ emitted
            · apply request.plan_eq_of_not_mem
              intro again
              have first := List.one_le_count_iff.mpr added
              have second := List.one_le_count_iff.mpr again
              have both : emitted.count Line.addEmpty +
                  (request.plan solver state false).lines.count Line.addEmpty ≤ 1 := by
                rw [List.count_append, List.count_append] at once
                exact Nat.le_trans (Nat.le_add_right _ _) once
              omega
            · rw [Plan.barsEmpty, Plan.barsEmpty, List.contains_eq_mem, decide_eq_false added]
              rfl
      rw [same, induction _ once]

end Step

/-- What a step answers: a request its answer, a flush what became of the records. -/
inductive Response where
  | performed (answer : Except TraceError Unit)
  | flushed (delivery : Delivery)
  | passed
deriving DecidableEq

def Response.answer : Response → Except TraceError Unit
  | .performed answer => answer
  | _ => .ok ()

/-- Whether a second addition of the empty clause was refused. -/
def Response.refusesEmpty (response : Response) : Bool :=
  response = .performed (.error .emptyClauseAgain)

theorem Response.refusesEmpty_iff {response : Response} :
    response.refusesEmpty = true ↔ response.answer = .error .emptyClauseAgain := by
  unfold refusesEmpty
  cases response with
  | performed answer => simp [Response.answer]
  | flushed delivery => simp [Response.answer]
  | passed => simp [Response.answer]

def respond (solver : Solver σ) : Step σ → Tracing → Except Fault Response × Tracing
  | .perform state request, tracing =>
      let (outcome, after) := tracing.perform solver state request
      (outcome.map .performed, after)
  | .flush, tracing =>
      let (outcome, after) := tracing.flush
      (outcome.map .flushed, after)
  | .outside deed, tracing =>
      let store := tracing.channel.store.undergo deed
      (.ok .passed, { tracing with channel := { tracing.channel with store } })

theorem step_eq_respond (solver : Solver σ) (step : Step σ) (tracing : Tracing) :
    tracing.step solver step =
      ((tracing.respond solver step).1.map Response.answer, (tracing.respond solver step).2) := by
  cases step with
  | perform state request =>
      unfold Tracing.step respond
      dsimp only
      rcases tracing.perform solver state request with ⟨fault | answer, after⟩
      · rfl
      · rfl
  | flush =>
      unfold Tracing.step respond
      dsimp only
      rcases tracing.flush with ⟨fault | delivery, after⟩
      · rfl
      · rfl
  | outside deed => rfl

theorem respond_rests {emitted : List Line} {tracing : Tracing} (rests : Rests emitted tracing)
    (solver : Solver σ) (step : Step σ) :
    Yields (tracing.respond solver step)
      (fun response after =>
        response.answer = (step.plan solver tracing.tracer.audit.isSome emitted).answer ∧
          after.tracer.audit.isSome = tracing.tracer.audit.isSome ∧
          Rests (emitted ++ (step.plan solver tracing.tracer.audit.isSome emitted).lines) after)
      (fun fault after => after.channel.OutOfNumbers fault) := by
  have stepping := step_rests rests solver step
  rw [step_eq_respond] at stepping
  generalize tracing.respond solver step = outcome at stepping ⊢
  rcases outcome with ⟨fault | response, after⟩
  · exact stepping
  · exact stepping

theorem runAll_respond_answers {emitted : List Line} {tracing : Tracing}
    (rests : Rests emitted tracing) (solver : Solver σ) (steps : List (Step σ)) :
    Yields (runAll (respond solver) steps tracing)
      (fun responses _ => responses.map Response.answer =
        (Step.plans solver tracing.tracer.audit.isSome emitted steps).map Plan.answer)
      (fun fault after => after.channel.OutOfNumbers fault) := by
  induction steps generalizing emitted tracing with
  | nil => exact rfl
  | cons step steps induction =>
      apply Yields.runAll_cons (respond_rests rests solver step)
      rintro response middle ⟨answered, audited, restsBetween⟩
      have running := induction restsBetween
      rw [audited] at running
      refine running.imp ?_ (fun _ _ outOfNumbers => outOfNumbers)
      intro responses _ rest
      rw [List.map_cons, Step.plans, List.map_cons, answered, rest]

/-- A request that is refused for the empty clause leaves everything as it was. -/
theorem perform_of_barred {emitted : List Line} {tracing : Tracing} (rests : Rests emitted tracing)
    {solver : Solver σ} {state : SolverState σ} {request : Request}
    (barred : (request.plan solver state
      (Plan.barsEmpty tracing.tracer.audit.isSome emitted)).answer = .error .emptyClauseAgain) :
    tracing.perform solver state request = (.ok (.error .emptyClauseAgain), tracing) := by
  cases request with
  | add clause =>
      unfold Request.plan at barred
      dsimp only at barred
      cases planned : Plan.lineOf (Plan.barsEmpty tracing.tracer.audit.isSome emitted) .add
          (solver.exportClause? state clause) with
      | ok line =>
          rw [planned] at barred
          cases barred
      | error error =>
          rw [planned] at barred
          cases barred
          exact rests.emitClause_of_error planned clause
  | delete clause =>
      exact absurd barred (Plan.answer_ofLines_ne (List.forall_mem_singleton.mpr
        (Plan.lineOf_delete_ne _ _)))
  | deleteExported words =>
      exact absurd barred (Plan.answer_ofLines_ne (List.forall_mem_singleton.mpr
        (Plan.lineOf_delete_ne _ _)))
  | shrink clause remove keep =>
      unfold Request.plan at barred
      unfold perform emitShrunk
      dsimp only at barred ⊢
      rw [rests.draft, List.isEmpty_nil, Bool.not_true, if_neg Bool.false_ne_true]
      split
      case isFalse absent =>
        rw [if_neg absent] at barred
        cases barred
      case isTrue present =>
        rw [if_pos present] at barred
        cases planned : Plan.lineOf (Plan.barsEmpty tracing.tracer.audit.isSome emitted) .add
            (solver.exportClause? state (clause.filter (solver.retains state remove keep))) with
        | ok line =>
            rw [planned] at barred
            exact absurd barred (Plan.answer_ofLines_ne (List.forall_mem_cons.mpr
              ⟨nofun, List.forall_mem_singleton.mpr (Plan.lineOf_delete_ne _ _)⟩))
        | error error =>
            rw [planned] at barred
            cases barred
            rw [rests.emitClause_of_error planned]

/-- The same moment of tracing with an audit and without. -/
structure Unaudited (watched bare : Tracing) : Prop where
  tracer : bare.tracer = { watched.tracer with audit := none }
  channel : Channel.SameButSources watched.channel bare.channel

theorem unaudited_iff {watched bare : Tracing} :
    Unaudited watched bare ↔
      Parallel Channel.SameButSources (fun _ other => other = none) watched bare := by
  constructor
  · obtain ⟨tracer, first⟩ := watched
    obtain ⟨_, second⟩ := bare
    rintro ⟨rfl, same⟩
    exact .pair tracer rfl same
  · rintro ⟨tracer, rfl, same⟩
    exact ⟨rfl, same⟩

theorem lockstep_unaudited : Lockstep Channel.SameButSources (fun _ other => other = none) True where
  note same _ _ alike := same.note alike
  send same records := same.send records
  forget := by
    rintro _ _ rfl _
    rfl
  noteDraft tracer audit other none action := by
    subst none
    rcases noteDraft_passes { tracer with audit } action with refused | ⟨noted, passed⟩
    · exact Or.inr ⟨refused, Or.inl trivial⟩
    · refine Or.inl ⟨noted, none, rfl, passed, ?_⟩
      cases action <;> rfl

/-- With an audit a step has the answer that it has without, unless it is refused for the empty clause;
then it leaves everything as it was. -/
theorem respond_unaudited {emitted : List Line} {watched bare : Tracing}
    (rests : Rests emitted watched) (unaudited : Unaudited watched bare) (solver : Solver σ)
    (step : Step σ) :
    Yields (watched.respond solver step)
      (fun response after =>
        (response.refusesEmpty = true ∧ after = watched) ∨
          (response.refusesEmpty = false ∧
            ∃ other, bare.respond solver step = (.ok response, other) ∧ Unaudited after other))
      (fun fault after => after.channel.OutOfNumbers fault) := by
  have parallel := unaudited_iff.mp unaudited
  cases step with
  | perform state request =>
      unfold respond
      dsimp only
      have executes := perform_executes rests.ready solver state request
      by_cases barred : (request.plan solver state
          (Plan.barsEmpty watched.tracer.audit.isSome emitted)).answer = .error .emptyClauseAgain
      · rw [perform_of_barred rests barred]
        exact Or.inl ⟨rfl, rfl⟩
      · rcases lockstep_unaudited.perform parallel solver state request with agree | ⟨_, refused⟩
        · rcases agree.split with
            ⟨fault, after, _, one, _, _⟩ | ⟨answer, after, other, one, two, still⟩
          · rw [one] at executes ⊢
            exact executes.outOfNumbers
          · rw [one] at executes ⊢
            obtain ⟨told, _⟩ := executes
            refine Or.inr ⟨?_, other, ?_, unaudited_iff.mpr still⟩
            · rw [← told] at barred
              exact decide_eq_false (fun same => barred (Response.performed.inj same))
            · rw [two]
              rfl
        · generalize watched.perform solver state request = outcome at executes refused
          obtain ⟨_, after⟩ := outcome
          cases refused
          exact absurd executes.1.symm barred
  | flush =>
      unfold respond
      dsimp only
      have executes := watched.flush_emits
      rcases (lockstep_unaudited.flush parallel).split with
        ⟨fault, after, _, one, _, _⟩ | ⟨delivery, after, other, one, two, still⟩
      · rw [one] at executes ⊢
        exact executes.outOfNumbers
      · rw [one]
        refine Or.inr ⟨rfl, other, ?_, unaudited_iff.mpr still⟩
        rw [two]
        rfl
  | outside deed =>
      have same := unaudited.channel
      exact Or.inr ⟨rfl, _, rfl, unaudited.tracer, same.session,
        congrArg (fun store => store.undergo deed) same.store, same.journal⟩

theorem respond_follows (solver : Solver σ) (step : Step σ) {watched bare : Tracing}
    (related : (∃ emitted, Rests emitted watched) ∧ Unaudited watched bare) :
    Yields (watched.respond solver step)
      (fun response after =>
        (response.refusesEmpty = true ∧ (∃ emitted, Rests emitted after) ∧ Unaudited after bare) ∨
          (response.refusesEmpty = false ∧ ∃ other, bare.respond solver step = (.ok response, other) ∧
            (∃ emitted, Rests emitted after) ∧ Unaudited after other))
      (fun fault after => after.channel.OutOfNumbers fault) := by
  obtain ⟨⟨emitted, rests⟩, unaudited⟩ := related
  refine ((respond_unaudited rests unaudited solver step).both
    (respond_rests rests solver step)).imp ?_ (fun _ _ outOfNumbers => outOfNumbers.1)
  rintro response after ⟨⟨refused, rfl⟩ | ⟨allowed, other, stepped, still⟩, _, _, restsAfter⟩
  · exact Or.inl ⟨refused, ⟨emitted, rests⟩, unaudited⟩
  · exact Or.inr ⟨allowed, other, stepped, ⟨_, restsAfter⟩, still⟩

theorem noteDraft_ne_invalidLiteral (tracer : Tracer) (action : Action) (word : Int32) :
    tracer.noteDraft action ≠ .ok (.error (.invalidLiteral word)) := by
  rcases noteDraft_passes tracer action with refused | ⟨audit, passed⟩
  · rw [refused]
    exact nofun
  · rw [passed]
    exact nofun

/-- An audit changes nothing but its own state: a run with it is the run without it of the steps that it
does not refuse, and of all steps where the empty clause is added once at most. Literals of a line
being assembled are never what it refuses. -/
theorem run_audited_as_unaudited (solver : Solver σ) (encoding : Encoding) (settings : Settings)
    (capacity : Nat) (channel : Channel) (steps : List (Step σ)) :
    let watched : Tracing :=
      ⟨Tracer.start encoding { settings with audit := true } capacity, channel⟩
    let bare : Tracing :=
      ⟨Tracer.start encoding { settings with audit := false } capacity, channel⟩
    (∀ tracer action word, Tracer.noteDraft action tracer ≠ .ok (.error (.invalidLiteral word))) ∧
      Yields (runAll (respond solver) steps watched)
        (fun responses after =>
          (∃ other,
            runAll (respond solver) (granted Response.refusesEmpty steps responses) bare =
                (.ok (responses.filter (!·.refusesEmpty)), other) ∧
              Unaudited after other) ∧
          ((Step.emitted solver false steps).count Line.addEmpty ≤ 1 →
            ∃ other, runAll (respond solver) steps bare = (.ok responses, other) ∧
              Unaudited after other))
        (fun fault after => after.channel.OutOfNumbers fault) := by
  intro watched bare
  refine ⟨noteDraft_ne_invalidLiteral, ?_⟩
  have rests : Rests [] watched := start_rests encoding _ capacity channel
  have unaudited : Unaudited watched bare := ⟨rfl, .refl channel⟩
  have granting := Yields.runAll_granted (respond_follows solver) ⟨⟨[], rests⟩, unaudited⟩ steps
  refine (granting.both (runAll_respond_answers rests solver steps)).imp ?_
    (fun _ _ outOfNumbers => outOfNumbers.1)
  rintro responses after ⟨⟨other, ran, _, still⟩, answers⟩
  refine ⟨⟨other, ran, still⟩, ?_⟩
  intro once
  rw [show watched.tracer.audit.isSome = true from rfl, Step.plans_true_eq solver [] steps once]
    at answers
  have same : steps.length = responses.length := by
    have lengths := congrArg List.length answers
    rw [List.length_map, List.length_map, Step.length_plans] at lengths
    exact lengths.symm
  have none : ∀ response ∈ responses, response.refusesEmpty = false := by
    intro response member
    have told := List.mem_map_of_mem (f := Response.answer) member
    rw [answers] at told
    obtain ⟨plan, planned, answer⟩ := List.mem_map.mp told
    apply eq_false_of_ne_true
    intro refuses
    rw [Response.refusesEmpty_iff.mp refuses] at answer
    exact Step.answer_plans_false_ne solver [] steps plan planned answer
  obtain ⟨whole, all⟩ := granted_of_all same none
  rw [whole, all] at ran
  exact ⟨other, ran, still⟩

end Tracing

end ClauseExchange
