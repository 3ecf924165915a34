import ClauseExchange.Proofs.Solver.Exporting
import ClauseExchange.Proofs.Solver.KeepsStack
import ClauseExchange.Proofs.Tracer.Unaudited

/-!
Requests for one line are carried out as a whole or not at all. A request is refused for the first of its
words that is no literal, or because it adds the empty clause again where that is barred. Then all is as
it was but for the journal, and nothing that follows tells the difference.
-/

namespace ClauseExchange

variable {σ : Type}

/-- The one line that a request is for: what becomes of a clause, and its words. A shrink takes two. -/
def Request.proposal (solver : Solver σ) (state : SolverState σ) :
    Request → Option (Action × List Int32)
  | .add clause => some (.add, clause.map (solver.exportLiteral state))
  | .delete clause => some (.delete, clause.map (solver.exportLiteral state))
  | .deleteExported words => some (.delete, words)
  | .shrink .. => none

theorem Plan.barsEmpty_iff {audited : Bool} {emitted : List Line} :
    barsEmpty audited emitted = true ↔ audited = true ∧ Line.addEmpty ∈ emitted := by
  simp [barsEmpty]

namespace Tracing

namespace SameButJournal

variable {first second : Tracing}

theorem emits (same : SameButJournal first second) : Emits [] second first := by
  apply Emits.ofAlike
  constructor
  all_goals simp [same.tracer, same.session, same.store]

theorem eq_parallel :
    SameButJournal = Parallel (Channel.SameBut fun _ _ => True) Eq := by
  ext first second
  rw [parallel_eq_iff]
  constructor
  · intro same
    exact ⟨same.tracer, same.session, same.store, trivial⟩
  · intro same
    exact ⟨same.1, same.2.session, same.2.store⟩

theorem lockstep : Lockstep (Channel.SameBut fun _ _ => True) Eq False := by
  apply Lockstep.ofChannels
  · intro one other same _ _ _
    exact same.note trivial
  · intro one other same records
    exact same.send (fun _ _ => trivial) records

theorem respond (same : SameButJournal first second) (solver : Solver σ) (step : Step σ) :
    Agree SameButJournal (first.respond solver step) (second.respond solver step) := by
  cases step with
  | perform state request =>
      have performing : Agree SameButJournal (first.perform solver state request)
          (second.perform solver state request) := by
        rw [eq_parallel] at same ⊢
        exact lockstep.perform_agrees same solver state request
      exact ⟨congrArg (Except.map Response.performed) performing.1, performing.2⟩
  | flush =>
      have flushing : Agree SameButJournal first.flush second.flush := by
        rw [eq_parallel] at same ⊢
        exact lockstep.flush same
      exact ⟨congrArg (Except.map Response.flushed) flushing.1, flushing.2⟩
  | outside deed =>
      exact ⟨rfl, same.tracer, same.session, congrArg (Store.undergo · deed) same.store⟩

theorem finish (same : SameButJournal first second) :
    Agree SameButJournal first.finish second.finish := by
  rw [eq_parallel] at same ⊢
  exact lockstep.finish same

end SameButJournal

/-- The answer to a request for one line. It is refused for its first word that is no literal; failing
that, as an empty clause added again; and not otherwise. -/
structure Judges (action : Action) (words : List Int32) (barred : Prop)
    (answer : Except TraceError Unit) : Prop where
  invalid (word : Int32) : answer = .error (.invalidLiteral word) ↔
    firstInvalid words = some word
  again : answer = .error .emptyClauseAgain ↔
    firstInvalid words = none ∧
      action = .add ∧ words = [] ∧ barred
  passed : answer = .ok () ↔
    firstInvalid words = none ∧
      ¬(action = .add ∧ words = [] ∧ barred)

section

variable {action : Action} {words : List Int32} {barred : Prop}

theorem judges_invalid {word : Int32}
    (found : firstInvalid words = some word) :
    Judges action words barred (.error (.invalidLiteral word)) := by
  constructor
  · intro other
    simp [found]
  · simp [found]
  · simp [found]

theorem judges_again (empty : action = .add ∧ words = [] ∧ barred) :
    Judges action words barred (.error .emptyClauseAgain) := by
  obtain ⟨rfl, rfl, holds⟩ := empty
  have none : firstInvalid [] = none := rfl
  constructor
  · intro other
    simp [none]
  · simp [none, holds]
  · simp [none, holds]

theorem judges_passed (none : firstInvalid words = none)
    (fresh : ¬(action = .add ∧ words = [] ∧ barred)) : Judges action words barred (.ok ()) := by
  constructor
  · intro other
    simp [none]
  · simp [none, fresh]
  · simp [none, fresh]

end

/-- Nothing is left of a request, and whatever is done later goes as it would have gone without it. -/
structure LeavesNothing (solver : Solver σ) (before after : Tracing) : Prop where
  same : SameButJournal after before
  draft : after.tracer.draft = []
  later (steps : List (Step σ)) :
    Agree SameButJournal (runAll (respond solver) steps after) (runAll (respond solver) steps before)
  finish : Agree SameButJournal after.finish before.finish

theorem leavesNothing_of_same {before after : Tracing} (solver : Solver σ)
    (same : SameButJournal after before) (draft : before.tracer.draft = []) :
    LeavesNothing solver before after where
  same := same
  draft := same.tracer ▸ draft
  later := Agree.runAll (fun step _ _ same => same.respond solver step) same
  finish := same.finish

/-- A request for one line emits the clause of its words, once these are noted as given. -/
theorem perform_of_proposal {solver : Solver σ} {state : SolverState σ} {request : Request}
    {action : Action} {words : List Int32}
    (single : request.proposal solver state = some (action, words)) (tracing : Tracing) :
    ∃ noted sources, SameButJournal noted tracing ∧
      tracing.perform solver state request =
        noted.emitClause action (words.mapM exported?) sources := by
  cases request with
  | add clause =>
      cases single
      exact ⟨tracing, clause, .refl tracing, by rw [perform, solver.exportClause?_eq]⟩
  | delete clause =>
      cases single
      exact ⟨tracing, clause, .refl tracing, by rw [perform, solver.exportClause?_eq]⟩
  | deleteExported given =>
      cases single
      exact ⟨tracing.note _, [], .note tracing _, rfl⟩
  | shrink clause remove keep => cases single

theorem perform_single_rests {emitted : List Line} {tracing : Tracing} (rests : Rests emitted tracing)
    {solver : Solver σ} {state : SolverState σ} {request : Request} {action : Action}
    {words : List Int32} (single : request.proposal solver state = some (action, words)) :
    Yields (tracing.perform solver state request)
      (fun answer after =>
        Judges action words (tracing.tracer.audit.isSome = true ∧ Line.addEmpty ∈ emitted) answer ∧
        (answer = .ok () → ∃ literals : List Literal, literals.map Literal.word = words ∧
          Emits [⟨action, literals⟩] tracing after) ∧
        (answer ≠ .ok () → LeavesNothing solver tracing after))
      (fun fault after => after.channel.OutOfNumbers fault ∧
        Judges action words (tracing.tracer.audit.isSome = true ∧ Line.addEmpty ∈ emitted)
          (.ok ())) := by
  obtain ⟨noted, sources, same, performed⟩ := perform_of_proposal single tracing
  have restsNoted : Rests emitted noted := by
    have elsewhere := rests.over noted.channel
    rwa [← same.tracer] at elsewhere
  have nothing := leavesNothing_of_same solver same rests.draft
  rw [performed, ← same.tracer]
  rcases Plan.lineOf_words_cases (Plan.barsEmpty noted.tracer.audit.isSome emitted) action words with
    ⟨word, found, planned⟩ | ⟨again, planned⟩ | ⟨none, fresh, literals, spelled, planned⟩
  · rw [restsNoted.emitClause_of_error planned]
    exact ⟨judges_invalid found, nofun, fun _ => nothing⟩
  · rw [Plan.barsEmpty_iff] at again
    rw [restsNoted.emitClause_of_error planned]
    exact ⟨judges_again again, nofun, fun _ => nothing⟩
  · rw [Plan.barsEmpty_iff] at fresh
    have judged := judges_passed none fresh
    refine (emitClause_of_ok restsNoted.ready planned sources).imp ?_ ?_
    · intro answer after emitting
      obtain ⟨rfl, emits, _⟩ := emitting
      have emitted := same.emits.trans emits
      exact ⟨judged, fun _ => ⟨literals, spelled, emitted⟩, fun refused => absurd rfl refused⟩
    · intro fault after halts
      exact ⟨halts.outOfNumbers, judged⟩

variable (encoding : Encoding) (settings : Settings) (capacity : Nat) (channel link : Channel)
  (steps : List (Step σ))

/-- After any run and over any channel, a request for one line is judged by its words alone, and by
whether the empty clause is barred. Either its line is emitted, or nothing is left of it. -/
theorem single_line_all_or_nothing {solver : Solver σ} {state : SolverState σ} {request : Request}
    {action : Action} {words : List Int32}
    (single : request.proposal solver state = some (action, words)) :
    Yields (run solver steps ⟨Tracer.start encoding settings capacity, channel⟩)
      (fun _ middle =>
        Yields (perform solver state request ⟨middle.tracer, link⟩)
          (fun answer after =>
            Judges action words
              (settings.audit = true ∧ Line.addEmpty ∈ Step.emitted solver settings.audit steps)
              answer ∧
            (answer = .ok () → ∃ literals : List Literal, literals.map Literal.word = words ∧
              Emits [⟨action, literals⟩] ⟨middle.tracer, link⟩ after) ∧
            (answer ≠ .ok () → LeavesNothing solver ⟨middle.tracer, link⟩ after))
          (fun fault after => after.channel.OutOfNumbers fault ∧
            Judges action words
              (settings.audit = true ∧ Line.addEmpty ∈ Step.emitted solver settings.audit steps)
              (.ok ())))
      (fun fault middle => middle.channel.OutOfNumbers fault) := by
  refine (run_start_rests encoding settings capacity channel solver steps).imp ?_
    (fun _ _ outOfNumbers => outOfNumbers)
  intro _ middle reached
  obtain ⟨audited, rests⟩ := reached
  rw [← audited] at rests ⊢
  exact perform_single_rests (rests.over link) single

/-- A clause of one literal, from which that literal is taken out. -/
def shrinkToEmpty : List (Step Unit) := [.perform ⟨(), #[]⟩ (.shrink [1] 1 2)]

/-- A shrink added the empty clause, and so it is refused. -/
theorem single_line_all_or_nothing_afterShrink :
    Request.addEmpty.proposal Solver.plain ⟨(), #[]⟩ = some (.add, []) ∧
      Yields (run .plain shrinkToEmpty
          ⟨Tracer.start .text { audit := true } 0, ⟨Session.ofSettings {}, {}, #[]⟩⟩)
        (fun _ middle =>
          Yields (perform .plain ⟨(), #[]⟩ .addEmpty
              ⟨middle.tracer, ⟨Session.ofSettings {}, {}, #[]⟩⟩)
            (fun answer after => answer = .error .emptyClauseAgain ∧
              LeavesNothing .plain ⟨middle.tracer, ⟨Session.ofSettings {}, {}, #[]⟩⟩ after)
            (fun _ _ => False))
        (fun fault middle => middle.channel.OutOfNumbers fault) := by
  have single : Request.addEmpty.proposal Solver.plain ⟨(), #[]⟩ = some (.add, []) := rfl
  have added : Line.addEmpty ∈ Step.emitted Solver.plain true shrinkToEmpty := by decide
  refine ⟨single, (single_line_all_or_nothing .text { audit := true } 0
    ⟨Session.ofSettings {}, {}, #[]⟩ ⟨Session.ofSettings {}, {}, #[]⟩ shrinkToEmpty single).imp ?_
    (fun _ _ outOfNumbers => outOfNumbers)⟩
  intro _ middle performed
  refine performed.imp ?_ ?_
  · intro answer after told
    obtain ⟨judged, _, nothing⟩ := told
    have again := judged.again.mpr ⟨rfl, rfl, rfl, rfl, added⟩
    refine ⟨again, nothing ?_⟩
    rw [again]
    exact nofun
  · intro fault after told
    exact (told.2.passed.mp rfl).2 ⟨rfl, rfl, rfl, added⟩

end Tracing

end ClauseExchange
