import ClauseExchange.Proofs.Tracer.Run

/-!
Drafts that are taken up literal by literal, each put behind what is on the draft already. A tracer at
rest has nothing there, so this comes to the same as to set the whole draft at once; and whichever way a
draft ends, written, refused or given up, it leaves the tracer at rest.
-/

namespace ClauseExchange

variable {σ : Type}

namespace Tracer

variable {tracer : Tracer}

/-- Puts literals behind those on the draft, and the solver's literals behind those that are kept. -/
def extendDraft (literals : List Literal) (sources : List UInt32) (tracer : Tracer) : Tracer :=
  { tracer with
    draft := tracer.draft ++ literals
    audit := tracer.audit.map fun audit => { audit with sources := audit.sources ++ sources } }

theorem extendDraft_nil (tracer : Tracer) : tracer.extendDraft [] [] = tracer := by
  obtain ⟨encoding, flushEachLine, spool, draft, tally, _ | audit⟩ := tracer <;> simp [extendDraft]

theorem extendDraft_extendDraft (tracer : Tracer) (literals more : List Literal)
    (sources others : List UInt32) :
    (tracer.extendDraft literals sources).extendDraft more others =
      tracer.extendDraft (literals ++ more) (sources ++ others) := by
  simp [extendDraft, Function.comp_def]

theorem clearDraft_extendDraft (tracer : Tracer) (literals : List Literal) (sources : List UInt32) :
    (tracer.extendDraft literals sources).clearDraft = tracer.clearDraft := by
  simp [extendDraft, clearDraft, Function.comp_def]

theorem AtRest.extendDraft_eq (rest : tracer.AtRest) (literals : List Literal)
    (sources : List UInt32) :
    tracer.extendDraft literals sources = tracer.setDraft literals sources := by
  unfold extendDraft setDraft
  rw [rest.draft]
  cases present : tracer.audit with
  | none => rfl
  | some audit => simp [rest.sources audit present]

end Tracer

namespace Tracing

variable {emitted : List Line} {tracing : Tracing}

/-- Takes up words one after another, each with the solver's literal that it comes from, if there is one.
The first word that is no literal clears the draft. -/
def draftEach : List (Int32 × Option UInt32) → Tracing → Except TraceError Unit × Tracing
  | [], tracing => (.ok (), tracing)
  | (word, source) :: entries, tracing =>
      match Literal.ofWord? word with
      | none => (.error (.invalidLiteral word), tracing.clearDraft)
      | some literal =>
          draftEach entries
            { tracing with tracer := tracing.tracer.extendDraft [literal] source.toList }

theorem draftEach_eq (entries : List (Int32 × Option UInt32)) (tracing : Tracing) :
    tracing.draftEach entries =
      match (entries.map Prod.fst).mapM exported? with
      | .ok literals =>
          (.ok (), { tracing with
            tracer := tracing.tracer.extendDraft literals (entries.filterMap Prod.snd) })
      | .error word => (.error (.invalidLiteral word), tracing.clearDraft) := by
  induction entries generalizing tracing with
  | nil =>
      change _ = ((.ok (), { tracing with tracer := tracing.tracer.extendDraft [] [] }) :
        Except TraceError Unit × Tracing)
      rw [Tracer.extendDraft_nil]
      rfl
  | cons entry entries induction =>
      obtain ⟨word, source⟩ := entry
      rw [draftEach, List.map_cons, List.mapM_cons, exported?]
      cases Literal.ofWord? word with
      | none => rfl
      | some literal =>
          dsimp only
          rw [induction]
          cases (entries.map Prod.fst).mapM exported? with
          | error word =>
              simp [clearDraft, Tracer.clearDraft_extendDraft, bind, Except.bind]
          | ok literals =>
              cases source <;>
                simp [Tracer.extendDraft_extendDraft, bind, Except.bind, pure, Except.pure]

def emitEach (action : Action) (entries : List (Int32 × Option UInt32)) (tracing : Tracing) :
    Except Fault (Except TraceError Unit) × Tracing :=
  if tracing.tracer.draft.isEmpty then
    match tracing.draftEach entries with
    | (.error error, tracing) => (.ok (.error error), tracing)
    | (.ok (), tracing) => tracing.emit action
  else
    (.error .draftInProgress, tracing)

theorem emitEach_eq (rest : tracing.tracer.AtRest) (action : Action)
    (entries : List (Int32 × Option UInt32)) :
    tracing.emitEach action entries =
      tracing.emitClause action ((entries.map Prod.fst).mapM exported?)
        (entries.filterMap Prod.snd) := by
  unfold emitEach emitClause
  rw [draftEach_eq]
  cases (entries.map Prod.fst).mapM exported? with
  | error word => rfl
  | ok literals =>
      dsimp only
      rw [rest.extendDraft_eq]
      rfl

/-- A clause of the solver, with the exported words of its literals. -/
def entries (solver : Solver σ) (state : SolverState σ) (clause : List UInt32) :
    List (Int32 × Option UInt32) :=
  clause.map fun literal => (solver.exportLiteral state literal, some literal)

theorem emitEach_entries (rest : tracing.tracer.AtRest) (action : Action) (solver : Solver σ)
    (state : SolverState σ) (clause : List UInt32) :
    tracing.emitEach action (entries solver state clause) =
      tracing.emitClause action (solver.exportClause? state clause) clause := by
  rw [emitEach_eq rest, solver.exportClause?_eq]
  simp [entries, Function.comp_def]

/-- Does what a request asks for, with drafts that are taken up literal by literal. -/
def performEach (solver : Solver σ) (state : SolverState σ) (request : Request)
    (tracing : Tracing) : Except Fault (Except TraceError Unit) × Tracing :=
  match request with
  | .add clause => tracing.emitEach .add (entries solver state clause)
  | .delete clause => tracing.emitEach .delete (entries solver state clause)
  | .deleteExported words =>
      (tracing.note (.deletionGiven words)).emitEach .delete (words.map fun word => (word, none))
  | .shrink clause remove keep =>
      if !tracing.tracer.draft.isEmpty then
        (.error .draftInProgress, tracing)
      else if clause.contains remove then
        let retained := clause.filter (solver.retains state remove keep)
        match tracing.emitEach .add (entries solver state retained) with
        | (.ok (.ok ()), tracing) => tracing.emitEach .delete (entries solver state clause)
        | stopped => stopped
      else
        (.ok (.error .literalNotInClause), tracing)

theorem performEach_eq (rests : Rests emitted tracing) (solver : Solver σ)
    (state : SolverState σ) (request : Request) :
    tracing.performEach solver state request = tracing.perform solver state request := by
  cases request with
  | add clause => exact emitEach_entries rests.toAtRest .add solver state clause
  | delete clause => exact emitEach_entries rests.toAtRest .delete solver state clause
  | deleteExported words =>
      have noted : (tracing.note (.deletionGiven words)).tracer.AtRest := rests.toAtRest
      unfold performEach perform
      dsimp only
      rw [emitEach_eq noted]
      simp [Function.comp_def]
  | shrink clause remove keep =>
      unfold performEach perform emitShrunk
      dsimp only
      rw [emitEach_entries rests.toAtRest]
      -- The deletion starts where the addition ends, which is at rest again.
      have adding := (emitClause_executes rests.ready .add
        (solver.exportClause? state (clause.filter (solver.retains state remove keep)))
        (clause.filter (solver.retains state remove keep))).rests rests.toAtRest
      generalize tracing.emitClause .add _ _ = outcome at adding ⊢
      rcases outcome with ⟨fault | error | ⟨⟩, added⟩
      · rfl
      · rfl
      · dsimp only
        rw [emitEach_entries adding.2.2.toAtRest]

def stepEach (solver : Solver σ) : Step σ → Tracing → Except Fault (Except TraceError Unit) × Tracing
  | .perform state request, tracing => tracing.performEach solver state request
  | step, tracing => tracing.step solver step

/-- A run may take up its drafts literal by literal: nothing of an earlier draft is in the way. -/
theorem runEach_eq (rests : Rests emitted tracing) (solver : Solver σ) (steps : List (Step σ)) :
    runAll (stepEach solver) steps tracing = tracing.run solver steps := by
  refine (runAll_congr (fun tracing => ∃ emitted, Rests emitted tracing) ?_ ?_ ⟨emitted, rests⟩
    steps).symm
  · rintro step tracing ⟨emitted, rests⟩
    cases step with
    | perform state request => exact (performEach_eq rests solver state request).symm
    | _ => rfl
  · rintro step tracing ⟨emitted, rests⟩
    exact (step_rests rests solver step).imp (fun _ _ held => ⟨_, held.2.2⟩) (fun _ _ _ => trivial)

end Tracing

end ClauseExchange
