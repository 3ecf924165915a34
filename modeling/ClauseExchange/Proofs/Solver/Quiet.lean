import ClauseExchange.Intake
import ClauseExchange.Solver.Recording
import ClauseExchange.Tracer.Request

/-!
Quiet solvers: what they are told by an intake changes nothing that a tracer asks them for. A tracer
asks for exported literals, values and levels, and does the same wherever they are the same.
-/

namespace ClauseExchange

variable {σ : Type} {solver : Solver σ}

/-- The solver shows the same with either data, whatever is on its stack. -/
structure Solver.ShowsAlike (solver : Solver σ) (first second : σ) : Prop where
  exports : ∀ stack, solver.exportLiteral ⟨first, stack⟩ = solver.exportLiteral ⟨second, stack⟩
  values : ∀ stack, solver.value ⟨first, stack⟩ = solver.value ⟨second, stack⟩
  levels : ∀ stack, solver.level ⟨first, stack⟩ = solver.level ⟨second, stack⟩

namespace Solver.ShowsAlike

theorem refl (data : σ) : solver.ShowsAlike data data :=
  ⟨fun _ => rfl, fun _ => rfl, fun _ => rfl⟩

theorem trans {first second third : σ} (earlier : solver.ShowsAlike first second)
    (later : solver.ShowsAlike second third) : solver.ShowsAlike first third where
  exports stack := (earlier.exports stack).trans (later.exports stack)
  values stack := (earlier.values stack).trans (later.values stack)
  levels stack := (earlier.levels stack).trans (later.levels stack)

theorem symm {first second : σ} (alike : solver.ShowsAlike first second) :
    solver.ShowsAlike second first where
  exports stack := (alike.exports stack).symm
  values stack := (alike.values stack).symm
  levels stack := (alike.levels stack).symm

end Solver.ShowsAlike

/-- No hook that an intake calls changes what the solver shows. -/
structure Solver.Quiet (solver : Solver σ) : Prop where
  imports : ∀ literal state,
    solver.ShowsAlike state.data (solver.importLiteral literal state).2.data
  units : ∀ literal state, solver.ShowsAlike state.data (solver.learnUnit literal state).data
  clauses : ∀ glue state, solver.ShowsAlike state.data (solver.learnClause glue state).data

structure SolverState.Alike (solver : Solver σ) (first second : SolverState σ) : Prop where
  stack : first.stack = second.stack
  shows : solver.ShowsAlike first.data second.data

namespace SolverState.Alike

variable {first second : SolverState σ}

theorem refl (state : SolverState σ) : Alike solver state state :=
  ⟨rfl, .refl _⟩

theorem trans {third : SolverState σ} (earlier : Alike solver first second)
    (later : Alike solver second third) : Alike solver first third :=
  ⟨earlier.stack.trans later.stack, earlier.shows.trans later.shows⟩

theorem symm (alike : Alike solver first second) : Alike solver second first :=
  ⟨alike.stack.symm, alike.shows.symm⟩

theorem recorded (alike : Alike solver first second) (calls others : Array SolverCall) :
    Alike solver.recorded (first.recorded calls) (second.recorded others) where
  stack := alike.stack
  shows := ⟨alike.shows.exports, alike.shows.values, alike.shows.levels⟩

theorem unrecorded {first second : SolverState (Recorded σ)}
    (alike : Alike solver.recorded first second) :
    Alike solver first.unrecorded second.unrecorded where
  stack := alike.stack
  shows := ⟨alike.shows.exports, alike.shows.values, alike.shows.levels⟩

theorem exportClause? (alike : Alike solver first second) :
    solver.exportClause? first = solver.exportClause? second := by
  have exports := alike.shows.exports first.stack
  funext clause
  unfold Solver.exportClause? Solver.export?
  obtain ⟨data, stack⟩ := first
  obtain ⟨other, _⟩ := second
  cases alike.stack
  rw [exports]

theorem retains (alike : Alike solver first second) :
    solver.retains first = solver.retains second := by
  have values := alike.shows.values first.stack
  have levels := alike.shows.levels first.stack
  funext remove keep literal
  unfold Solver.retains
  obtain ⟨data, stack⟩ := first
  obtain ⟨other, _⟩ := second
  cases alike.stack
  rw [values, levels]

theorem perform (alike : Alike solver first second) (request : Request) (tracing : Tracing) :
    tracing.perform solver first request = tracing.perform solver second request := by
  cases request with
  | add clause => rw [Tracing.perform, Tracing.perform, alike.exportClause?]
  | delete clause => rw [Tracing.perform, Tracing.perform, alike.exportClause?]
  | deleteExported words => rfl
  | shrink clause remove keep =>
      rw [Tracing.perform, Tracing.perform, Tracing.emitShrunk, Tracing.emitShrunk,
        alike.exportClause?, alike.retains]

end SolverState.Alike

namespace Solver.Quiet

theorem foldl_importOnto (quiet : solver.Quiet) (literals : List Literal) (state : SolverState σ) :
    solver.ShowsAlike state.data (literals.foldl (SolverState.importOnto solver) state).data := by
  induction literals generalizing state with
  | nil => exact .refl _
  | cons literal literals induction =>
      have imported := quiet.imports literal state
      exact imported.trans (induction (SolverState.importOnto solver state literal))

theorem handOver (quiet : solver.Quiet) (literals : List Literal) (intake : Intake σ) :
    solver.ShowsAlike intake.state.data (intake.handOver solver literals).2.state.data := by
  unfold Intake.handOver
  split
  · exact .refl _
  · split
    · exact quiet.units _ _
    · exact quiet.clauses _ _

theorem take (quiet : solver.Quiet) (elements : List Bytes) (intake : Intake σ) :
    solver.ShowsAlike intake.state.data (intake.take solver elements).2.state.data := by
  unfold Intake.take
  split
  · rename_i literals _
    unfold Intake.load
    split
    · exact .refl _
    · have handed := quiet.handOver literals
        { intake with
          state := literals.foldl (SolverState.importOnto solver) intake.state }
      exact (quiet.foldl_importOnto literals intake.state).trans handed
  · exact .refl _

theorem state_advance (intake : Intake σ) : intake.advance.2.state = intake.state := by
  unfold Intake.advance
  split
  · rfl
  · rfl

theorem readRecords (quiet : solver.Quiet) (limit count : Nat) (intake : Intake σ) :
    solver.ShowsAlike intake.state.data
      (intake.readRecords solver limit count).2.state.data := by
  induction limit generalizing count intake with
  | zero => exact .refl _
  | succ limit induction =>
      unfold Intake.readRecords
      dsimp only
      split
      · exact .refl _
      · exact .refl _
      · rename_i elements _ _
        have taking := quiet.take elements intake
        generalize intake.take solver elements = outcome at taking ⊢
        rcases outcome with ⟨fault | ⟨⟩, taken⟩
        · exact taking
        · have moving := state_advance taken
          dsimp only at taking ⊢
          generalize taken.advance = outcome at moving ⊢
          rw [← moving] at taking
          rcases outcome with ⟨fault | ⟨⟩, moved⟩
          · exact taking
          · exact taking.trans (induction (count + 1) moved)

/-- A poll leaves what a quiet solver shows. -/
theorem poll (quiet : solver.Quiet) (intake : Intake σ) :
    solver.ShowsAlike intake.state.data (intake.poll solver).2.state.data := by
  unfold Intake.poll
  split
  · rcases intake.channel.connect with ⟨_ | _, connected⟩
    · exact .refl _
    · have reading := quiet.readRecords (connected.store.lists.size + 1) 0
        { intake with channel := connected }
      dsimp only at reading ⊢
      generalize Intake.readRecords solver _ 0 _ = outcome at reading ⊢
      rcases outcome with ⟨fault | total, read⟩
      · exact reading
      · exact reading
  · exact .refl _

/-- Recording is no hindrance to being quiet. -/
theorem recorded (quiet : solver.Quiet) : solver.recorded.Quiet where
  imports := by
    rintro literal ⟨⟨data, _⟩, stack⟩
    have same := quiet.imports literal ⟨data, stack⟩
    exact ⟨same.exports, same.values, same.levels⟩
  units := by
    rintro literal ⟨⟨data, _⟩, stack⟩
    have same := quiet.units literal ⟨data, stack⟩
    exact ⟨same.exports, same.values, same.levels⟩
  clauses := by
    rintro glue ⟨⟨data, _⟩, stack⟩
    have same := quiet.clauses glue ⟨data, stack⟩
    exact ⟨same.exports, same.values, same.levels⟩

end Solver.Quiet

end ClauseExchange
