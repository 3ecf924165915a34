import ClauseExchange.Solver

/-!
A solver that keeps a record of what it is told: each call is noted with the clause stack of the
moment, and then passed on to the solver underneath.
-/

namespace ClauseExchange

inductive SolverCall where
  | imported (literal : Literal)
  | learntUnit (literal : UInt32) (stack : Array UInt32)
  | learntClause (glue : Nat) (stack : Array UInt32)
deriving DecidableEq

structure Recorded (σ : Type) where
  data : σ
  calls : Array SolverCall := #[]

variable {σ : Type}

def SolverState.unrecorded (state : SolverState (Recorded σ)) : SolverState σ :=
  { data := state.data.data, stack := state.stack }

def SolverState.recorded (state : SolverState σ) (calls : Array SolverCall) :
    SolverState (Recorded σ) :=
  { data := { data := state.data, calls }, stack := state.stack }

def Solver.recorded (solver : Solver σ) : Solver (Recorded σ) where
  exportLiteral state literal := solver.exportLiteral state.unrecorded literal
  value state literal := solver.value state.unrecorded literal
  level state literal := solver.level state.unrecorded literal
  importLiteral
    | literal, ⟨⟨data, calls⟩, stack⟩ =>
        let (imported, next) := solver.importLiteral literal ⟨data, stack⟩
        (imported, next.recorded (calls.push (.imported literal)))
  learnUnit
    | literal, ⟨⟨data, calls⟩, stack⟩ =>
        (solver.learnUnit literal ⟨data, stack⟩).recorded
          (calls.push (.learntUnit literal stack))
  learnClause
    | glue, ⟨⟨data, calls⟩, stack⟩ =>
        (solver.learnClause glue ⟨data, stack⟩).recorded
          (calls.push (.learntClause glue stack))

end ClauseExchange
