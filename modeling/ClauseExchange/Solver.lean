import ClauseExchange.Literal

/-!
The solver that takes part in an exchange, as the exchange sees it: a state with a clause stack, and
hooks that look into the state or replace it. A hook may change the clause stack like all else.
-/

namespace ClauseExchange

structure SolverState (σ : Type) where
  data : σ
  stack : Array UInt32 := #[]

structure Solver (σ : Type) where
  exportLiteral : SolverState σ → UInt32 → Int32
  /-- The solver's form of a literal, made up where there is none yet. -/
  importLiteral : Literal → SolverState σ → UInt32 × SolverState σ
  /-- Negative for a false literal, positive for a true one, zero for one without a value. -/
  value : SolverState σ → UInt32 → Int8
  level : SolverState σ → UInt32 → UInt32
  learnUnit : UInt32 → SolverState σ → SolverState σ
  /-- Takes the clause on the stack, with the glue to give it. -/
  learnClause : Nat → SolverState σ → SolverState σ

namespace Solver

variable {σ : Type}

/-- Whether a literal stays when another one is taken out of its clause. Literals that are false from
the outset go too, save the one to keep. -/
def retains (solver : Solver σ) (state : SolverState σ) (remove keep literal : UInt32) : Bool :=
  literal != remove &&
    (literal == keep || decide (0 ≤ solver.value state literal) ||
      decide (0 < solver.level state literal))

def export? (solver : Solver σ) (state : SolverState σ) (literal : UInt32) :
    Except Int32 Literal :=
  let word := solver.exportLiteral state literal
  match Literal.ofWord? word with
  | some exported => .ok exported
  | none => .error word

/-- The exported form of a clause, or the first word that is no literal. -/
def exportClause? (solver : Solver σ) (state : SolverState σ) (clause : List UInt32) :
    Except Int32 (List Literal) :=
  clause.mapM (solver.export? state)

end Solver

end ClauseExchange
