import ClauseExchange.Solver

/-!
Solvers that leave the clause stack to the intake: importing a literal does not touch it. What the
other hooks do to the stack makes no difference, since the intake clears it after them.
-/

namespace ClauseExchange.Solver

variable {σ : Type}

def KeepsStack (solver : Solver σ) : Prop :=
  ∀ literal state, (solver.importLiteral literal state).2.stack = state.stack

/-- A solver without a state of its own, whose literals are the words of the exchanged ones. -/
def plain : Solver Unit where
  exportLiteral _ literal := literal.toInt32
  importLiteral literal state := (literal.word.toUInt32, state)
  value _ _ := 0
  level _ _ := 0
  learnUnit _ state := state
  learnClause _ state := state

end ClauseExchange.Solver
