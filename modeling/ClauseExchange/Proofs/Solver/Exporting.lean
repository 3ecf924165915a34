import ClauseExchange.Proofs.Literal
import ClauseExchange.Tracer.Request

/-!
A clause is exported if all of its literals are, each to a word that is neither zero nor the least one.
Otherwise the first word that is no literal is told.
-/

namespace ClauseExchange

/-- The first word that is no literal. -/
def firstInvalid (words : List Int32) : Option Int32 :=
  words.find? fun word => word = 0 ∨ word = Int32.minValue

theorem Tracing.mapM_exported?_cases (words : List Int32) :
    (∃ word, firstInvalid words = some word ∧ words.mapM exported? = .error word) ∨
      (firstInvalid words = none ∧
        ∃ literals, literals.map Literal.word = words ∧ words.mapM exported? = .ok literals) := by
  induction words with
  | nil => exact Or.inr ⟨rfl, [], rfl, rfl⟩
  | cons word words induction =>
      rw [List.mapM_cons, exported?]
      unfold firstInvalid at induction ⊢
      cases read : Literal.ofWord? word with
      | none =>
          have invalid := Literal.ofWord?_eq_none_iff.mp read
          exact Or.inl ⟨word, List.find?_cons_of_pos (by simpa using invalid), rfl⟩
      | some literal =>
          obtain rfl := Literal.ofWord?_eq_some_iff.mp read
          have valid := literal.word_valid
          rw [List.find?_cons_of_neg (by simpa using valid)]
          rcases induction with ⟨other, found, refused⟩ | ⟨none, literals, rfl, exported⟩
          · refine Or.inl ⟨other, found, ?_⟩
            rw [refused]
            rfl
          · refine Or.inr ⟨none, literal :: literals, rfl, ?_⟩
            rw [exported]
            rfl

namespace Solver

variable {σ : Type} {solver : Solver σ} {state : SolverState σ}

/-- The exported form of a literal is a literal. -/
def Exports (solver : Solver σ) (state : SolverState σ) (literal : UInt32) : Prop :=
  solver.exportLiteral state literal ≠ 0 ∧ solver.exportLiteral state literal ≠ Int32.minValue

/-- A clause is exported word by word. -/
theorem exportClause?_eq (solver : Solver σ) (state : SolverState σ) (clause : List UInt32) :
    solver.exportClause? state clause =
      (clause.map (solver.exportLiteral state)).mapM Tracing.exported? := by
  rw [List.mapM_map]
  rfl

theorem exportClause?_cases (solver : Solver σ) (state : SolverState σ) (clause : List UInt32) :
    ((∀ literal ∈ clause, solver.Exports state literal) ∧ ∃ exported,
        solver.exportClause? state clause = .ok exported ∧
          exported.map Literal.word = clause.map (solver.exportLiteral state)) ∨
      ∃ literal ∈ clause, ¬solver.Exports state literal ∧
        solver.exportClause? state clause = .error (solver.exportLiteral state literal) := by
  rw [exportClause?_eq]
  rcases Tracing.mapM_exported?_cases (clause.map (solver.exportLiteral state)) with
    ⟨word, found, refused⟩ | ⟨none, exported, words, outcome⟩
  · right
    obtain ⟨literal, member, rfl⟩ := List.mem_map.mp (List.mem_of_find?_eq_some found)
    have invalid := List.find?_some found
    refine ⟨literal, member, ?_, refused⟩
    intro exports
    simp [exports.1, exports.2] at invalid
  · left
    refine ⟨?_, exported, outcome, words⟩
    intro literal member
    simpa [Exports] using List.find?_eq_none.mp none _ (List.mem_map_of_mem member)

end Solver

end ClauseExchange
