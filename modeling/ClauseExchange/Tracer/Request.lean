import ClauseExchange.Solver
import ClauseExchange.Tracer

/-!
What a solver asks of a tracer. Clauses are given by the solver's own literals and exported first; a
clause with a literal that has no exported form is refused as a whole.
-/

namespace ClauseExchange

inductive Request where
  | add (clause : List UInt32)
  | delete (clause : List UInt32)
  /-- Deletes a clause that is given in exported form. -/
  | deleteExported (words : List Int32)
  /-- Replaces a clause by a shorter one, from which `remove` is missing. -/
  | shrink (clause : List UInt32) (remove keep : UInt32)
deriving DecidableEq

namespace Request

def addEmpty : Request := .add []

def addUnit (literal : UInt32) : Request := .add [literal]

def addBinary (first second : UInt32) : Request := .add [first, second]

def deleteBinary (first second : UInt32) : Request := .delete [first, second]

end Request

namespace Tracing

variable {σ : Type}

def assemble (exported : Except Int32 (List Literal)) (sources : List UInt32)
    (tracing : Tracing) : Except TraceError Unit × Tracing :=
  match exported with
  | .ok literals =>
      (.ok (), { tracing with tracer := tracing.tracer.setDraft literals sources })
  | .error word => (.error (.invalidLiteral word), tracing.clearDraft)

def emitClause (action : Action) (exported : Except Int32 (List Literal))
    (sources : List UInt32) (tracing : Tracing) :
    Except Fault (Except TraceError Unit) × Tracing :=
  if tracing.tracer.draft.isEmpty then
    match tracing.assemble exported sources with
    | (.error error, tracing) => (.ok (.error error), tracing)
    | (.ok (), tracing) => tracing.emit action
  else
    (.error .draftInProgress, tracing)

/-- Adds the literals that stay, and only then deletes the clause. -/
def emitShrunk (solver : Solver σ) (state : SolverState σ) (clause : List UInt32)
    (remove keep : UInt32) (tracing : Tracing) :
    Except Fault (Except TraceError Unit) × Tracing :=
  if !tracing.tracer.draft.isEmpty then
    (.error .draftInProgress, tracing)
  else if clause.contains remove then
    let retained := clause.filter (solver.retains state remove keep)
    match tracing.emitClause .add (solver.exportClause? state retained) retained with
    | (.ok (.ok ()), tracing) =>
        tracing.emitClause .delete (solver.exportClause? state clause) clause
    | stopped => stopped
  else
    (.ok (.error .literalNotInClause), tracing)

def exported? (word : Int32) : Except Int32 Literal :=
  match Literal.ofWord? word with
  | some literal => .ok literal
  | none => .error word

def perform (solver : Solver σ) (state : SolverState σ) (request : Request)
    (tracing : Tracing) : Except Fault (Except TraceError Unit) × Tracing :=
  match request with
  | .add clause => tracing.emitClause .add (solver.exportClause? state clause) clause
  | .delete clause => tracing.emitClause .delete (solver.exportClause? state clause) clause
  | .deleteExported words =>
      (tracing.note (.deletionGiven words)).emitClause .delete (words.mapM exported?) []
  | .shrink clause remove keep => tracing.emitShrunk solver state clause remove keep

end Tracing

end ClauseExchange
