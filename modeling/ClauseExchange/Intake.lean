import ClauseExchange.Channel
import ClauseExchange.Intake.Contribution
import ClauseExchange.Solver

/-!
The intake hands the contributions of peers to the solver. A poll reads the lists under successive
numbers until it comes to one that is empty or missing, and a number is used up by every list read,
whether its clause was handed over or rejected.
-/

namespace ClauseExchange

structure IntakeTally where
  units : Nat := 0
  clauses : Nat := 0
  rejected : Nat := 0
deriving DecidableEq

structure Intake (σ : Type) where
  tally : IntakeTally := {}
  state : SolverState σ
  channel : Channel

namespace SolverState

variable {σ : Type}

def importOnto (solver : Solver σ) (state : SolverState σ) (literal : Literal) :
    SolverState σ :=
  let (imported, next) := solver.importLiteral literal state
  { next with stack := next.stack.push imported }

def clearStack (state : SolverState σ) : SolverState σ :=
  { state with stack := #[] }

end SolverState

namespace Intake

variable {σ : Type}

def note (intake : Intake σ) (notice : Notice) : Intake σ :=
  { intake with channel := intake.channel.note notice }

def countUnit (intake : Intake σ) : Intake σ :=
  { intake with tally := { intake.tally with units := intake.tally.units + 1 } }

def countClause (intake : Intake σ) : Intake σ :=
  { intake with tally := { intake.tally with clauses := intake.tally.clauses + 1 } }

def countRejected (intake : Intake σ) : Intake σ :=
  { intake with tally := { intake.tally with rejected := intake.tally.rejected + 1 } }

/-- Hands the clause on the stack over, as a unit if it is one and with the glue of its size if not,
and clears the stack. -/
def handOver (solver : Solver σ) (literals : List Literal) (intake : Intake σ) :
    Except Fault Unit × Intake σ :=
  match intake.state.stack[0]? with
  | none => (.error .emptyStack, intake)
  | some first =>
      if intake.state.stack.size = 1 then
        let noted := intake.note (.unitReceived literals)
        let learnt := { noted with state := (solver.learnUnit first noted.state).clearStack }
        (.ok (), learnt.countUnit)
      else
        let noted := intake.note (.clauseReceived literals)
        let glue := noted.state.stack.size - 1
        let learnt := { noted with state := (solver.learnClause glue noted.state).clearStack }
        (.ok (), learnt.countClause)

def load (solver : Solver σ) (literals : List Literal) (intake : Intake σ) :
    Except Fault Unit × Intake σ :=
  if literals.isEmpty then
    (.error .emptyClause, intake)
  else
    { intake with
      state := literals.foldl (SolverState.importOnto solver) intake.state }.handOver
      solver literals

def take (solver : Solver σ) (elements : List Bytes) (intake : Intake σ) :
    Except Fault Unit × Intake σ :=
  match Contribution.read intake.channel.session.nextIncoming elements with
  | .ok literals => intake.load solver literals
  | .error error => (.ok (), (intake.note (.recordRejected error)).countRejected)

def advance (intake : Intake σ) : Except Fault Unit × Intake σ :=
  match intake.channel.session.advanceIncoming? with
  | none => (.error .numbersExhausted, intake)
  | some session => (.ok (), { intake with channel := { intake.channel with session } })

/-- Takes in records, at most `limit` of them, and counts on from `count`. -/
def readRecords (solver : Solver σ) (limit count : Nat) (intake : Intake σ) :
    Except Fault Nat × Intake σ :=
  match limit with
  | 0 => (.ok count, intake)
  | limit + 1 =>
      let key := Key.incoming intake.channel.session.nextIncoming
      match intake.channel.store.range key 0 (-1) with
      | .error error => (.ok count, intake.note (.readFailed key error))
      | .ok [] => (.ok count, intake)
      | .ok elements =>
          match intake.take solver elements with
          | (.error fault, intake) => (.error fault, intake)
          | (.ok (), intake) =>
              match intake.advance with
              | (.error fault, intake) => (.error fault, intake)
              | (.ok (), intake) => intake.readRecords solver limit (count + 1)

/-- Takes in every record there is. A record is a list of its own, so the lists of the store and one
look past the last of them bound the number of looks. -/
def poll (solver : Solver σ) (intake : Intake σ) :
    Except Fault (Except IntakeError Nat) × Intake σ :=
  if intake.state.stack.isEmpty then
    match intake.channel.connect with
    | (false, channel) => (.ok (.ok 0), { intake with channel })
    | (true, channel) =>
        match { intake with channel }.readRecords solver (channel.store.lists.size + 1) 0 with
        | (.error fault, intake) => (.error fault, intake)
        | (.ok count, intake) =>
            (.ok (.ok count),
              intake.note (.recordsRead count intake.channel.session.nextIncoming))
  else
    (.ok (.error .stackNotEmpty), intake)

end Intake

end ClauseExchange
