/-!
Faults: the states that the exchange takes for granted never to meet. An operation that meets one
breaks off where it stands.
-/

namespace ClauseExchange

inductive Fault where
  /-- A byte was to be added to a spool without room. -/
  | spoolFull
  /-- A unit was to be marked outside the table of units. -/
  | unitOutsideTable
  /-- A line was begun while another one was being assembled. -/
  | draftInProgress
  /-- A clause without literals was to be handed to the solver. -/
  | emptyClause
  /-- The clause stack held nothing after a clause had been assembled on it. -/
  | emptyStack
  /-- A record was to be numbered past the last number there is. -/
  | numbersExhausted
deriving DecidableEq

end ClauseExchange
