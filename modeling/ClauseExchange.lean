import ClauseExchange.Participant
import ClauseExchange.Solver.Recording
import ClauseExchange.Store.Relay
import ClauseExchange.Proofs.Literal
import ClauseExchange.Proofs.Numeral.Decimal
import ClauseExchange.Proofs.Numeral.Base128
import ClauseExchange.Proofs.Store.Key
import ClauseExchange.Proofs.Line.Separator
import ClauseExchange.Proofs.Spool.Framing
import ClauseExchange.Proofs.Line.Reading
import ClauseExchange.Proofs.Line.Canonical
import ClauseExchange.Proofs.Line.Grammar
import ClauseExchange.Proofs.Channel.Sending
import ClauseExchange.Proofs.Tracer.Flushing
import ClauseExchange.Proofs.Tracer.Streaming
import ClauseExchange.Proofs.Tracer.Noting
import ClauseExchange.Proofs.Tracer.Plan
import ClauseExchange.Proofs.Tracer.Emitting
import ClauseExchange.Proofs.Tracer.Ledger
import ClauseExchange.Proofs.Tracer.Books
import ClauseExchange.Proofs.Tracer.Run
import ClauseExchange.Proofs.Solver.KeepsStack
import ClauseExchange.Proofs.Tracer.Conservation
import ClauseExchange.Proofs.Intake.Loading
import ClauseExchange.Proofs.Store.Lists
import ClauseExchange.Proofs.Intake.Polling
import ClauseExchange.Proofs.Intake.Run
import ClauseExchange.Proofs.Intake.Delivery
import ClauseExchange.Proofs.Store.Census
import ClauseExchange.Proofs.Intake.Unrecorded
import ClauseExchange.Proofs.Participant.Call
import ClauseExchange.Proofs.Participant.Run
import ClauseExchange.Proofs.Group.Sharing
import ClauseExchange.Proofs.Group.Separation
import ClauseExchange.Proofs.Solver.Exporting
import ClauseExchange.Proofs.Tracer.Shrinking
import ClauseExchange.Proofs.Participant.Resting
import ClauseExchange.Proofs.Channel.Journals
import ClauseExchange.Proofs.Tracer.Parallel
import ClauseExchange.Proofs.Tracer.Unaudited
import ClauseExchange.Proofs.Tracer.Refusing
import ClauseExchange.Proofs.Tracer.FlushEffect
import ClauseExchange.Proofs.Intake.Contribution
import ClauseExchange.Proofs.Intake.PollEffect
import ClauseExchange.Proofs.Doubling
import ClauseExchange.Proofs.Tracer.Trail
import ClauseExchange.Proofs.Tracer.Fitting
import ClauseExchange.Proofs.Tracer.Mirroring
import ClauseExchange.Proofs.Throttle
import ClauseExchange.Proofs.Intake.PassingOn
import ClauseExchange.Proofs.Spool.Queue
import ClauseExchange.Proofs.Store.History
import ClauseExchange.Proofs.Store.Span
import ClauseExchange.Proofs.Settings.Editing
import ClauseExchange.Proofs.Tracer.Messages
