import ClauseExchange.Proofs.Participant.Account
import ClauseExchange.Proofs.Solver.KeepsStack
import ClauseExchange.Proofs.Store.Census

/-!
Runs of one participant on a store of its own: any calls in any order, over any number of proofs, and
the leave at the end. On a store that takes every write, the records are those of the chronicle.
-/

namespace ClauseExchange

variable {σ : Type}

namespace Chronicle

/-- Of every line it is known that it is stored, or still pending in the proof under way. -/
structure Settled (account : Chronicle Ledger) : Prop where
  whole : account.Whole
  ended : ∀ chapter ∈ account.closed, chapter.content.pending = []

namespace Settled

variable {account : Chronicle Ledger}

theorem stored_eq_lines (settled : account.Settled) {chapter : Chapter Ledger}
    (member : chapter ∈ account.closed) : chapter.content.stored = chapter.content.lines := by
  have kept := settled.whole chapter (List.mem_append_left _ member)
  rw [Ledger.lines_of_dropped_eq_nil kept, settled.ended chapter member, List.append_nil]

theorem closedRecords_eq (settled : account.Settled) :
    (account.map Ledger.stored).closedRecords = (account.map Ledger.lines).closedRecords := by
  have same : (account.map Ledger.stored).closed = (account.map Ledger.lines).closed := by
    apply List.map_congr_left
    intro chapter member
    unfold Chapter.map
    rw [settled.stored_eq_lines member]
  rw [closedRecords, closedRecords, same]

theorem deposited_eq (settled : account.Settled) (idle : account.current = none) :
    account.deposited = (account.map Ledger.lines).records := by
  have none : (account.map Ledger.lines).current = none := by
    rw [map, idle]
    rfl
  rw [deposited_of_none idle, records_of_none none, settled.closedRecords_eq]

/-- What is in the store comes first among the records, and the earlier proofs are there as a whole. -/
theorem deposited_prefix (settled : account.Settled) :
    account.deposited <+: (account.map Ledger.lines).records ∧
      (account.map Ledger.lines).closedRecords <+: account.deposited := by
  cases current : account.current with
  | none =>
      rw [← settled.deposited_eq current, ← settled.closedRecords_eq, deposited_of_none current]
      exact ⟨List.prefix_rfl, List.prefix_rfl⟩
  | some chapter =>
      have kept : chapter.content.dropped = [] := by
        apply settled.whole
        rw [chapters, current]
        exact List.mem_append_right _ (List.mem_singleton_self chapter)
      have some : (account.map Ledger.lines).current = some (chapter.map Ledger.lines) := by
        rw [map, current]
        rfl
      rw [deposited_of_some current, records_of_some some, settled.closedRecords_eq]
      refine ⟨(List.prefix_append_right_inj _).mpr ?_, List.prefix_append _ _⟩
      change _ <+: chapter.content.lines.map (Line.record chapter.encoding)
      rw [Ledger.lines_of_dropped_eq_nil kept, List.map_append]
      exact List.prefix_append _ _

theorem tallies_eq (settled : account.Settled) :
    account.tallies.map (fun tally => (tally.lines, tally.records, tally.dropped)) =
      (account.map Ledger.lines).closed.map fun chapter =>
        (chapter.content.length, chapter.content.length, 0) := by
  rw [tallies, map, List.map_map, List.map_map]
  apply List.map_congr_left
  intro chapter member
  have kept := settled.whole chapter (List.mem_append_left _ member)
  simp only [Function.comp_apply, Ledger.tally, Chapter.map, settled.stored_eq_lines member, kept,
    List.length_nil]

end Settled

end Chronicle

namespace Seat

/-- A call in a state of the solver. What state the solver is in after it is left to the next call. -/
def step (solver : Solver σ) (call : SolverState σ × Call) (seat : Seat) :
    Except Fault (Except Error Reply) × Seat :=
  let (outcome, _, after) := seat.answer solver call.1 call.2
  (outcome, after)

def run (solver : Solver σ) (calls : List (SolverState σ × Call)) (seat : Seat) :
    Except Fault (List (Except Error Reply)) × Seat :=
  runAll (step solver) calls seat

variable {settings : Settings} {account : Chronicle Ledger} {seat : Seat}

theorem step_follows (keeps : seat.Keeps settings account) (solver : Solver σ)
    (call : SolverState σ × Call) :
    Yields (seat.step solver call)
      (fun reply after => ∃ next,
        next.map Ledger.lines = (account.map Ledger.lines).note solver settings call.1 call.2 ∧
          Advances settings account seat (Reply.tally? reply).toList next after)
      (fun fault after =>
        after.Exhausts ((account.map Ledger.lines).note solver settings call.1 call.2) fault) := by
  unfold step
  rcases (answer_follows keeps solver call.1 call.2).split with
    ⟨fault, after, outcome, exhausts⟩ | ⟨reply, after, outcome, follows⟩
  · rw [outcome]
    exact exhausts
  · rw [outcome]
    exact follows

theorem run_follows (keeps : seat.Keeps settings account) (solver : Solver σ)
    (calls : List (SolverState σ × Call)) :
    Yields (seat.run solver calls)
      (fun replies after => ∃ next,
        next.map Ledger.lines =
            (account.map Ledger.lines).noteAll solver settings calls ∧
          Advances settings account seat (replies.filterMap Reply.tally?) next after)
      (fun fault after =>
        after.Exhausts ((account.map Ledger.lines).noteAll solver settings calls) fault) := by
  induction calls generalizing account seat with
  | nil =>
      exact ⟨account, rfl, Advances.aside keeps ⟨seat.store.connections, rfl⟩⟩
  | cons call calls induction =>
      have further := Chronicle.prefix_records_noteAll solver settings calls
        ((account.map Ledger.lines).note solver settings call.1 call.2)
      apply Yields.runAll_cons
      · exact (step_follows keeps solver call).imp (fun _ _ follows => follows)
          (fun _ _ exhausts => exhausts.mono further)
      · rintro reply middle ⟨next, noted, advances⟩
        have running := induction advances.keeps
        rw [noted] at running
        refine running.imp ?_ (fun _ _ exhausts => exhausts)
        rintro replies after ⟨last, lines, later⟩
        refine ⟨last, lines, ?_⟩
        have both := advances.trans later
        rw [List.filterMap_cons]
        cases told : Reply.tally? reply with
        | none =>
            rw [told] at both
            exact both
        | some tally =>
            rw [told] at both
            exact both

/-- What is known of a seat when the calls so far make up a chronicle. -/
structure Chronicled (solver : Solver σ) (settings : Settings) (chronicle : Chronicle (List Line))
    (replies : List (Except Error Reply)) (seat : Seat) : Prop where
  /-- A call at the wrong time is refused, and nothing is changed by it. -/
  refuses : ∀ state call error, call.refusal? chronicle.current.isSome = some error →
    seat.answer solver state call = (.ok (.error (.trace error)), state, seat)
  /-- The proof under way has its records after those of the earlier proofs. -/
  next : chronicle.closedRecords.length ≤ seat.participant.session.nextOutgoing ∧
    seat.participant.session.nextOutgoing ≤ chronicle.records.length
  onward : ∀ state call, Yields (seat.answer solver state call)
    (fun _ after =>
      seat.participant.session.nextOutgoing ≤ after.2.participant.session.nextOutgoing)
    (fun fault after => after.2.Exhausts (chronicle.note solver settings state call) fault)
  sequence : seat.store.sequence Key.outgoingStem =
    chronicle.records.take seat.participant.session.nextOutgoing
  count : seat.store.count Key.outgoingStem = seat.participant.session.nextOutgoing
  /-- Every proof that ended was told of, with all its lines as records and none lost. -/
  tallies : (replies.filterMap Reply.tally?).map
      (fun tally => (tally.lines, tally.records, tally.dropped)) =
    chronicle.closed.map fun chapter => (chapter.content.length, chapter.content.length, 0)

theorem keeps_join (settings : Settings) (store : Store) (journal : Journal) :
    Keeps settings {} ⟨.join settings, store, journal⟩ where
  settings := rfl
  next := rfl
  ended := nofun
  traces := rfl

variable {solver : Solver σ} {next : Chronicle Ledger} {told : List Tally} {after : Seat}

/-- From a store that takes every write and has no record yet. -/
theorem Advances.settled (advances : Advances settings {} seat told next after)
    (isOpen : seat.store.IsOpen) : next.Settled where
  whole := advances.whole isOpen nofun
  ended := advances.keeps.ended

theorem Advances.received (advances : Advances settings {} seat told next after) :
    Store.Receives 0 next.deposited seat.store after.store := by
  obtain ⟨records, deposited, received⟩ := advances.receives
  rw [deposited]
  exact received

theorem chronicled_of_advances {replies : List (Except Error Reply)}
    (advances : Advances settings {} seat (replies.filterMap Reply.tally?) next after)
    (isOpen : seat.store.IsOpen) (unused : seat.store.count Key.outgoingStem = 0) :
    Chronicled solver settings (next.map Ledger.lines) replies after := by
  have settled := advances.settled isOpen
  have keeps := advances.keeps
  obtain ⟨stored, closed⟩ := settled.deposited_prefix
  have deposited : next.deposited =
      (next.map Ledger.lines).records.take after.participant.session.nextOutgoing := by
    rw [keeps.next]
    exact List.prefix_iff_eq_take.mp stored
  constructor
  case refuses =>
    intro state call error refused
    apply answer_of_refusal
    rw [keeps.isSome_tracer]
    rwa [Chronicle.map, Option.isSome_map] at refused
  case next =>
    rw [keeps.next]
    exact ⟨closed.length_le, stored.length_le⟩
  case onward =>
    intro state call
    refine (answer_follows keeps solver state call).imp ?_ (fun _ _ exhausts => exhausts)
    rintro reply last ⟨further, _, later⟩
    obtain ⟨records, more, _⟩ := later.receives
    rw [keeps.next, later.keeps.next, more, List.length_append]
    exact Nat.le_add_right _ _
  case sequence =>
    rw [← deposited]
    exact advances.received.sequence_eq unused
  case count =>
    rw [keeps.next]
    exact advances.received.count_eq unused
  case tallies =>
    have tallies := settled.tallies_eq
    rw [advances.tallies] at tallies
    exact tallies

/-- Where no proof is under way, all records are in the store. -/
theorem Advances.stores_records (advances : Advances settings {} seat told next after)
    (idle : next.current = none) (isOpen : seat.store.IsOpen)
    (unused : seat.store.count Key.outgoingStem = 0) :
    after.store.sequence Key.outgoingStem = (next.map Ledger.lines).records ∧
      after.store.count Key.outgoingStem = (next.map Ledger.lines).records.length := by
  rw [← (advances.settled isOpen).deposited_eq idle]
  exact ⟨advances.received.sequence_eq unused, advances.received.count_eq unused⟩

theorem leave_settles (advances : Advances settings {} seat told next after)
    (isOpen : seat.store.IsOpen) (unused : seat.store.count Key.outgoingStem = 0) :
    Yields after.leave
      (fun _ left =>
        left.store.sequence Key.outgoingStem = (next.map Ledger.lines).records ∧
          left.store.count Key.outgoingStem = (next.map Ledger.lines).records.length)
      (Exhausted (next.map Ledger.lines).records.length) := by
  have keeps := advances.keeps
  unfold leave
  cases current : next.current with
  | none =>
      have idle := keeps.idle current
      unfold endProof
      rw [trace_of_none idle]
      dsimp only
      rw [dropTracer_of_none idle]
      exact advances.stores_records current isOpen unused
  | some chapter =>
      rcases (endProof_closes keeps current).split with
        ⟨fault, left, outcome, exhausted⟩ | ⟨_, left, outcome, tally, last, rfl, closed, later⟩
      · rw [outcome]
        exact exhausted
      · rw [outcome]
        have idle : last.current = none := by
          have none := congrArg Chronicle.current closed
          exact Option.map_eq_none_iff.mp none
        have stores := (advances.trans later).stores_records idle isOpen unused
        rw [closed, Chronicle.records_close] at stores
        exact stores

/-- On a store that takes every write and has no record yet, the records of a participant are those of
its chronicle, wherever the spool was flushed, and whether the last proof was ended or just left. -/
theorem run_chronicles (solver : Solver σ) (settings : Settings) (store : Store) (journal : Journal)
    (calls : List (SolverState σ × Call)) (isOpen : store.IsOpen)
    (unused : store.count Key.outgoingStem = 0) :
    Yields (run solver calls ⟨.join settings, store, journal⟩)
      (fun replies seat =>
        Chronicled solver settings (.ofCalls solver settings calls) replies seat ∧
          Yields seat.leave
            (fun _ left =>
              left.store.sequence Key.outgoingStem =
                  (Chronicle.ofCalls solver settings calls).records ∧
                left.store.count Key.outgoingStem =
                  (Chronicle.ofCalls solver settings calls).records.length)
            (Exhausted (Chronicle.ofCalls solver settings calls).records.length))
      (fun fault seat => seat.Exhausts (.ofCalls solver settings calls) fault) := by
  refine (run_follows (keeps_join settings store journal) solver calls).imp ?_
    (fun _ _ exhausts => exhausts)
  rintro replies seat ⟨next, lines, advances⟩
  have same : Chronicle.ofCalls solver settings calls = next.map Ledger.lines := lines.symm
  rw [same]
  exact ⟨chronicled_of_advances advances isOpen unused, leave_settles advances isOpen unused⟩

/-- A binary proof that is ended, and a textual one that is left; the solver also tries to start a proof
while one is under way, and to flush one when none is. -/
def twoProofs : List (SolverState Unit × Call) :=
  [.flush, .start none, .perform (.add [1, 2]), .poll, .start none, .perform (.delete [1, 2]),
    .finish, .tick, .start (some .text), .perform (.add [0, 1]), .perform (.add [1])].map
    fun call => (⟨(), #[]⟩, call)

example : (Chronicle.ofCalls .plain {} twoProofs).records =
    [[97, 2, 4], [100, 2, 4], [97, 32, 49, 32, 48]] := by
  cbv

theorem run_chronicles_twoProofs :
    Store.IsOpen {} ∧ Store.count {} Key.outgoingStem = 0 ∧
      Yields (run .plain twoProofs ⟨.join {}, {}, #[]⟩)
        (fun replies seat =>
          Chronicled .plain {} (.ofCalls .plain {} twoProofs) replies seat ∧
            Yields seat.leave
              (fun _ left =>
                left.store.sequence Key.outgoingStem =
                    (Chronicle.ofCalls .plain {} twoProofs).records ∧
                  left.store.count Key.outgoingStem =
                    (Chronicle.ofCalls .plain {} twoProofs).records.length)
              (Exhausted (Chronicle.ofCalls .plain {} twoProofs).records.length))
        (fun fault seat => seat.Exhausts (.ofCalls .plain {} twoProofs) fault) :=
  ⟨⟨rfl, rfl⟩, rfl, run_chronicles .plain {} {} #[] twoProofs ⟨rfl, rfl⟩ rfl⟩

end Seat

end ClauseExchange
