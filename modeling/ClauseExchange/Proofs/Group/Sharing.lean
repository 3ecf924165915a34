import ClauseExchange.Proofs.Group.Run
import ClauseExchange.Proofs.Solver.KeepsStack

/-!
How the members of a group share the outgoing numbers. Each member numbers its records from zero, so
under a number the store has the record of the member that came to it last.
-/

namespace ClauseExchange

namespace Chronicle

theorem length_deposited (account : Chronicle Ledger) :
    account.deposited.length = (account.tallies.map Tally.records).sum +
      account.current.elim 0 fun chapter => chapter.content.stored.length := by
  have closed : (account.map Ledger.stored).closedRecords.length =
      (account.tallies.map Tally.records).sum := by
    simp [closedRecords, Chapter.records, tallies, map, Chapter.map, Ledger.tally,
      List.length_flatMap, Function.comp_def]
  cases current : account.current with
  | none => rw [deposited_of_none current, closed]; rfl
  | some chapter =>
      rw [deposited_of_some current, List.length_append, closed, List.length_map]
      rfl

end Chronicle

variable {ι : Type} {σ : ι → Type} [DecidableEq ι]

namespace Group

/-- The number of records that the tallies of a member's proofs count as written, the proof under way
included. -/
def written (transcript : List (Entry σ)) (who : ι) (group : Group σ) : Nat :=
  ((transcript.filterMap (Entry.tally? who)).map Tally.records).sum +
    (group.member who).participant.tracer.elim 0 fun tracer => tracer.tally.records

/-- What a group has in the store when it has come so far. -/
structure Shares (transcript : List (Entry σ)) (log : List (Store.Act ι)) (group : Group σ) : Prop where
  written : ∀ who, (Store.laid log who).length = group.written transcript who
  next : ∀ who, (group.member who).participant.session.nextOutgoing = (Store.laid log who).length
  files : group.store.Files log
  /-- Numbers have been written once only as long as one member at most has written. -/
  once : Store.WriteOnce log ↔ ∀ who other,
    group.written transcript who ≠ 0 → group.written transcript other ≠ 0 → who = other

variable {settings : ι → Settings} {transcript : List (Entry σ)} {accounts : ι → Chronicle Ledger}
  {solver : (who : ι) → Solver (σ who)} {group start : Group σ} {steps : List (Step σ)}
  {log : List (Store.Act ι)}

theorem Tracked.length_deposited (tracked : Tracked settings transcript accounts group) (who : ι) :
    (accounts who).deposited.length = group.written transcript who := by
  have keeps := tracked.keeps who
  rw [Chronicle.length_deposited, tracked.tallies, written]
  congr 1
  cases current : (accounts who).current with
  | none =>
      have idle : (group.member who).participant.tracer = none := keeps.idle current
      rw [idle]
      rfl
  | some chapter =>
      obtain ⟨tracer, present, _, _, books⟩ := keeps.tracing current
      have tracing : (group.member who).participant.tracer = some tracer := present
      rw [tracing]
      exact books.records.symm

theorem Tracked.shares (tracked : Tracked settings transcript accounts group)
    (deposited : (fun who => (accounts who).deposited) = Store.laid log)
    (files : group.store.Files log) : Shares transcript log group := by
  have own : ∀ who, (accounts who).deposited = Store.laid log who := congrFun deposited
  have written : ∀ who, (Store.laid log who).length = group.written transcript who := by
    intro who
    rw [← own, tracked.length_deposited]
  constructor
  case written => exact written
  case next =>
    intro who
    rw [← own]
    exact (tracked.keeps who).next
  case files => exact files
  case once =>
    have some : ∀ who, Store.laid log who ≠ [] ↔ group.written transcript who ≠ 0 := by
      intro who
      rw [← written, ne_eq, ne_eq, List.length_eq_zero_iff]
    simp only [Store.writeOnce_iff, some]

/-- At every moment of a run the store has the records on file that were written so far. -/
theorem Logged.files (logged : Logged solver start steps transcript log)
    (unused : start.store.count Key.outgoingStem = 0)
    (leaves : ∀ deed ∈ steps.flatMap Step.deeds, deed.LeavesValues) {moment : Nat}
    (within : moment ≤ log.length) :
    (start.run solver (steps.take moment)).2.store.Files (log.take moment) := by
  induction moment with
  | zero =>
      rw [List.take_zero, List.take_zero]
      exact .empty unused
  | succ moment induction =>
      have here : log[moment]? = some log[moment] := List.getElem?_eq_getElem within
      rw [← List.take_append_getElem within]
      apply (induction (Nat.le_of_succ_le within)).moves (logged.moves moment _ here)
      have inside : moment < steps.length := logged.does.length_eq ▸ within
      apply (logged.does.get inside within).leavesValues
      intro deed member
      exact leaves deed (List.mem_flatMap_of_mem (List.getElem_mem inside) member)

/-- A member goes on with its own numbers, whatever the others have written. So under a number the store
has the record of the member that came to it last, at every moment of a run, and it has as many values
as the member with the most. -/
theorem run_shares_numbers (solver : (who : ι) → Solver (σ who)) (settings : ι → Settings)
    (states : (who : ι) → SolverState (σ who)) (store : Store) (journal : Journal)
    (steps : List (Step σ)) (unused : store.count Key.outgoingStem = 0)
    (leaves : ∀ deed ∈ steps.flatMap Step.deeds, deed.LeavesValues) :
    Yields (run solver steps (gather settings states store journal))
      (fun transcript _ => ∃ log,
        Logged solver (gather settings states store journal) steps transcript log ∧
          ∀ moment ≤ steps.length, Shares (transcript.take moment) (log.take moment)
            (run solver (steps.take moment) (gather settings states store journal)).2)
      (Exhausts steps.length) := by
  have tracked := tracked_gather settings states store journal
  refine (run_carries tracked (fun _ => rfl) solver steps).imp ?_ (fun _ _ exhausts => exhausts)
  rintro transcript after ⟨log, logged, accounted⟩
  refine ⟨log, logged, ?_⟩
  intro moment within
  obtain ⟨accounts, tracked, deposited⟩ := accounted moment within
  rw [logged.does.length_eq] at within
  exact tracked.shares deposited (logged.files unused leaves within)

/-- Two members that trace a proof of one line each, one after the other. -/
def rivals : List (Step fun _ : Bool => Unit) :=
  [.call false (.start none), .call false (.perform (.add [1])), .call false .finish,
    .call true (.start none), .call true (.perform (.add [2])), .call true .finish]

/-- Both members count one record as written, but the store has one value, the second one. -/
theorem rivals_overwrite :
    let start : Group fun _ : Bool => Unit := gather (fun _ => {}) (fun _ => ⟨(), #[]⟩) {}
    let middle := (run (fun _ => .plain) (rivals.take 3) start).2
    let (outcome, after) := run (fun _ => .plain) rivals start
    middle.store.value? (Key.outgoing 0) = some [97, 2] ∧
      after.store.value? (Key.outgoing 0) = some [97, 4] ∧
        after.store.count Key.outgoingStem = 1 ∧
          outcome.toOption.map (fun transcript =>
            (after.written transcript false, after.written transcript true)) = some (1, 1) := by
  decide +kernel

/-- The first of the two goes on, beside a peer. -/
def comeback : List (Step fun _ : Bool => Unit) :=
  [.outside (.push (Key.incoming 0) [51]), .call false .poll, .call false (.start (some .text)),
    .call false (.perform (.add [3])), .call false .flush]

theorem comeback_leavesValues :
    ∀ deed ∈ (rivals ++ comeback).flatMap Step.deeds, deed.LeavesValues := by
  intro deed member
  cases List.mem_singleton.mp member
  trivial

theorem run_shares_numbers_comeback :
    Store.count {} Key.outgoingStem = 0 ∧
      (∀ deed ∈ (rivals ++ comeback).flatMap Step.deeds, deed.LeavesValues) ∧
      Yields (run (fun _ => .plain) (rivals ++ comeback)
          (gather (fun _ => {}) (fun _ => ⟨(), #[]⟩) {}))
        (fun transcript _ => ∃ log,
          Logged (fun _ => .plain) (gather (fun _ => {}) (fun _ => ⟨(), #[]⟩) {})
              (rivals ++ comeback) transcript log ∧
            ∀ moment ≤ (rivals ++ comeback).length,
              Shares (transcript.take moment) (log.take moment)
                (run (fun _ => .plain) ((rivals ++ comeback).take moment)
                  (gather (fun _ => {}) (fun _ => ⟨(), #[]⟩) {})).2)
        (Exhausts (rivals ++ comeback).length) :=
  ⟨rfl, comeback_leavesValues,
    run_shares_numbers (fun _ => .plain) (fun _ => {}) (fun _ => ⟨(), #[]⟩) {} #[]
      (rivals ++ comeback) rfl comeback_leavesValues⟩

end Group

end ClauseExchange
