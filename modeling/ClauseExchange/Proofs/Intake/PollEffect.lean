import ClauseExchange.Proofs.Intake.Polling
import Mathlib.Data.Nat.Find
import Mathlib.Order.Bounds.Basic

/-!
The whole effect of a poll, for a solver that leaves the clause stack to the intake. The lists in the
store tell which records are read. With them it is known what the solver is told and what that makes of
it, and that the poll comes to an end.
-/

namespace ClauseExchange

namespace Store

/-- There is a record under an incoming number. -/
def Offers (store : Store) (number : Nat) : Prop :=
  store.list (Key.incoming number) ≠ #[] ∧ store.value? (Key.incoming number) = none

instance (store : Store) (number : Nat) : Decidable (store.Offers number) :=
  inferInstanceAs (Decidable (_ ∧ _))

/-- What the lists under successive numbers are read as. -/
def readings (store : Store) (first count : Nat) : List (Except IntakeError (List Literal)) :=
  (List.range' first count).map fun number =>
    Contribution.read number (store.list (Key.incoming number)).toList

theorem readings_succ (store : Store) (first count : Nat) :
    store.readings first (count + 1) =
      Contribution.read first (store.list (Key.incoming first)).toList ::
        store.readings (first + 1) count := by
  simp [readings, List.range'_succ]

@[simp] theorem length_readings (store : Store) (first count : Nat) :
    (store.readings first count).length = count := by
  simp [readings]

/-- The records under successive numbers come to an end, no later than the lists of the store do. -/
theorem exists_run (store : Store) (first : Nat) :
    ∃ count ≤ store.lists.size, (∀ index < count, store.Offers (first + index)) ∧
      ¬store.Offers (first + count) := by
  classical
  obtain ⟨gap, inside, empty⟩ := store.exists_list_eq_empty first
  have missing : ¬store.Offers (first + gap) := fun offers => offers.1 empty
  have ends : ∃ index, ¬store.Offers (first + index) := ⟨gap, missing⟩
  refine ⟨Nat.find ends, ?_, ?_, Nat.find_spec ends⟩
  · exact Nat.le_trans (Nat.find_min' ends missing) (Nat.le_of_lt_succ inside)
  · intro index before
    exact not_not.mp (Nat.find_min ends before)

theorem isGreatest_run {store : Store} {first count : Nat}
    (run : ∀ index < count, store.Offers (first + index)) (ends : ¬store.Offers (first + count)) :
    IsGreatest {count | ∀ index < count, store.Offers (first + index)} count := by
  refine ⟨run, ?_⟩
  intro other further
  by_contra longer
  exact ends (further count (Nat.lt_of_not_le longer))

end Store

variable {σ : Type} {solver : Solver σ}

/-- What a solver is told of one record after another, and what that makes of it. -/
inductive Solver.Tells (solver : Solver σ) :
    List (Except IntakeError (List Literal)) → List SolverCall → SolverState σ → SolverState σ →
      Prop where
  | nil (state : SolverState σ) : Tells solver [] [] state state
  | cons {outcome : Except IntakeError (List Literal)} {load : List SolverCall}
      {outcomes : List (Except IntakeError (List Literal))} {calls : List SolverCall}
      {state next last : SolverState σ} (head : solver.Told outcome load state next)
      (tail : Tells solver outcomes calls next last) :
      Tells solver (outcome :: outcomes) (load ++ calls) state last

theorem Solver.Tells.eq_nil {calls : List SolverCall}
    {state last : SolverState σ} (tells : solver.Tells [] calls state last) : calls = [] := by
  cases tells
  rfl

namespace Intake

variable {before middle after intake : Intake (Recorded σ)}
  {outcomes : List (Except IntakeError (List Literal))}

/-- Records were read under successive numbers, and that was all. -/
structure ReadsAll (solver : Solver σ) (outcomes : List (Except IntakeError (List Literal)))
    (before after : Intake (Recorded σ)) : Prop where
  session : after.channel.session = readOn before.channel.session outcomes.length
  store : after.channel.store = before.channel.store
  stack : after.state.stack = #[]
  tally : after.tally = outcomes.foldl IntakeTally.count before.tally
  told : ∃ calls, solver.Tells outcomes calls before.state.unrecorded after.state.unrecorded ∧
    after.state.data.calls.toList = before.state.data.calls.toList ++ calls

theorem ReadsAll.note (reads : ReadsAll solver outcomes before after) (notice : Notice) :
    ReadsAll solver outcomes before (after.note notice) :=
  ⟨reads.session, reads.store, reads.stack, reads.tally, reads.told⟩

theorem ReadsAll.refl (empty : intake.state.stack = #[]) : ReadsAll solver [] intake intake where
  session := rfl
  store := rfl
  stack := empty
  tally := rfl
  told := ⟨[], .nil _, (List.append_nil _).symm⟩

def onward (intake : Intake (Recorded σ)) : Intake (Recorded σ) :=
  { intake with channel := { intake.channel with session := readOn intake.channel.session 1 } }

theorem ReadsAll.cons {elements : List Bytes} (keeps : solver.KeepsStack)
    (takes : Takes solver elements before middle)
    (reads : ReadsAll solver outcomes middle.onward after) :
    ReadsAll solver
      (Contribution.read before.channel.session.nextIncoming elements :: outcomes)
      before after := by
  obtain ⟨counted, load, told, calls⟩ := takes.told keeps
  obtain ⟨more, tells, moreCalls⟩ := reads.told
  constructor
  case session =>
    rw [reads.session, onward, takes.session]
    simp [readOn, Nat.add_assoc, Nat.add_comm 1]
  case store => rw [reads.store, onward, takes.store]
  case stack => exact reads.stack
  case tally =>
    rw [reads.tally, List.foldl_cons, ← counted]
    rfl
  case told =>
    refine ⟨load ++ more, .cons told tells, ?_⟩
    rw [moreCalls, ← List.append_assoc, ← calls]
    rfl

theorem readRecords_of_not_offers (solver : Solver σ)
    (reachable : intake.channel.store.reachable = true) (empty : intake.state.stack = #[])
    (ends : ¬intake.channel.store.Offers intake.channel.session.nextIncoming) :
    ∃ last, ReadsAll solver [] intake last ∧
      ∀ limit total, intake.readRecords solver.recorded (limit + 1) total = (.ok total, last) := by
  have nothing : ReadsAll solver [] intake intake := .refl empty
  let key := Key.incoming intake.channel.session.nextIncoming
  cases blocked : intake.channel.store.value? key with
  | some value =>
      refine ⟨_, nothing.note (.readFailed key (.wrongType key)), ?_⟩
      intro limit total
      rw [readRecords, Store.range_blocked reachable blocked]
  | none =>
      refine ⟨intake, nothing, ?_⟩
      intro limit total
      have absent : intake.channel.store.list key = #[] := by
        by_contra present
        exact ends ⟨present, blocked⟩
      rw [readRecords, Store.range_whole reachable blocked, absent]

/-- A record under the next number is taken in, before it is known whether there is a number after. -/
theorem readRecords_takes (solver : Solver σ) (intake : Intake (Recorded σ))
    (reachable : intake.channel.store.reachable = true) (empty : intake.state.stack = #[])
    (offers : intake.channel.store.Offers intake.channel.session.nextIncoming) :
    ∃ middle, Takes solver (intake.channel.store.list
        (Key.incoming intake.channel.session.nextIncoming)).toList intake middle ∧
      ∀ limit total, intake.readRecords solver.recorded (limit + 1) total =
        match middle.advance with
        | (.error fault, last) => (.error fault, last)
        | (.ok (), next) => next.readRecords solver.recorded limit (total + 1) := by
  obtain ⟨present, unblocked⟩ := offers
  have nonempty := mt Array.toList_eq_nil_iff.mp present
  obtain ⟨middle, taken, takes⟩ := take_recorded solver empty nonempty
  refine ⟨middle, takes, ?_⟩
  intro limit total
  rw [readRecords, Store.range_whole reachable unblocked]
  split
  case h_1 refused => cases refused
  case h_2 none => exact absurd (Except.ok.inj none) nonempty
  case h_3 elements _ same =>
    cases same
    simp only [taken]
    rcases middle.advance with ⟨_ | ⟨⟩, _⟩ <;> rfl

theorem advance_eq (intake : Intake (Recorded σ)) :
    intake.advance = if intake.channel.session.nextIncoming + 1 < Key.numberBound then
      (.ok (), intake.onward) else (.error .numbersExhausted, intake) := by
  unfold advance Session.advanceIncoming? Key.next?
  by_cases numbered : intake.channel.session.nextIncoming + 1 < Key.numberBound
  · rw [if_pos numbered, if_pos numbered]
    rfl
  · rw [if_neg numbered, if_neg numbered]
    rfl

theorem readRecords_of_offers (solver : Solver σ)
    (reachable : intake.channel.store.reachable = true) (empty : intake.state.stack = #[])
    (offers : intake.channel.store.Offers intake.channel.session.nextIncoming)
    (numbered : intake.channel.session.nextIncoming + 1 < Key.numberBound) :
    ∃ middle, Takes solver (intake.channel.store.list
        (Key.incoming intake.channel.session.nextIncoming)).toList intake middle ∧
      ∀ limit total, intake.readRecords solver.recorded (limit + 1) total =
        middle.onward.readRecords solver.recorded limit (total + 1) := by
  obtain ⟨middle, takes, goesOn⟩ := readRecords_takes solver intake reachable empty offers
  rw [← takes.session] at numbered
  refine ⟨middle, takes, ?_⟩
  intro limit total
  rw [goesOn, advance_eq, if_pos numbered]

/-- A loop that may look past the run reads all of the run and stops by itself. -/
theorem readRecords_of_run (keeps : solver.KeepsStack) (count : Nat)
    (reachable : intake.channel.store.reachable = true) (empty : intake.state.stack = #[])
    (run : ∀ index < count,
      intake.channel.store.Offers (intake.channel.session.nextIncoming + index))
    (ends : ¬intake.channel.store.Offers (intake.channel.session.nextIncoming + count))
    (numbered : intake.channel.session.nextIncoming + count < Key.numberBound) :
    ∃ last, ReadsAll solver
        (intake.channel.store.readings intake.channel.session.nextIncoming count) intake last ∧
      ∀ limit total, count < limit →
        intake.readRecords solver.recorded limit total = (.ok (total + count), last) := by
  induction count generalizing intake with
  | zero =>
      obtain ⟨last, reads, stops⟩ := readRecords_of_not_offers solver reachable empty ends
      refine ⟨last, reads, ?_⟩
      intro limit total more
      obtain ⟨limit, rfl⟩ := Nat.exists_eq_succ_of_ne_zero (Nat.ne_of_gt more)
      exact stops limit total
  | succ count induction =>
      have first := run 0 (Nat.succ_pos count)
      obtain ⟨middle, takes, goesOn⟩ :=
        readRecords_of_offers solver reachable empty first (by omega)
      have next : middle.onward.channel.session.nextIncoming =
          intake.channel.session.nextIncoming + 1 := by
        simp [onward, readOn, takes.session]
      have store : middle.onward.channel.store = intake.channel.store := takes.store
      have reachableNext : middle.onward.channel.store.reachable = true := by rwa [store]
      have runNext : ∀ index < count, middle.onward.channel.store.Offers
          (middle.onward.channel.session.nextIncoming + index) := by
        intro index before
        rw [store, next, Nat.add_assoc, Nat.add_comm 1]
        exact run (index + 1) (Nat.succ_lt_succ before)
      have endsNext : ¬middle.onward.channel.store.Offers
          (middle.onward.channel.session.nextIncoming + count) := by
        rwa [store, next, Nat.add_assoc, Nat.add_comm 1]
      obtain ⟨last, reads, stops⟩ :=
        induction reachableNext takes.stack runNext endsNext (by omega)
      rw [store, next] at reads
      refine ⟨last, ?_, ?_⟩
      · rw [Store.readings_succ]
        exact reads.cons keeps takes
      · intro limit total more
        obtain ⟨limit, rfl⟩ := Nat.exists_eq_succ_of_ne_zero (Nat.ne_of_gt (Nat.zero_lt_of_lt more))
        rw [goesOn, stops limit (total + 1) (Nat.lt_of_succ_lt_succ more)]
        simp [Nat.add_assoc, Nat.add_comm 1]

/-- A poll on a stack that is not empty changes nothing, and one that finds the store out of reach only
says so. Any other poll takes in the longest run of records there is, and comes to its end whatever bound
is set to the looks. -/
theorem poll_effect (keeps : solver.KeepsStack) (intake : Intake (Recorded σ)) :
    let session := intake.channel.session
    let store := intake.channel.store
    (intake.state.stack ≠ #[] →
      intake.poll solver.recorded = (.ok (.error .stackNotEmpty), intake)) ∧
    (intake.state.stack = #[] → store.reachable = false →
      intake.poll solver.recorded = (.ok (.ok 0),
        intake.note (.storeUnavailable session.host session.port
          (.connectionRefused session.host session.port)))) ∧
    (intake.state.stack = #[] → store.reachable = true →
      ∃ count,
        IsGreatest {count | ∀ index < count, store.Offers (session.nextIncoming + index)} count ∧
        (session.nextIncoming + count < Key.numberBound →
          let opened := { intake with channel := intake.channel.connected }
          ∃ last, (∀ limit, count < limit →
              opened.readRecords solver.recorded limit 0 = (.ok count, last)) ∧
            let after := last.note (.recordsRead count (session.nextIncoming + count))
            intake.poll solver.recorded = (.ok (.ok count), after) ∧
              ReadsAll solver (store.readings session.nextIncoming count) opened after)) := by
  intro session store
  refine ⟨?_, ?_, ?_⟩
  · intro occupied
    rw [poll, if_neg (mt Array.isEmpty_iff.mp occupied)]
  · intro empty unreachable
    rw [poll, if_pos (Array.isEmpty_iff.mpr empty), Channel.connect, Store.connect, if_neg]
    · rfl
    · exact Bool.eq_false_iff.mp unreachable
  · intro empty reachable
    obtain ⟨count, few, run, ends⟩ := store.exists_run session.nextIncoming
    refine ⟨count, Store.isGreatest_run run ends, ?_⟩
    intro numbered opened
    have reachableOpened : opened.channel.store.reachable = true := reachable
    obtain ⟨last, reads, stops⟩ :=
      readRecords_of_run keeps count reachableOpened empty run ends numbered
    have whole (limit : Nat) (more : count < limit) :
        opened.readRecords solver.recorded limit 0 = (.ok count, last) := by
      rw [stops limit 0 more, Nat.zero_add]
    refine ⟨last, whole, ?_, reads.note _⟩
    have next : last.channel.session.nextIncoming = session.nextIncoming + count := by
      rw [reads.session, Store.length_readings]
      rfl
    have read : { intake with channel := intake.channel.connected }.readRecords solver.recorded
        (intake.channel.connected.store.lists.size + 1) 0 = (.ok count, last) :=
      whole (store.lists.size + 1) (Nat.lt_succ_of_le few)
    rw [poll, if_pos (Array.isEmpty_iff.mpr empty), Channel.connect_of_reachable reachable]
    simp only [read, next]

/-- A clause of two literals, a record to reject and a unit. A value hides the list after them. -/
def mixedStore : Store :=
  let records : List (List Bytes) := [[[52], [45, 53]], [[120]], [[55]], [[56]]]
  { lists := .ofList (records.mapIdx fun number record => (Key.incoming number, record.toArray))
    values := .ofList [(Key.incoming 3, [])] }

def mixed : Intake (Recorded Unit) where
  state := { data := { data := () } }
  channel := { session := .ofSettings {}, store := mixedStore }

theorem poll_effect_mixed :
    Solver.plain.KeepsStack ∧ mixed.state.stack = #[] ∧ mixedStore.reachable = true ∧
      ∃ after, mixed.poll Solver.plain.recorded = (.ok (.ok 3), after) ∧
        ReadsAll Solver.plain (mixedStore.readings 0 3)
          { mixed with channel := mixed.channel.connected } after := by
  have keeps : Solver.plain.KeepsStack := fun _ _ => rfl
  refine ⟨keeps, rfl, rfl, ?_⟩
  obtain ⟨count, longest, effect⟩ := (poll_effect keeps mixed).2.2 rfl rfl
  have run : ∀ index < 3, mixedStore.Offers (0 + index) := by decide +kernel
  have hidden : ¬mixedStore.Offers (0 + 3) := by decide +kernel
  have three : count = 3 := longest.unique (Store.isGreatest_run run hidden)
  subst three
  obtain ⟨last, _, polled, reads⟩ := effect (by decide)
  exact ⟨_, polled, reads⟩

end Intake

end ClauseExchange
