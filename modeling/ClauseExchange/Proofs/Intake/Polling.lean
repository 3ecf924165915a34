import ClauseExchange.Proofs.Channel.Sending
import ClauseExchange.Proofs.Intake.Loading
import ClauseExchange.Proofs.Store.Lists

/-!
What a poll reads: the lists under the numbers from the session's next one on, each as a whole and each
once, until a number has no list or has a plain value.
-/

namespace ClauseExchange

variable {σ : Type} {solver : Solver σ}

/-- The calls that records under successive numbers lead to, one load after another. -/
inductive Contribution.Loads (solver : Solver σ) :
    Nat → List (List Bytes) → List SolverCall → Prop where
  | nil (number : Nat) : Loads solver number [] []
  | cons {number : Nat} {record : List Bytes} {load : List SolverCall}
      {records : List (List Bytes)} {calls : List SolverCall}
      (head : Load solver number record load) (tail : Loads solver (number + 1) records calls) :
      Loads solver number (record :: records) (load ++ calls)

theorem Contribution.Loads.append {number : Nat} {first second : List (List Bytes)}
    {calls more : List SolverCall} (earlier : Loads solver number first calls)
    (later : Loads solver (number + first.length) second more) :
    Loads solver number (first ++ second) (calls ++ more) := by
  induction earlier with
  | nil => exact later
  | cons head tail induction =>
      rw [List.append_assoc]
      apply Loads.cons head
      apply induction
      rw [Nat.add_assoc, Nat.add_comm 1]
      exact later

namespace Intake

def readOn (session : Session) (count : Nat) : Session :=
  { session with nextIncoming := session.nextIncoming + count }

/-- Records were read under successive numbers, each as it stood in the store. -/
structure Reads (solver : Solver σ) (records : List (List Bytes))
    (before after : Intake (Recorded σ)) : Prop where
  session : after.channel.session = readOn before.channel.session records.length
  store : ∃ connections, after.channel.store = { before.channel.store with connections }
  stack : after.state.stack = before.state.stack
  found : ∀ index record, records[index]? = some record →
    record ≠ [] ∧
      (before.channel.store.list
        (Key.incoming (before.channel.session.nextIncoming + index))).toList = record
  calls : ∃ calls,
    Contribution.Loads solver before.channel.session.nextIncoming records calls ∧
      after.state.data.calls.toList = before.state.data.calls.toList ++ calls
  total : after.tally.total = before.tally.total + records.length

/-- There is nothing to be read under the next number. -/
def Halted {τ : Type} (intake : Intake τ) : Prop :=
  intake.channel.store.value? (Key.incoming intake.channel.session.nextIncoming) ≠ none ∨
    intake.channel.store.list (Key.incoming intake.channel.session.nextIncoming) = #[]

/-- The fault of going on from the last number there is, whose record was read. -/
def Spent {τ : Type} (fault : Fault) (intake : Intake τ) : Prop :=
  fault = .numbersExhausted ∧
    Key.numberBound ≤ intake.channel.session.nextIncoming + 1 ∧
    intake.channel.store.list (Key.incoming intake.channel.session.nextIncoming) ≠ #[]

theorem Reads.refl {before after : Intake (Recorded σ)}
    (session : after.channel.session = before.channel.session)
    (store : ∃ connections, after.channel.store = { before.channel.store with connections })
    (state : after.state = before.state) (tally : after.tally = before.tally) :
    Reads solver [] before after where
  session := session
  store := store
  stack := by rw [state]
  found := by
    intro index record here
    cases here
  calls := ⟨[], .nil _, by rw [state, List.append_nil]⟩
  total := by rw [tally]; rfl

theorem Reads.cons {elements : List Bytes} {records : List (List Bytes)}
    {before middle after : Intake (Recorded σ)} (nonempty : elements ≠ [])
    (here : (before.channel.store.list
      (Key.incoming before.channel.session.nextIncoming)).toList = elements)
    (empty : before.state.stack = #[]) (takes : Takes solver elements before middle)
    (reads : Reads solver records
      { middle with channel := { middle.channel with session := readOn middle.channel.session 1 } }
      after) :
    Reads solver (elements :: records) before after := by
  obtain ⟨load, loaded, told⟩ := takes.calls
  obtain ⟨calls, others, later⟩ := reads.calls
  obtain ⟨connections, store⟩ := reads.store
  constructor
  case session =>
    rw [reads.session, takes.session, List.length_cons]
    simp only [readOn]
    rw [Nat.add_assoc, Nat.add_comm 1]
  case store => exact ⟨connections, by rw [store, takes.store]⟩
  case stack => rw [reads.stack, takes.stack, empty]
  case found =>
    intro index record at_index
    cases index with
    | zero =>
        cases at_index
        exact ⟨nonempty, here⟩
    | succ index =>
        have rest := reads.found index record at_index
        simp only [readOn, takes.session, takes.store] at rest
        rw [Nat.add_assoc, Nat.add_comm 1] at rest
        exact rest
  case calls =>
    refine ⟨load ++ calls, .cons loaded ?_, ?_⟩
    · simp only [readOn, takes.session] at others
      exact others
    · rw [later, told, List.append_assoc]
  case total =>
    rw [reads.total, takes.total, List.length_cons]
    omega

theorem readRecords_reads (solver : Solver σ) (limit count : Nat)
    (intake : Intake (Recorded σ)) (reachable : intake.channel.store.reachable = true)
    (empty : intake.state.stack = #[]) :
    Yields (intake.readRecords solver.recorded limit count)
      (fun total after => ∃ records, total = count + records.length ∧
        Reads solver records intake after ∧ (records.length = limit ∨ after.Halted))
      Spent := by
  induction limit generalizing count intake with
  | zero => exact ⟨[], rfl, .refl rfl ⟨_, rfl⟩ rfl rfl, Or.inl rfl⟩
  | succ limit induction =>
      unfold readRecords
      dsimp only
      cases blocked : intake.channel.store.value?
          (Key.incoming intake.channel.session.nextIncoming) with
      | some value =>
          rw [Store.range_blocked reachable blocked]
          refine ⟨[], rfl, .refl rfl ⟨_, rfl⟩ rfl rfl, Or.inr (Or.inl ?_)⟩
          exact fun none => Option.some_ne_none value (blocked.symm.trans none)
      | none =>
          rw [Store.range_whole reachable blocked]
          rcases listed : (intake.channel.store.list
              (Key.incoming intake.channel.session.nextIncoming)).toList with
            _ | ⟨element, elements⟩
          · refine ⟨[], rfl, .refl rfl ⟨_, rfl⟩ rfl rfl, Or.inr (Or.inr ?_)⟩
            exact Array.toList_eq_nil_iff.mp listed
          · have nonempty := List.cons_ne_nil element elements
            obtain ⟨middle, taken, takes⟩ := take_recorded solver empty nonempty
            dsimp only
            rw [taken]
            dsimp only
            unfold advance Session.advanceIncoming?
            rcases Key.next?_cases middle.channel.session.nextIncoming with
              ⟨next, _⟩ | ⟨last, past⟩
            · rw [next]
              let moved : Intake (Recorded σ) :=
                { middle with
                  channel :=
                    { middle.channel with session := readOn middle.channel.session 1 } }
              have reachableStill : moved.channel.store.reachable = true := by
                change middle.channel.store.reachable = true
                rw [takes.store, reachable]
              refine (induction (count + 1) moved reachableStill takes.stack).imp ?_
                (fun _ _ spent => spent)
              rintro total after ⟨records, counted, reads, ended⟩
              refine ⟨(element :: elements) :: records, ?_, ?_, ?_⟩
              · rw [counted, List.length_cons]
                omega
              · exact .cons nonempty listed empty takes reads
              · rw [List.length_cons]
                exact ended.imp (congrArg (· + 1)) id
            · rw [last]
              refine ⟨rfl, past, ?_⟩
              rw [takes.session, takes.store]
              intro absent
              rw [absent] at listed
              cases listed

theorem poll_reads (solver : Solver σ) (intake : Intake (Recorded σ)) :
    Yields (intake.poll solver.recorded)
      (fun _ after => ∃ records, Reads solver records intake after ∧
        (intake.state.stack = #[] → intake.channel.store.reachable = true → after.Halted))
      Spent := by
  unfold poll
  by_cases empty : intake.state.stack = #[]
  · rw [if_pos (Array.isEmpty_iff.mpr empty)]
    cases reachable : intake.channel.store.reachable with
    | false =>
        obtain ⟨notice, noted⟩ := Channel.connect_of_unreachable reachable
        rw [noted]
        exact ⟨[], .refl rfl ⟨_, rfl⟩ rfl rfl, fun _ reached => by cases reached⟩
    | true =>
        rw [Channel.connect_of_reachable reachable]
        dsimp only
        let opened : Intake (Recorded σ) := { intake with channel := intake.channel.connected }
        have reading := readRecords_reads solver (intake.channel.connected.store.lists.size + 1) 0
          opened reachable empty
        rcases reading.split with
          ⟨fault, after, outcome, spent⟩ | ⟨total, after, outcome, records, _, reads, ended⟩
        · rw [outcome]
          exact spent
        · rw [outcome]
          obtain ⟨connections, store⟩ := reads.store
          refine ⟨records, ⟨reads.session, ⟨connections, store⟩, reads.stack, reads.found,
            reads.calls, reads.total⟩, fun _ _ => ?_⟩
          -- Not all looks were needed, since one of the numbers has no list.
          refine ended.resolve_left ?_
          intro all
          obtain ⟨index, inside, absent⟩ := opened.channel.store.exists_list_eq_empty
            opened.channel.session.nextIncoming
          rw [← all] at inside
          obtain ⟨nonempty, found⟩ := reads.found index records[index]
            (List.getElem?_eq_getElem inside)
          rw [absent] at found
          exact nonempty found.symm
  · rw [if_neg (mt Array.isEmpty_iff.mp empty)]
    exact ⟨[], .refl rfl ⟨_, rfl⟩ rfl rfl, fun still => absurd still empty⟩

end Intake

end ClauseExchange
