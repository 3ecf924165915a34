import ClauseExchange.Proofs.Intake.Polling
import ClauseExchange.Proofs.Outcome
import Mathlib.Order.Bounds.Defs

/-!
Runs of an intake: polls, records that peers leave at one go or element by element, other deeds at the
store, and changes of the solver's state in between.
-/

namespace ClauseExchange.Intake

variable {σ : Type} {solver : Solver σ}

inductive Step (σ : Type) where
  | poll
  /-- A peer leaves a whole record under a number that has none. -/
  | contribute (number : Nat) (elements : List Bytes)
  | outside (deed : Store.Deed)
  | change (hook : SolverState σ → SolverState σ)

namespace Step

def deeds : Step σ → List Store.Deed
  | .outside deed => [deed]
  | _ => []

/-- What a step does to the store. A poll only connects to it. -/
def act : Step σ → Store → Store
  | .contribute number elements, store => store.contribute number elements
  | .outside deed, store => store.undergo deed
  | _, store => store

/-- What a step other than a poll does to the solver's state. No call is recorded. -/
def turn : Step σ → SolverState (Recorded σ) → SolverState (Recorded σ)
  | .change hook, state => (hook state.unrecorded).recorded state.data.calls
  | _, state => state

theorem list_prefix_act (step : Step σ) (store : Store) (key : String) :
    (store.list key).toList <+: ((step.act store).list key).toList := by
  cases step with
  | poll => exact List.prefix_rfl
  | contribute number elements => exact store.list_prefix_contribute number elements key
  | outside deed => exact store.list_prefix_undergo deed key
  | change hook => exact List.prefix_rfl

theorem list_act {step : Step σ} (spares : ∀ deed ∈ step.deeds, deed.Spares Key.incomingStem)
    {store : Store} {number : Nat} (present : store.list (Key.incoming number) ≠ #[]) :
    (step.act store).list (Key.incoming number) = store.list (Key.incoming number) := by
  cases step with
  | poll => rfl
  | contribute other elements => exact Store.list_contribute present other elements
  | outside deed =>
      exact Store.list_undergo_of_spares (spares deed (List.mem_singleton_self deed)) store number
  | change hook => rfl

/-- A step that may put something into the list under a number. -/
def Adds (number : Nat) : Step σ → Prop
  | .contribute other _ => other = number
  | .outside (.push key _) => key = Key.incoming number
  | _ => False

theorem list_act_of_not_adds {step : Step σ} {number : Nat} (leaves : ¬step.Adds number)
    (store : Store) :
    (step.act store).list (Key.incoming number) = store.list (Key.incoming number) := by
  cases step with
  | poll => rfl
  | contribute other elements =>
      exact Store.list_contribute_of_ne (fun same => leaves (Key.incoming_injective same)) store
        elements
  | outside deed =>
      apply Store.list_undergo_of_ne
      rintro element rfl
      exact leaves rfl
  | change hook => rfl

theorem value?_act {step : Step σ} (spares : ∀ deed ∈ step.deeds, deed.Spares Key.incomingStem)
    (store : Store) (number : Nat) :
    (step.act store).value? (Key.incoming number) = store.value? (Key.incoming number) := by
  cases step with
  | poll => rfl
  | contribute other elements => exact store.value?_contribute other elements _
  | outside deed =>
      exact Store.value?_undergo_of_spares (spares deed (List.mem_singleton_self deed)) store number
  | change hook => rfl

end Step

def step (solver : Solver σ) (step : Step σ) (intake : Intake (Recorded σ)) :
    Except Fault (Except IntakeError Nat) × Intake (Recorded σ) :=
  match step with
  | .poll => intake.poll solver.recorded
  | other =>
      let store := other.act intake.channel.store
      let channel := { intake.channel with store }
      (.ok (.ok 0), { intake with state := other.turn intake.state, channel })

def run (solver : Solver σ) (steps : List (Step σ)) (intake : Intake (Recorded σ)) :
    Except Fault (List (Except IntakeError Nat)) × Intake (Recorded σ) :=
  runAll (step solver) steps intake

def fresh (state : SolverState σ) (channel : Channel) : Intake (Recorded σ) where
  state := state.recorded #[]
  channel

/-- The records under the numbers from `first` on were taken in, once each and in order, and the
solver was told of nothing else. -/
structure Handed (solver : Solver σ) (first : Nat) (records : List (List Bytes))
    (intake : Intake (Recorded σ)) : Prop where
  next : intake.channel.session.nextIncoming = first + records.length
  calls : Contribution.Loads solver first records intake.state.data.calls.toList
  total : intake.tally.total = records.length

variable {first : Nat} {records : List (List Bytes)} {intake : Intake (Recorded σ)}

theorem Reads.handed {more : List (List Bytes)} {after : Intake (Recorded σ)}
    (handed : Handed solver first records intake) (reads : Reads solver more intake after) :
    Handed solver first (records ++ more) after := by
  obtain ⟨calls, loads, told⟩ := reads.calls
  rw [handed.next] at loads
  constructor
  case next =>
    rw [reads.session, List.length_append, ← Nat.add_assoc, ← handed.next]
    rfl
  case calls =>
    rw [told]
    exact handed.calls.append loads
  case total => rw [reads.total, handed.total, List.length_append]

/-- A poll hands over what it reads, and no other step hands over anything. -/
theorem step_handed (handed : Handed solver first records intake) (step : Step σ) :
    Yields (intake.step solver step)
      (fun _ after => ∃ more, Handed solver first (records ++ more) after ∧
        (∃ connections,
          after.channel.store = { step.act intake.channel.store with connections }) ∧
        ∀ index record, more[index]? = some record → step = .poll ∧ record ≠ [] ∧
          (intake.channel.store.list
            (Key.incoming (first + (records.length + index)))).toList = record)
      Spent := by
  have idle : ∀ state channel, state.data.calls = intake.state.data.calls →
      channel.session = intake.channel.session →
      Handed solver first (records ++ []) ⟨intake.tally, state, channel⟩ := by
    intro state channel calls session
    rw [List.append_nil]
    exact ⟨by rw [← handed.next, ← session], by rw [calls]; exact handed.calls, handed.total⟩
  cases step with
  | poll =>
      refine (poll_reads solver intake).imp ?_ (fun _ _ spent => spent)
      rintro answer after ⟨more, reads, _⟩
      refine ⟨more, reads.handed handed, reads.store, ?_⟩
      intro index record here
      have found := reads.found index record here
      rw [handed.next, Nat.add_assoc] at found
      exact ⟨rfl, found⟩
  | contribute number elements => exact ⟨[], idle _ _ rfl rfl, ⟨_, rfl⟩, nofun⟩
  | outside deed => exact ⟨[], idle _ _ rfl rfl, ⟨_, rfl⟩, nofun⟩
  | change hook => exact ⟨[], idle _ _ rfl rfl, ⟨_, rfl⟩, nofun⟩

theorem handed_fresh (solver : Solver σ) (state : SolverState σ) (channel : Channel) :
    Handed solver channel.session.nextIncoming [] (fresh state channel) :=
  ⟨rfl, .nil _, rfl⟩

/-! Where the cursor is in the course of a run. It never goes back. -/

theorem step_next_le (solver : Solver σ) (step : Step σ) (intake : Intake (Recorded σ)) :
    Yields (intake.step solver step)
      (fun _ after => intake.channel.session.nextIncoming ≤ after.channel.session.nextIncoming)
      Spent := by
  cases step with
  | poll =>
      refine (poll_reads solver intake).imp ?_ (fun _ _ spent => spent)
      rintro answer after ⟨records, reads, _⟩
      rw [reads.session]
      exact Nat.le_add_right _ _
  | _ => exact Nat.le_refl _

theorem run_next_le {steps : List (Step σ)} {start after : Intake (Recorded σ)}
    {answers : List (Except IntakeError Nat)} (ran : run solver steps start = (.ok answers, after)) :
    start.channel.session.nextIncoming ≤ after.channel.session.nextIncoming := by
  induction steps generalizing start answers with
  | nil =>
      cases ran
      exact Nat.le_refl _
  | cons step steps induction =>
      obtain ⟨answer, middle, more, stepped, followed, rfl⟩ := runAll_cons_ok ran
      have first := step_next_le solver step start
      rw [stepped] at first
      exact Nat.le_trans first (induction followed)

/-- The cursor passes a number at a poll that comes after these steps. -/
structure PassesAt (solver : Solver σ) (start : Intake (Recorded σ)) (number : Nat)
    (earlier : List (Step σ)) : Prop where
  before : (run solver earlier start).2.channel.session.nextIncoming ≤ number
  after : number < (run solver (earlier ++ [.poll]) start).2.channel.session.nextIncoming

namespace PassesAt

variable {start last : Intake (Recorded σ)} {number : Nat} {earlier later other : List (Step σ)}
  {answers : List (Except IntakeError Nat)}

theorem not_again (passes : PassesAt solver start number earlier)
    (ran : run solver (earlier ++ [.poll] ++ later) start = (.ok answers, last)) :
    ¬PassesAt solver start number (earlier ++ [.poll] ++ later) := by
  intro again
  obtain ⟨_, middle, _, before, rest, _⟩ := runAll_append_ok ran
  have past := passes.after
  have back := again.before
  rw [run, before] at past
  rw [ran] at back
  exact Nat.not_lt_of_le (Nat.le_trans (run_next_le rest) back) past

/-- It does so once in a run. -/
theorem unique {steps more : List (Step σ)} (ran : run solver steps start = (.ok answers, last))
    (passes : PassesAt solver start number earlier) (here : steps = earlier ++ .poll :: later)
    (again : PassesAt solver start number other) (there : steps = other ++ .poll :: more) :
    other = earlier := by
  have whole {one rest : List (Step σ)} (split : steps = one ++ .poll :: rest) :
      (∃ answers middle, run solver one start = (.ok answers, middle)) ∧ one ++ [.poll] <+: steps := by
    rw [split] at ran ⊢
    obtain ⟨answers, middle, _, before, _⟩ := runAll_append_ok ran
    exact ⟨⟨answers, middle, before⟩, ⟨rest, by rw [List.append_assoc]; rfl⟩⟩
  obtain ⟨⟨_, _, ranHere⟩, prefixHere⟩ := whole here
  obtain ⟨⟨_, _, ranThere⟩, prefixThere⟩ := whole there
  rcases List.prefix_or_prefix_of_prefix prefixThere prefixHere with before | before
  · rcases List.prefix_concat_iff.mp before with same | ⟨between, rfl⟩
    · exact List.append_cancel_right same
    · exact absurd passes (again.not_again ranHere)
  · rcases List.prefix_concat_iff.mp before with same | ⟨between, rfl⟩
    · exact (List.append_cancel_right same).symm
    · exact absurd again (passes.not_again ranThere)

end PassesAt

end ClauseExchange.Intake
