import ClauseExchange.Fault
import ClauseExchange.Store.Key
import Mathlib.Data.List.Induction

/-!
What is to be proved of an operation that may break off at a fault: what holds of its result and of
the state after it, and which fault it can meet, and in which state.
-/

namespace ClauseExchange

variable {α β ι : Type}

/-- Steps taken one after another, up to the first fault, with the answers in their order. -/
def runAll (step : ι → β → Except Fault α × β) : List ι → β → Except Fault (List α) × β
  | [], state => (.ok [], state)
  | one :: rest, state =>
      match step one state with
      | (.error fault, state) => (.error fault, state)
      | (.ok answer, state) =>
          match runAll step rest state with
          | (.error fault, state) => (.error fault, state)
          | (.ok answers, state) => (.ok (answer :: answers), state)

def Yields (outcome : Except Fault α × β) (holds : α → β → Prop) (breaks : Fault → β → Prop) : Prop :=
  match outcome with
  | (.ok result, state) => holds result state
  | (.error fault, state) => breaks fault state

namespace Yields

variable {outcome : Except Fault α × β} {holds weaker : α → β → Prop}
  {breaks looser : Fault → β → Prop}

theorem imp (yields : Yields outcome holds breaks)
    (result : ∀ result state, holds result state → weaker result state)
    (fault : ∀ fault state, breaks fault state → looser fault state) : Yields outcome weaker looser := by
  rcases outcome with ⟨_ | value, state⟩
  · exact fault _ state yields
  · exact result value state yields

theorem split (yields : Yields outcome holds breaks) :
    (∃ fault state, outcome = (.error fault, state) ∧ breaks fault state) ∨
      ∃ result state, outcome = (.ok result, state) ∧ holds result state := by
  rcases outcome with ⟨fault | result, state⟩
  · exact Or.inl ⟨fault, state, rfl, yields⟩
  · exact Or.inr ⟨result, state, rfl, yields⟩

theorem and {also : α → β → Prop} (first : Yields outcome holds breaks)
    (second : Yields outcome also breaks) :
    Yields outcome (fun result state => holds result state ∧ also result state) breaks := by
  rcases outcome with ⟨_ | value, state⟩
  · exact first
  · exact ⟨first, second⟩

/-- What is known of one outcome from two proofs. -/
theorem both {also : α → β → Prop} (first : Yields outcome holds breaks)
    (second : Yields outcome also looser) :
    Yields outcome (fun result state => holds result state ∧ also result state)
      (fun fault state => breaks fault state ∧ looser fault state) := by
  rcases outcome with ⟨_ | value, state⟩
  · exact ⟨first, second⟩
  · exact ⟨first, second⟩

/-- What is proved of an operation goes for one that reworks its answer and its state. -/
theorem through {γ δ : Type} {holds : γ → δ → Prop} {breaks : Fault → δ → Prop} (result : α → γ)
    (wrap : β → δ)
    (yields : Yields outcome (fun answer after => holds (result answer) (wrap after))
      (fun fault after => breaks fault (wrap after))) :
    Yields (outcome.1.map result, wrap outcome.2) holds breaks := by
  rcases outcome with ⟨_ | _, _⟩
  · exact yields
  · exact yields

theorem runAll_cons {step : ι → β → Except Fault α × β} {one : ι} {rest : List ι} {state : β}
    {between : α → β → Prop} {total : List α → β → Prop}
    (head : Yields (step one state) between breaks)
    (tail : ∀ answer middle, between answer middle →
      Yields (runAll step rest middle) (fun answers => total (answer :: answers)) breaks) :
    Yields (runAll step (one :: rest) state) total breaks := by
  unfold runAll
  rcases head.split with ⟨fault, middle, stepped, broken⟩ | ⟨answer, middle, stepped, held⟩
  · rw [stepped]
    exact broken
  · rw [stepped]
    dsimp only
    rcases (tail answer middle held).split with
      ⟨fault, after, followed, broken⟩ | ⟨answers, after, followed, total⟩
    · rw [followed]
      exact broken
    · rw [followed]
      exact total

theorem runAll_snoc (step : ι → β → Except Fault α × β) (done : List ι) (one : ι) (start : β) :
    runAll step (done ++ [one]) start =
      match runAll step done start with
      | (.error fault, state) => (.error fault, state)
      | (.ok answers, state) =>
          match step one state with
          | (.error fault, state) => (.error fault, state)
          | (.ok answer, state) => (.ok (answers ++ [answer]), state) := by
  induction done generalizing start with
  | nil =>
      unfold runAll
      rcases step one start with ⟨fault | answer, state⟩ <;> rfl
  | cons first done induction =>
      rw [List.cons_append, runAll, runAll]
      rcases step first start with ⟨fault | answer, state⟩
      · rfl
      · dsimp only
        rw [induction]
        rcases runAll step done state with ⟨fault | answers, state⟩
        · rfl
        · dsimp only
          rcases step one state with ⟨fault | answer, state⟩ <;> rfl

/-- What holds at the start and is preserved by every step holds after a run. Each step may count on
the run before it. -/
theorem runAll_history {step : ι → β → Except Fault α × β} {steps : List ι} {start : β}
    (invariant : List ι → List α → β → Prop) (initial : invariant [] [] start)
    (preserved : ∀ done one middle answers, done ++ [one] <+: steps →
      runAll step done start = (.ok answers, middle) → invariant done answers middle →
      Yields (step one middle) (fun answer => invariant (done ++ [one]) (answers ++ [answer])) breaks) :
    Yields (runAll step steps start) (invariant steps) breaks := by
  suffices reached : ∀ done, done <+: steps →
      Yields (runAll step done start) (invariant done) breaks from
    reached steps List.prefix_rfl
  intro done
  induction done using List.reverseRecOn with
  | nil => exact fun _ => initial
  | append_singleton done one induction =>
      intro within
      have before := induction ((List.prefix_append done [one]).trans within)
      rw [runAll_snoc]
      rcases before.split with ⟨fault, middle, outcome, broken⟩ | ⟨answers, middle, outcome, held⟩
      · rw [outcome]
        exact broken
      · rw [outcome]
        dsimp only
        rcases (preserved done one middle answers within outcome held).split with
          ⟨fault, after, stepped, broken⟩ | ⟨answer, after, stepped, kept⟩
        · rw [stepped]
          exact broken
        · rw [stepped]
          exact kept

/-- The same where it does not matter how the steps were answered. -/
theorem runAll_invariant {step : ι → β → Except Fault α × β} {steps : List ι} {start : β}
    {invariant : List ι → β → Prop} (initial : invariant [] start)
    (preserved : ∀ done one middle answers, done ++ [one] <+: steps →
      runAll step done start = (.ok answers, middle) → invariant done middle →
      Yields (step one middle) (fun _ after => invariant (done ++ [one]) after) breaks) :
    Yields (runAll step steps start) (fun _ after => invariant steps after) breaks :=
  runAll_history (fun done _ => invariant done) initial preserved

end Yields

theorem runAll_cons_ok {step : ι → β → Except Fault α × β} {one : ι} {rest : List ι}
    {state after : β} {answers : List α} (ran : runAll step (one :: rest) state = (.ok answers, after)) :
    ∃ answer middle more, step one state = (.ok answer, middle) ∧
      runAll step rest middle = (.ok more, after) ∧ answers = answer :: more := by
  unfold runAll at ran
  rcases stepped : step one state with ⟨fault | answer, middle⟩
  · rw [stepped] at ran
    cases ran
  · rw [stepped] at ran
    dsimp only at ran
    rcases followed : runAll step rest middle with ⟨fault | more, last⟩
    · rw [followed] at ran
      cases ran
    · rw [followed] at ran
      cases ran
      exact ⟨answer, middle, more, rfl, followed, rfl⟩

/-- Two ways of taking steps are the same along a run if they are so wherever an invariant holds that the
steps keep. -/
theorem runAll_congr {step other : ι → β → Except Fault α × β} (invariant : β → Prop)
    (same : ∀ one state, invariant state → step one state = other one state)
    (kept : ∀ one state, invariant state →
      Yields (step one state) (fun _ after => invariant after) (fun _ _ => True))
    {state : β} (initial : invariant state) (steps : List ι) :
    runAll step steps state = runAll other steps state := by
  induction steps generalizing state with
  | nil => rfl
  | cons one rest induction =>
      have stepping := kept one state initial
      rw [runAll, runAll, ← same one state initial]
      generalize step one state = outcome at stepping ⊢
      rcases outcome with ⟨fault | answer, middle⟩
      · rfl
      · dsimp only
        rw [induction stepping]

theorem runAll_snoc_ok {step : ι → β → Except Fault α × β} {done : List ι} {one : ι}
    {start middle after : β} {answers : List α} {answer : α}
    (ran : runAll step done start = (.ok answers, middle))
    (stepped : step one middle = (.ok answer, after)) :
    runAll step (done ++ [one]) start = (.ok (answers ++ [answer]), after) := by
  rw [Yields.runAll_snoc, ran]
  dsimp only
  rw [stepped]

theorem runAll_append_ok {step : ι → β → Except Fault α × β} {first second : List ι}
    {state after : β} {answers : List α}
    (ran : runAll step (first ++ second) state = (.ok answers, after)) :
    ∃ early middle late, runAll step first state = (.ok early, middle) ∧
      runAll step second middle = (.ok late, after) ∧ answers = early ++ late := by
  induction first generalizing state answers with
  | nil => exact ⟨[], state, answers, rfl, ran, rfl⟩
  | cons one first induction =>
      obtain ⟨answer, between, more, stepped, followed, rfl⟩ := runAll_cons_ok ran
      obtain ⟨early, middle, late, before, rest, rfl⟩ := induction followed
      refine ⟨answer :: early, middle, late, ?_, rest, rfl⟩
      rw [runAll, stepped]
      dsimp only
      rw [before]

/-- Steps may be left out of a run that leave a relation to the other run as it is. The steps that are
kept have the same answers then. -/
theorem runAll_filter {step : ι → β → Except Fault α × β} {keep : ι → Bool} {kept : α → Bool}
    {related : β → β → Prop} {steps : List ι}
    (skips : ∀ one ∈ steps, keep one = false → ∀ {first second after answer},
      related first second → step one first = (.ok answer, after) →
        kept answer = false ∧ related after second)
    (follows : ∀ one ∈ steps, keep one = true → ∀ {first second after answer},
      related first second → step one first = (.ok answer, after) →
        kept answer = true ∧ ∃ other, step one second = (.ok answer, other) ∧ related after other)
    {first second after : β} {answers : List α} (start : related first second)
    (ran : runAll step steps first = (.ok answers, after)) :
    ∃ other, runAll step (steps.filter keep) second = (.ok (answers.filter kept), other) ∧
      related after other := by
  induction steps generalizing first second answers with
  | nil =>
      cases ran
      exact ⟨second, rfl, start⟩
  | cons one rest induction =>
      obtain ⟨answer, middle, more, stepped, followed, rfl⟩ := runAll_cons_ok ran
      have later {other : β} (related : related middle other) :=
        induction (fun one member => skips one (List.mem_cons_of_mem _ member))
          (fun one member => follows one (List.mem_cons_of_mem _ member)) related followed
      cases kind : keep one with
      | false =>
          obtain ⟨left, goes⟩ := skips one List.mem_cons_self kind start stepped
          rw [List.filter_cons_of_neg (by simp [kind]), List.filter_cons_of_neg (by simp [left])]
          exact later goes
      | true =>
          obtain ⟨stays, other, again, goes⟩ := follows one List.mem_cons_self kind start stepped
          obtain ⟨last, rest, held⟩ := later goes
          refine ⟨last, ?_, held⟩
          rw [List.filter_cons_of_pos kind, List.filter_cons_of_pos stays, runAll, again]
          dsimp only
          rw [rest]

/-- The steps whose answers are no refusals. -/
def granted (refused : α → Bool) (steps : List ι) (answers : List α) : List ι :=
  ((steps.zip answers).filter fun entry => !refused entry.2).map Prod.fst

theorem granted_of_all {refused : α → Bool} {steps : List ι} {answers : List α}
    (same : steps.length = answers.length) (all : ∀ answer ∈ answers, refused answer = false) :
    granted refused steps answers = steps ∧ answers.filter (!refused ·) = answers := by
  constructor
  · unfold granted
    rw [List.filter_eq_self.mpr, List.map_fst_zip (Nat.le_of_eq same)]
    intro entry member
    rw [all entry.2 (List.of_mem_zip member).2]
    rfl
  · rw [List.filter_eq_self]
    intro answer member
    rw [all answer member]
    rfl

/-- Where a step that is refused changes nothing, and every other step has the same answer in a related
state, the other run is that of the steps which are not refused. -/
theorem Yields.runAll_granted {step : ι → β → Except Fault α × β} {refused : α → Bool}
    {related : β → β → Prop} {breaks : Fault → β → Prop}
    (follows : ∀ one {first second}, related first second →
      Yields (step one first)
        (fun answer after => (refused answer = true ∧ related after second) ∨
          (refused answer = false ∧
            ∃ other, step one second = (.ok answer, other) ∧ related after other))
        breaks)
    {first second : β} (start : related first second) (steps : List ι) :
    Yields (runAll step steps first)
      (fun answers after => ∃ other,
        runAll step (granted refused steps answers) second =
            (.ok (answers.filter (!refused ·)), other) ∧ related after other)
      breaks := by
  induction steps generalizing first second with
  | nil => exact ⟨second, rfl, start⟩
  | cons one rest induction =>
      refine Yields.runAll_cons (follows one start) ?_
      rintro answer middle (⟨declined, held⟩ | ⟨allowed, between, stepped, held⟩)
      · refine (induction held).imp ?_ (fun _ _ broken => broken)
        rintro answers after ⟨other, ran, last⟩
        refine ⟨other, ?_, last⟩
        rw [granted, List.zip_cons_cons, List.filter_cons_of_neg (by simp [declined]),
          List.filter_cons_of_neg (by simp [declined])]
        exact ran
      · refine (induction held).imp ?_ (fun _ _ broken => broken)
        rintro answers after ⟨other, ran, last⟩
        refine ⟨other, ?_, last⟩
        rw [granted, List.zip_cons_cons, List.filter_cons_of_pos (by simp [allowed]),
          List.filter_cons_of_pos (by simp [allowed]), List.map_cons, runAll, stepped]
        dsimp only
        unfold granted at ran
        rw [ran]

/-- The fault of counting up to a number that lies past the last one. -/
def Exhausted (number : Nat) (fault : Fault) (_ : β) : Prop :=
  fault = .numbersExhausted ∧ Key.numberBound ≤ number

theorem Exhausted.mono {first second : Nat} (le : first ≤ second) {fault : Fault} {state : β}
    (exhausted : Exhausted first fault state) : Exhausted second fault state :=
  ⟨exhausted.1, Nat.le_trans exhausted.2 le⟩

theorem Key.next?_cases (number : Nat) :
    (Key.next? number = some (number + 1) ∧ number + 1 < Key.numberBound) ∨
      (Key.next? number = none ∧ Key.numberBound ≤ number + 1) := by
  unfold Key.next?
  split
  case isTrue below => exact Or.inl ⟨rfl, below⟩
  case isFalse past => exact Or.inr ⟨rfl, Nat.le_of_not_lt past⟩

end ClauseExchange
