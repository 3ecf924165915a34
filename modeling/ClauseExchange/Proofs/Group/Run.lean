import ClauseExchange.Proofs.Participant.Account
import ClauseExchange.Proofs.Store.Traffic

/-!
Runs of a group: participants that share a store, each with a solver of its own. In a run their calls
come in any order, with what the solvers do of themselves and what others do to the store in between.
The accounts of all participants go on, and a log of the run says step by step what is new in them and
in the store.
-/

namespace ClauseExchange

variable {ι : Type} {σ : ι → Type}

structure Member (τ : Type) where
  participant : Participant
  state : SolverState τ

structure Group (σ : ι → Type) where
  member : (who : ι) → Member (σ who)
  store : Store
  journal : Journal := #[]

namespace Group

/-- A group whose members have just joined. -/
def gather (settings : ι → Settings) (states : (who : ι) → SolverState (σ who)) (store : Store)
    (journal : Journal := #[]) : Group σ where
  member who := ⟨.join (settings who), states who⟩
  store
  journal

def seat (group : Group σ) (who : ι) : Seat :=
  ⟨(group.member who).participant, group.store, group.journal⟩

inductive Step (σ : ι → Type) where
  | call (who : ι) (call : Call)
  /-- A solver goes on by itself. -/
  | turn (who : ι) (hook : SolverState (σ who) → SolverState (σ who))
  | outside (deed : Store.Deed)

namespace Step

def deeds : Step σ → List Store.Deed
  | .outside deed => [deed]
  | _ => []

/-- The acts at the store that a step may come down to. A call writes for its caller only. -/
def Does : Step σ → Store.Act ι → Prop
  | .call who _, act => ∃ records, act = .write who records
  | .turn who _, act => act = .write who []
  | .outside deed, act => act = .undergo deed

theorem Does.leavesValues {step : Step σ} {act : Store.Act ι} (does : step.Does act)
    (leaves : ∀ deed ∈ step.deeds, deed.LeavesValues) : act.LeavesValues := by
  cases step with
  | call who call =>
      obtain ⟨records, rfl⟩ := does
      trivial
  | turn who hook =>
      obtain rfl := does
      trivial
  | outside deed =>
      obtain rfl := does
      exact leaves deed (List.mem_singleton_self deed)

end Step

/-- What is written down of a step: how it was answered, and what the solver was told in it. -/
structure Entry (σ : ι → Type) where
  step : Step σ
  reply : Except Error Reply := .ok .done
  told : List SolverCall := []

/-- The fault of counting past the last number: after so many steps that two lines each could use the
numbers up, or by a poll that read as many records as there are numbers. -/
def Exhausts (steps : Nat) (fault : Fault) (group : Group σ) : Prop :=
  Exhausted (2 * steps) fault group ∨
    ∃ who, Exhausted ((group.member who).participant.session.nextIncoming + 1) fault group

theorem Exhausts.mono {fewer steps : Nat} (le : fewer ≤ steps) {fault : Fault}
    {group : Group σ} (exhausts : Exhausts fewer fault group) : Exhausts steps fault group := by
  rcases exhausts with outgoing | incoming
  · exact Or.inl (outgoing.mono (Nat.mul_le_mul_left 2 le))
  · exact Or.inr incoming

section

variable [DecidableEq ι]

def Entry.tally? (who : ι) (entry : Entry σ) : Option Tally :=
  match entry.step with
  | .call caller _ => if caller = who then Reply.tally? entry.reply else none
  | _ => none

theorem Entry.tally?_self (who : ι) (call : Call) (reply : Except Error Reply)
    (told : List SolverCall) :
    (⟨.call who call, reply, told⟩ : Entry σ).tally? who = Reply.tally? reply :=
  if_pos rfl

theorem Entry.tally?_of_ne {who other : ι} (different : other ≠ who) (call : Call)
    (reply : Except Error Reply) (told : List SolverCall) :
    (⟨.call who call, reply, told⟩ : Entry σ).tally? other = none :=
  if_neg (Ne.symm different)

/-- The group after one of its members has been served. -/
def reseat (group : Group σ) (who : ι) (state : SolverState (σ who)) (seat : Seat) : Group σ where
  member := Function.update group.member who ⟨seat.participant, state⟩
  store := seat.store
  journal := seat.journal

def step (solver : (who : ι) → Solver (σ who)) (step : Step σ) (group : Group σ) :
    Except Fault (Entry σ) × Group σ :=
  match step with
  | .call who call =>
      let (outcome, state, seat) := (group.seat who).answer (solver who).recorded
        ((group.member who).state.recorded #[]) call
      (outcome.map fun reply => { step, reply, told := state.data.calls.toList },
        group.reseat who state.unrecorded seat)
  | .turn who hook =>
      (.ok { step }, group.reseat who (hook (group.member who).state) (group.seat who))
  | .outside deed => (.ok { step }, { group with store := group.store.undergo deed })

def run (solver : (who : ι) → Solver (σ who)) (steps : List (Step σ)) (group : Group σ) :
    Except Fault (List (Entry σ)) × Group σ :=
  runAll (step solver) steps group

@[simp] theorem seat_reseat_self (group : Group σ) (who : ι) (state : SolverState (σ who))
    (seat : Seat) : (group.reseat who state seat).seat who = seat := by
  unfold Group.seat reseat
  dsimp only
  rw [Function.update_self]

theorem member_reseat_self (group : Group σ) (who : ι) (state : SolverState (σ who)) (seat : Seat) :
    (group.reseat who state seat).member who = ⟨seat.participant, state⟩ :=
  Function.update_self _ _ _

theorem member_reseat_of_ne (group : Group σ) {who other : ι} (different : other ≠ who)
    (state : SolverState (σ who)) (seat : Seat) :
    (group.reseat who state seat).member other = group.member other :=
  Function.update_of_ne different _ _

theorem participant_reseat_of_ne (group : Group σ) {who other : ι} (different : other ≠ who)
    (state : SolverState (σ who)) (seat : Seat) :
    ((group.reseat who state seat).seat other).participant = (group.seat other).participant :=
  congrArg Member.participant (group.member_reseat_of_ne different state seat)

/-- The accounts that go with a transcript, one for each member. -/
structure Tracked (settings : ι → Settings) (transcript : List (Entry σ))
    (accounts : ι → Chronicle Ledger) (group : Group σ) : Prop where
  keeps : ∀ who, (group.seat who).Keeps (settings who) (accounts who)
  tallies : ∀ who, (accounts who).tallies = transcript.filterMap (Entry.tally? who)
  few : ∀ who, ((accounts who).map Ledger.lines).records.length ≤ 2 * transcript.length

variable {settings : ι → Settings} {transcript : List (Entry σ)} {accounts : ι → Chronicle Ledger}
  {group : Group σ}

theorem tracked_gather (settings : ι → Settings) (states : (who : ι) → SolverState (σ who))
    (store : Store) (journal : Journal) :
    Tracked settings [] (fun _ => {}) (gather settings states store journal) where
  keeps _ := ⟨rfl, rfl, nofun, rfl⟩
  tallies _ := rfl
  few _ := Nat.le_refl 0

/-- What a step does to the accounts and to the store. -/
structure Carries (settings : ι → Settings) (transcript : List (Entry σ))
    (accounts : ι → Chronicle Ledger) (step : Step σ) (before : Group σ) (entry : Entry σ)
    (after : Group σ) (next : ι → Chronicle Ledger) (act : Store.Act ι) : Prop where
  answers : entry.step = step
  tracked : Tracked settings (transcript ++ [entry]) next after
  does : step.Does act
  lays : (fun who => (next who).deposited) = act.lay fun who => (accounts who).deposited
  moves : act.Moves (fun who => (accounts who).deposited) before.store after.store

/-- A step that is no call leaves all accounts as they are. -/
theorem Tracked.pass (tracked : Tracked settings transcript accounts group) {after : Group σ}
    {entry : Entry σ} (untold : ∀ who, entry.tally? who = none)
    (same : ∀ who, (after.seat who).participant = (group.seat who).participant) :
    Tracked settings (transcript ++ [entry]) accounts after where
  keeps := by
    intro who
    have participant := same who
    apply (tracked.keeps who).elsewhere
    · rw [participant]
    · rw [participant]
    · rw [participant]
  tallies := by
    intro who
    rw [List.filterMap_append, List.filterMap_cons_none (untold who), tracked.tallies]
    exact (List.append_nil _).symm
  few := by
    intro who
    have before := tracked.few who
    rw [List.length_append]
    omega

/-- A call moves the account of its caller on. -/
theorem Tracked.serve (tracked : Tracked settings transcript accounts group) {who : ι} {call : Call}
    {reply : Except Error Reply} {told : List SolverCall} {state : SolverState (σ who)}
    {seat : Seat} {next : Chronicle Ledger} {more : List Bytes}
    (lines : (next.map Ledger.lines).records =
      ((accounts who).map Ledger.lines).records ++ more) (few : more.length ≤ 2)
    (advances : (group.seat who).Advances (settings who) (accounts who)
      (Reply.tally? reply).toList next seat) :
    Tracked settings (transcript ++ [⟨.call who call, reply, told⟩])
      (Function.update accounts who next) (group.reseat who state seat) where
  keeps := by
    intro other
    by_cases self : other = who
    · subst self
      rw [seat_reseat_self, Function.update_self]
      exact advances.keeps
    · have participant := participant_reseat_of_ne group self state seat
      rw [Function.update_of_ne self]
      apply (tracked.keeps other).elsewhere
      · rw [participant]
      · rw [participant]
      · rw [participant]
  tallies := by
    intro other
    rw [List.filterMap_append, ← tracked.tallies]
    by_cases self : other = who
    · subst self
      rw [Function.update_self, advances.tallies, List.filterMap_cons, Entry.tally?_self]
      cases Reply.tally? reply <;> rfl
    · rw [Function.update_of_ne self, List.filterMap_cons, Entry.tally?_of_ne self]
      exact (List.append_nil _).symm
  few := by
    intro other
    have before := tracked.few other
    rw [List.length_append]
    by_cases self : other = who
    · subst self
      rw [Function.update_self, lines, List.length_append, List.length_singleton]
      omega
    · rw [Function.update_of_ne self]
      omega

theorem Exhausts.ofSeat {who : ι} {state : SolverState (σ who)} {seat : Seat}
    {chronicle : Chronicle (List Line)} {steps : Nat} (few : chronicle.records.length ≤ 2 * steps)
    {fault : Fault} (exhausts : seat.Exhausts chronicle fault) :
    Exhausts steps fault (group.reseat who state seat) := by
  rcases exhausts with outgoing | incoming
  · exact Or.inl (outgoing.mono few)
  · refine Or.inr ⟨who, ?_⟩
    rw [member_reseat_self]
    exact incoming

theorem deposited_update (accounts : ι → Chronicle Ledger) (who : ι) (next : Chronicle Ledger) :
    (fun other => (Function.update accounts who next other).deposited) =
      Function.update (fun other => (accounts other).deposited) who next.deposited :=
  funext fun other => Function.apply_update (fun _ => Chronicle.deposited) accounts who next other

theorem step_carries (tracked : Tracked settings transcript accounts group)
    (solver : (who : ι) → Solver (σ who)) (step : Step σ) :
    Yields (group.step solver step)
      (fun entry after => ∃ next act,
        Carries settings transcript accounts step group entry after next act)
      (Exhausts (transcript.length + 1)) := by
  cases step with
  | call who call =>
      obtain ⟨more, records, few⟩ := Chronicle.records_note (solver who).recorded (settings who)
        ((group.member who).state.recorded #[]) call ((accounts who).map Ledger.lines)
      unfold Group.step
      dsimp only
      rcases (Seat.answer_follows (tracked.keeps who) (solver who).recorded
          ((group.member who).state.recorded #[]) call).split with
        ⟨fault, after, outcome, exhausts⟩ | ⟨reply, after, outcome, next, noted, advances⟩
      · rw [outcome]
        have before := tracked.few who
        apply Exhausts.ofSeat _ exhausts
        rw [records, List.length_append]
        omega
      · rw [outcome]
        rw [← noted] at records
        obtain ⟨laid, deposited, received⟩ := advances.receives
        refine ⟨_, .write who laid, rfl, tracked.serve records few advances, ⟨laid, rfl⟩, ?_,
          received⟩
        rw [deposited_update, deposited]
        rfl
  | turn who hook =>
      refine ⟨accounts, .write who [], rfl, tracked.pass (fun _ => rfl) ?_, rfl, ?_, .refl _ _⟩
      · intro other
        by_cases self : other = who
        · subst self
          rw [seat_reseat_self]
        · exact participant_reseat_of_ne group self _ _
      · rw [Store.Act.lay, List.append_nil, Function.update_eq_self]
  | outside deed =>
      exact ⟨accounts, .undergo deed, rfl, tracked.pass (fun _ => rfl) (fun _ => rfl), rfl, rfl, rfl⟩

/-- A run with what it did to the store: an act for each step, in the order of the transcript, from the
store before that step to the one after it. -/
structure Logged (solver : (who : ι) → Solver (σ who)) (start : Group σ) (steps : List (Step σ))
    (transcript : List (Entry σ)) (log : List (Store.Act ι)) : Prop where
  entries : transcript.map Entry.step = steps
  does : List.Forall₂ Step.Does steps log
  moves : ∀ moment (act : Store.Act ι), log[moment]? = some act →
    act.Moves (Store.laid (log.take moment)) (start.run solver (steps.take moment)).2.store
      (start.run solver (steps.take (moment + 1))).2.store

variable {solver : (who : ι) → Solver (σ who)} {start middle after : Group σ}
  {done : List (Step σ)} {one : Step σ} {entry : Entry σ} {log : List (Store.Act ι)}
  {act : Store.Act ι}

theorem Logged.answered (logged : Logged solver start done transcript log) :
    transcript.length = done.length := by
  rw [← logged.entries, List.length_map]

theorem Logged.snoc (logged : Logged solver start done transcript log)
    (ran : start.run solver done = (.ok transcript, middle))
    (stepped : middle.step solver one = (.ok entry, after)) (same : entry.step = one)
    (does : one.Does act) (moved : act.Moves (Store.laid log) middle.store after.store) :
    Logged solver start (done ++ [one]) (transcript ++ [entry]) (log ++ [act]) where
  entries := by
    rw [List.map_append, logged.entries, List.map_singleton, same]
  does := List.rel_append logged.does (.cons does .nil)
  moves := by
    have long : done.length = log.length := logged.does.length_eq
    intro moment other here
    rcases getElem?_append_cases here with early | ⟨rest, rfl, late⟩
    · have inside : moment < log.length := (List.getElem?_eq_some_iff.mp early).1
      rw [List.take_append_of_le_length inside.le, List.take_append_of_le_length (by omega),
        List.take_append_of_le_length (by omega)]
      exact logged.moves moment other early
    · obtain ⟨rfl, rfl⟩ : rest = 0 ∧ act = other := by
        simpa [List.getElem?_singleton] using late
      have reached : start.run solver (done ++ [one]) = (.ok (transcript ++ [entry]), after) :=
        runAll_snoc_ok ran stepped
      rw [Nat.add_zero, List.take_left, ← long, List.take_left, ran, List.take_of_length_le, reached]
      · exact moved
      · rw [List.length_append, List.length_singleton]

/-- At every moment of a run there are accounts that go with the transcript so far, and the log so far
has laid down what is in them. -/
def Accounted (settings : ι → Settings) (solver : (who : ι) → Solver (σ who)) (start : Group σ)
    (steps : List (Step σ)) (transcript : List (Entry σ)) (log : List (Store.Act ι)) : Prop :=
  ∀ moment ≤ steps.length, ∃ accounts,
    Tracked settings (transcript.take moment) accounts (start.run solver (steps.take moment)).2 ∧
      (fun who => (accounts who).deposited) = Store.laid (log.take moment)

theorem Accounted.snoc (accounted : Accounted settings solver start done transcript log)
    (logged : Logged solver start done transcript log)
    (reached : start.run solver (done ++ [one]) = (.ok (transcript ++ [entry]), after))
    (tracked : Tracked settings (transcript ++ [entry]) accounts after)
    (lays : (fun who => (accounts who).deposited) = Store.laid (log ++ [act])) :
    Accounted settings solver start (done ++ [one]) (transcript ++ [entry]) (log ++ [act]) := by
  have answered := logged.answered
  have long : done.length = log.length := logged.does.length_eq
  intro moment within
  rw [List.length_append, List.length_singleton] at within
  rcases Nat.lt_or_eq_of_le within with early | rfl
  · rw [List.take_append_of_le_length (by omega), List.take_append_of_le_length (by omega),
      List.take_append_of_le_length (by omega)]
    exact accounted moment (Nat.le_of_lt_succ early)
  · rw [List.take_of_length_le (by simp [answered]), List.take_of_length_le (by simp),
      List.take_of_length_le (by simp [long]), reached]
    exact ⟨accounts, tracked, lays⟩

theorem run_carries (tracked : Tracked settings [] accounts start)
    (fresh : ∀ who, (accounts who).deposited = []) (solver : (who : ι) → Solver (σ who))
    (steps : List (Step σ)) :
    Yields (start.run solver steps)
      (fun transcript _ => ∃ log, Logged solver start steps transcript log ∧
        Accounted settings solver start steps transcript log)
      (Exhausts steps.length) := by
  refine Yields.runAll_history (fun done transcript _ => ∃ log,
    Logged solver start done transcript log ∧ Accounted settings solver start done transcript log) ?_ ?_
  · refine ⟨[], ⟨rfl, .nil, nofun⟩, ?_⟩
    intro moment none
    obtain rfl := Nat.le_zero.mp none
    exact ⟨accounts, tracked, funext fresh⟩
  · rintro done one middle transcript within ran ⟨log, logged, accounted⟩
    have now := accounted done.length (Nat.le_refl _)
    rw [List.take_length, List.take_of_length_le logged.answered.le,
      List.take_of_length_le logged.does.length_eq.ge, run, ran] at now
    obtain ⟨accounts, tracked, deposited⟩ := now
    rcases (step_carries tracked solver one).split with
      ⟨fault, after, stepped, exhausts⟩ | ⟨entry, after, stepped, next, act, carries⟩
    · rw [stepped]
      apply exhausts.mono
      have short := within.length_le
      rw [List.length_append, List.length_singleton] at short
      rw [logged.answered]
      exact short
    · rw [stepped]
      have moved := carries.moves
      have lays := carries.lays
      rw [deposited] at moved lays
      rw [← Store.laid_snoc] at lays
      exact ⟨_, logged.snoc ran stepped carries.answers carries.does moved,
        accounted.snoc logged (runAll_snoc_ok ran stepped) carries.tracked lays⟩

end

end Group

end ClauseExchange
