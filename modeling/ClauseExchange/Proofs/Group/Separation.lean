import ClauseExchange.Proofs.Group.Run
import ClauseExchange.Proofs.Participant.Twins

/-!
The two directions of an exchange do not interfere. Where polls change nothing that a solver shows, they
can be left out without an effect on the proofs; and what the members write can be left out without an
effect on the polls of any one of them.
-/

namespace ClauseExchange

/-- From one moment to another, nothing has changed that concerns a proof. -/
structure Seat.Passes {τ : Type} (solver : Solver τ) (state : SolverState τ) (seat : Seat)
    (after : SolverState τ × Seat) : Prop where
  settings : after.2.participant.settings = seat.participant.settings
  tracer : after.2.participant.tracer = seat.participant.tracer
  next : after.2.participant.session.nextOutgoing = seat.participant.session.nextOutgoing
  store : seat.store.Alike after.2.store
  state : state.Alike solver after.1

/-- A call of the intake does not touch the proof, and a quiet solver shows the same after it. -/
theorem Seat.passes_of_isIntake {τ : Type} {solver : Solver τ} (quiet : solver.Quiet)
    {state : SolverState τ} {call : Call} (intake : call.isIntake = true)
    {reply : Except Error Reply} {seat : Seat} {after : SolverState τ × Seat}
    (answered : seat.answer solver state call = (.ok reply, after)) :
    seat.Passes solver state after := by
  cases call with
  | start encoding => cases intake
  | perform request => cases intake
  | flush => cases intake
  | finish => cases intake
  | poll =>
      have passes := Intake.poll_passes solver ⟨seat.participant.intake, state, seat.channel⟩
      have shows := quiet.poll ⟨seat.participant.intake, state, seat.channel⟩
      unfold answer poll channel at *
      dsimp only at answered
      generalize Intake.poll solver _ = outcome at passes shows answered
      rcases outcome with ⟨fault | total, polled⟩
      · cases answered
      · cases answered
        obtain ⟨⟨count, session⟩, store, stack⟩ := passes
        refine ⟨rfl, rfl, ?_, store, stack.symm, shows⟩
        change polled.channel.session.nextOutgoing = _
        rw [session]
        rfl
  | tick =>
      obtain ⟨participant, store, journal⟩ := seat
      unfold answer requestPoll Channel.requestPoll at answered
      dsimp only at answered
      cases answered
      rcases participant.session.throttle.request with ⟨_ | requests, throttle⟩
      · exact ⟨rfl, rfl, rfl, .refl _, .refl _⟩
      · exact ⟨rfl, rfl, rfl, .refl _, .refl _⟩

variable {ι : Type} {σ : ι → Type}

namespace Group

namespace Step

def isIntake : Step σ → Bool
  | .call _ asked => asked.isIntake
  | _ => false

/-- The calls of the intake of one member, and whatever is no call. -/
def concernsIntake [DecidableEq ι] (who : ι) : Step σ → Bool
  | .call caller asked => decide (caller = who) && asked.isIntake
  | _ => true

/-- A solver that goes on by itself goes on alike from states in which it shows the same. -/
def Respects (solver : (who : ι) → Solver (σ who)) : Step σ → Prop
  | .turn who hook => ∀ first second, first.Alike (solver who) second →
      (hook first).Alike (solver who) (hook second)
  | _ => True

end Step

/-- Two members with the same proof, whose solvers show the same. -/
structure Member.SameProof {τ : Type} (solver : Solver τ) (first second : Member τ) : Prop where
  settings : first.participant.settings = second.participant.settings
  tracer : first.participant.tracer = second.participant.tracer
  next : first.participant.session.nextOutgoing = second.participant.session.nextOutgoing
  state : first.state.Alike solver second.state

structure SameProofs (solver : (who : ι) → Solver (σ who)) (first second : Group σ) : Prop where
  members : ∀ who, Member.SameProof (solver who) (first.member who) (second.member who)
  store : first.store.Alike second.store

/-- Two groups in which the intake of one member has come equally far. -/
structure SameIntake (who : ι) (first second : Group σ) : Prop where
  state : (first.member who).state = (second.member who).state
  inbox : (first.seat who).SameInbox (second.seat who)

/-- Where the member is the same, it matters only what its polls see of the store. -/
theorem SameIntake.elsewhere {who : ι} {first second one other : Group σ}
    (same : SameIntake who first second)
    (left : one.member who = first.member who) (right : other.member who = second.member who)
    (store : one.store.SameInbox other.store) : SameIntake who one other where
  state := by
    rw [left, right]
    exact same.state
  inbox := by
    unfold Group.seat
    rw [left, right]
    exact ⟨same.inbox.intake, same.inbox.channel.next, same.inbox.channel.throttle, store⟩

theorem SameProofs.refl (solver : (who : ι) → Solver (σ who)) (group : Group σ) :
    SameProofs solver group group where
  members _ := ⟨rfl, rfl, rfl, .refl _⟩
  store := .refl _

theorem SameIntake.refl (who : ι) {group : Group σ} (unlimited : group.store.allowance = none) :
    SameIntake who group group where
  state := rfl
  inbox := ⟨rfl, rfl, rfl, .refl unlimited⟩

variable [DecidableEq ι]

theorem step_call_ok {solver : (who : ι) → Solver (σ who)} {group after : Group σ} {who : ι}
    {call : Call} {entry : Entry σ}
    (stepped : group.step solver (.call who call) = (.ok entry, after)) :
    ∃ reply state seat, (group.seat who).answer (solver who).recorded
        ((group.member who).state.recorded #[]) call = (.ok reply, state, seat) ∧
      entry = ⟨.call who call, reply, state.data.calls.toList⟩ ∧
        after = group.reseat who state.unrecorded seat := by
  unfold step at stepped
  dsimp only at stepped
  rcases answered : (group.seat who).answer (solver who).recorded
    ((group.member who).state.recorded #[]) call with ⟨fault | reply, state, seat⟩
  · rw [answered] at stepped
    cases stepped
  · rw [answered] at stepped
    cases stepped
    exact ⟨reply, state, seat, rfl, rfl, rfl⟩

theorem step_call_of_answer {solver : (who : ι) → Solver (σ who)} {group : Group σ} {who : ι}
    {call : Call} {reply : Except Error Reply} {state : SolverState (Recorded (σ who))} {seat : Seat}
    (answered : (group.seat who).answer (solver who).recorded
      ((group.member who).state.recorded #[]) call = (.ok reply, state, seat)) :
    group.step solver (.call who call) =
      (.ok ⟨.call who call, reply, state.data.calls.toList⟩,
        group.reseat who state.unrecorded seat) := by
  unfold step
  dsimp only
  rw [answered]
  rfl

/-- What relates the members of two groups pairwise goes on doing so when a member of each is served. -/
theorem members_reseat {related : (who : ι) → Member (σ who) → Member (σ who) → Prop}
    {first second : Group σ} (members : ∀ who, related who (first.member who) (second.member who))
    (who : ι) {state other : SolverState (σ who)} {one two : Seat}
    (served : related who ⟨one.participant, state⟩ ⟨two.participant, other⟩) (third : ι) :
    related third ((first.reseat who state one).member third)
      ((second.reseat who other two).member third) := by
  unfold reseat
  dsimp only
  by_cases self : third = who
  · subst self
    rw [Function.update_self, Function.update_self]
    exact served
  · rw [Function.update_of_ne self, Function.update_of_ne self]
    exact members third

theorem reseat_self (group : Group σ) (who : ι) :
    group.reseat who (group.member who).state (group.seat who) = group := by
  obtain ⟨member, store, journal⟩ := group
  unfold reseat Group.seat
  dsimp only
  rw [Function.update_eq_self]

namespace SameProofs

variable {solver : (who : ι) → Solver (σ who)} {first second after : Group σ}

theorem skip (same : SameProofs solver first second) (quiet : ∀ who, (solver who).Quiet)
    {step : Step σ} (intake : step.isIntake = true) {entry : Entry σ}
    (stepped : first.step solver step = (.ok entry, after)) :
    entry.step = step ∧ SameProofs solver after second := by
  cases step with
  | call who call =>
      change call.isIntake = true at intake
      obtain ⟨reply, state, seat, answered, rfl, rfl⟩ := step_call_ok stepped
      have passes := Seat.passes_of_isIntake (quiet who).recorded intake answered
      have before := same.members who
      refine ⟨rfl, ?_, ?_⟩
      · rw [← reseat_self second who]
        apply members_reseat same.members
        exact ⟨passes.settings.trans before.settings, passes.tracer.trans before.tracer,
          passes.next.trans before.next, passes.state.unrecorded.symm.trans before.state⟩
      · exact passes.store.symm.trans same.store
  | turn who hook => cases intake
  | outside deed => cases intake

theorem follow (same : SameProofs solver first second) {step : Step σ}
    (proof : step.isIntake = false) (respects : step.Respects solver) {entry : Entry σ}
    (stepped : first.step solver step = (.ok entry, after)) :
    entry.step = step ∧ ∃ other, second.step solver step = (.ok entry, other) ∧
      SameProofs solver after other := by
  cases step with
  | call who call =>
      change call.isIntake = false at proof
      obtain ⟨reply, state, seat, answered, rfl, rfl⟩ := step_call_ok stepped
      have before := same.members who
      have twins : Seat.Twins (first.member who).participant (second.member who).participant
          (first.seat who) (second.seat who) :=
        ⟨⟨rfl, rfl⟩, ⟨rfl, rfl⟩, before.tracer, before.next, same.store, rfl, rfl⟩
      have agree := twins.answer before.settings (solver who).recorded
        (before.state.recorded #[] #[]) proof
      rw [answered] at agree
      rcases again : (second.seat who).answer (solver who).recorded
        ((second.member who).state.recorded #[]) call with ⟨outcome, other, served⟩
      rw [again] at agree
      obtain ⟨rfl, rfl, rfl, later⟩ := agree
      have stepped := step_call_of_answer again
      refine ⟨rfl, _, stepped, ?_, later.channel.store⟩
      apply members_reseat same.members
      have settings := later.settings.1.trans (before.settings.trans later.settings.2.symm)
      exact ⟨settings, later.tracer, later.channel.next, before.state⟩
  | turn who hook =>
      cases stepped
      refine ⟨rfl, _, rfl, ?_, same.store⟩
      have before := same.members who
      apply members_reseat same.members
      exact ⟨before.settings, before.tracer, before.next, respects _ _ before.state⟩
  | outside deed =>
      cases stepped
      exact ⟨rfl, _, rfl, same.members, same.store.undergo deed⟩

end SameProofs

namespace SameIntake

variable {solver : (who : ι) → Solver (σ who)} {settings : ι → Settings}
  {transcript : List (Entry σ)} {accounts : ι → Chronicle Ledger} {first second after : Group σ}
  {who : ι}

theorem skip (same : SameIntake who first second)
    (tracked : Tracked settings transcript accounts first) {step : Step σ}
    (unconcerned : step.concernsIntake who = false) {entry : Entry σ}
    (stepped : first.step solver step = (.ok entry, after)) :
    entry.step = step ∧ SameIntake who after second := by
  cases step with
  | call caller call =>
      obtain ⟨reply, state, seat, answered, rfl, rfl⟩ := step_call_ok stepped
      have following := Seat.answer_follows (tracked.keeps caller) (solver caller).recorded
        ((first.member caller).state.recorded #[]) call
      rw [answered] at following
      obtain ⟨next, _, advances⟩ := following
      obtain ⟨records, _, received⟩ := advances.receives
      have store := same.inbox.channel.store.receives received
      refine ⟨rfl, ?_⟩
      by_cases self : caller = who
      · subst self
        have proof : call.isIntake = false := by
          simpa [Step.concernsIntake] using unconcerned
        have agree := (Seat.Twins.refl (first.seat caller)).answer rfl (solver caller).recorded
          (.refl ((first.member caller).state.recorded #[])) proof
        rw [answered] at agree
        obtain ⟨_, rfl, _, later⟩ := agree
        have aside := later.channel.left
        constructor
        · rw [member_reseat_self]
          exact same.state
        · rw [seat_reseat_self]
          exact ⟨later.intake.1.trans same.inbox.intake,
            (congrArg Session.nextIncoming aside).trans same.inbox.channel.next,
            (congrArg Session.throttle aside).trans same.inbox.channel.throttle, store⟩
      · have member := first.member_reseat_of_ne (Ne.symm self) state.unrecorded seat
        exact same.elsewhere member rfl store
  | turn other hook => cases unconcerned
  | outside deed => cases unconcerned

theorem follow (same : SameIntake who first second) {step : Step σ}
    (concerned : step.concernsIntake who = true)
    (unlimited : ∀ deed ∈ step.deeds, deed.SetsNoLimit) {entry : Entry σ}
    (stepped : first.step solver step = (.ok entry, after)) :
    entry.step = step ∧ ∃ other, second.step solver step = (.ok entry, other) ∧
      SameIntake who after other := by
  cases step with
  | call caller call =>
      obtain ⟨rfl, intake⟩ : caller = who ∧ call.isIntake = true := by
        simpa [Step.concernsIntake] using concerned
      obtain ⟨reply, state, seat, answered, rfl, rfl⟩ := step_call_ok stepped
      have agree := same.inbox.answer (solver caller).recorded
        ((first.member caller).state.recorded #[]) intake
      rcases again : (second.seat caller).answer (solver caller).recorded
        ((second.member caller).state.recorded #[]) call with ⟨outcome, other, served⟩
      rw [answered, same.state, again] at agree
      obtain ⟨rfl, rfl, later⟩ := agree
      refine ⟨rfl, _, step_call_of_answer again, ?_, ?_⟩
      · rw [member_reseat_self, member_reseat_self]
      · rw [seat_reseat_self, seat_reseat_self]
        exact later
  | turn other hook =>
      cases stepped
      refine ⟨rfl, _, rfl, ?_⟩
      by_cases self : other = who
      · subst self
        constructor
        · rw [member_reseat_self, member_reseat_self, same.state]
        · rw [seat_reseat_self, seat_reseat_self]
          exact same.inbox
      · exact same.elsewhere (first.member_reseat_of_ne (Ne.symm self) _ _)
          (second.member_reseat_of_ne (Ne.symm self) _ _) same.inbox.channel.store
  | outside deed =>
      cases stepped
      have undergone := same.inbox.channel.store.undergo
        (unlimited deed (List.mem_singleton_self deed))
      exact ⟨rfl, _, rfl, same.elsewhere rfl rfl undergone⟩

end SameIntake

section

variable {solver : (who : ι) → Solver (σ who)} {group after : Group σ} {steps : List (Step σ)}
  {transcript : List (Entry σ)}

theorem run_without_intake (quiet : ∀ who, (solver who).Quiet)
    (respects : ∀ step ∈ steps, step.Respects solver)
    (ran : group.run solver steps = (.ok transcript, after)) :
    ∃ other, group.run solver (steps.filter fun step => !step.isIntake) =
        (.ok (transcript.filter fun entry => !entry.step.isIntake), other) ∧
      SameProofs solver after other := by
  refine runAll_filter ?_ ?_ (SameProofs.refl solver group) ran
  · intro step _ left first second after entry same stepped
    have intake : step.isIntake = true := by simpa using left
    obtain ⟨rfl, later⟩ := same.skip quiet intake stepped
    exact ⟨left, later⟩
  · intro step member stays first second after entry same stepped
    have proof : step.isIntake = false := by simpa using stays
    obtain ⟨rfl, later⟩ := same.follow proof (respects step member) stepped
    exact ⟨stays, later⟩

theorem Tracked.goes_on {settings : ι → Settings} {accounts : ι → Chronicle Ledger}
    (tracked : Tracked settings transcript accounts group) {step : Step σ} {entry : Entry σ}
    (stepped : group.step solver step = (.ok entry, after)) :
    ∃ next, Tracked settings (transcript ++ [entry]) next after := by
  have stepping := step_carries tracked solver step
  rw [stepped] at stepping
  obtain ⟨next, _, carries⟩ := stepping
  exact ⟨next, carries.tracked⟩

/-- The intake of one member goes the same way without the other calls. -/
theorem run_of_intake (who : ι) {settings : ι → Settings} {accounts : ι → Chronicle Ledger}
    (tracked : Tracked settings [] accounts group) (unlimited : group.store.allowance = none)
    (limits : ∀ deed ∈ steps.flatMap Step.deeds, deed.SetsNoLimit)
    (ran : group.run solver steps = (.ok transcript, after)) :
    ∃ other, group.run solver (steps.filter (Step.concernsIntake who)) =
        (.ok (transcript.filter fun entry => entry.step.concernsIntake who), other) ∧
      SameIntake who after other := by
  let related (first second : Group σ) : Prop :=
    (∃ earlier accounts, Tracked settings earlier accounts first) ∧ SameIntake who first second
  have start : related group group := ⟨⟨_, _, tracked⟩, .refl who unlimited⟩
  suffices without : ∃ other, group.run solver (steps.filter (Step.concernsIntake who)) =
      (.ok (transcript.filter fun entry => entry.step.concernsIntake who), other) ∧
        related after other by
    obtain ⟨other, without, _, same⟩ := without
    exact ⟨other, without, same⟩
  refine runAll_filter ?_ ?_ start ran
  · rintro step _ left first second after entry ⟨⟨_, _, known⟩, same⟩ stepped
    obtain ⟨rfl, later⟩ := same.skip known left stepped
    exact ⟨left, ⟨_, known.goes_on stepped⟩, later⟩
  · rintro step member stays first second after entry ⟨⟨_, _, known⟩, same⟩ stepped
    have deeds : ∀ deed ∈ step.deeds, deed.SetsNoLimit := fun deed here =>
      limits deed (List.mem_flatMap_of_mem member here)
    obtain ⟨rfl, twin, likewise, later⟩ := same.follow stays deeds stepped
    exact ⟨stays, twin, likewise, ⟨_, known.goes_on stepped⟩, later⟩

end

/-- What becomes of a run when the calls of one side are left out. -/
structure Separates (solver : (who : ι) → Solver (σ who)) (start : Group σ) (steps : List (Step σ))
    (transcript : List (Entry σ)) (after : Group σ) : Prop where
  /-- Without the calls of all intakes the proofs go the same way, and the store becomes the same but for
  the connections made. -/
  proofs : ∃ other, start.run solver (steps.filter fun step => !step.isIntake) =
      (.ok (transcript.filter fun entry => !entry.step.isIntake), other) ∧
    SameProofs solver after other
  /-- As long as writes have no limit, an intake goes the same way without any proof and without the
  intakes of the others. -/
  intakes : start.store.allowance = none →
    (∀ deed ∈ steps.flatMap Step.deeds, deed.SetsNoLimit) →
      ∀ who, ∃ other, start.run solver (steps.filter (Step.concernsIntake who)) =
          (.ok (transcript.filter fun entry => entry.step.concernsIntake who), other) ∧
        SameIntake who after other

/-- The proofs and the intakes of a group go their ways separately. -/
theorem run_separates (solver : (who : ι) → Solver (σ who)) (settings : ι → Settings)
    (states : (who : ι) → SolverState (σ who)) (store : Store) (journal : Journal)
    (steps : List (Step σ)) (quiet : ∀ who, (solver who).Quiet)
    (respects : ∀ step ∈ steps, step.Respects solver) :
    Yields (run solver steps (gather settings states store journal))
      (Separates solver (gather settings states store journal) steps) (Exhausts steps.length) := by
  have tracked := tracked_gather settings states store journal
  rcases (run_carries tracked (fun _ => rfl) solver steps).split with
    ⟨fault, after, ran, exhausts⟩ | ⟨transcript, after, ran, _⟩
  · rw [ran]
    exact exhausts
  · rw [ran]
    constructor
    case proofs => exact run_without_intake quiet respects ran
    case intakes =>
      intro unlimited limits who
      exact run_of_intake who tracked unlimited limits ran

/-- Two members at work, beside a peer and with an outage. One has a proof under way while both take in
the record of the peer. Were it reducible, stating something of its run would mean running it. -/
@[irreducible] def interplay : List (Step fun _ : Bool => Recorded Unit) :=
  [.outside (.push (Key.incoming 0) [51]), .call false (.start none), .call false .poll,
    .call false (.perform (.add [1])), .call true .tick, .call true .poll,
    .turn true SolverState.clearStack, .call false .flush, .outside (.reach false),
    .call true .poll, .outside (.reach true), .call false .finish]

theorem plain_quiet : Solver.plain.Quiet :=
  ⟨fun _ _ => .refl _, fun _ _ => .refl _, fun _ _ => .refl _⟩

theorem interplay_respects :
    ∀ step ∈ interplay, step.Respects fun _ => Solver.plain.recorded := by
  simp only [interplay, List.forall_mem_cons, List.not_mem_nil, false_imp_iff, implies_true,
    and_true, Step.Respects, true_and]
  exact fun _ _ alike => ⟨rfl, alike.shows⟩

theorem interplay_setsNoLimit :
    ∀ deed ∈ interplay.flatMap Step.deeds, deed.SetsNoLimit := by
  simp [interplay, Step.deeds, Store.Deed.SetsNoLimit]

theorem run_separates_interplay :
    (∀ _ : Bool, Solver.plain.recorded.Quiet) ∧
      (∀ step ∈ interplay, step.Respects fun _ => Solver.plain.recorded) ∧
        (∀ deed ∈ interplay.flatMap Step.deeds, deed.SetsNoLimit) ∧
          Yields (run (fun _ => Solver.plain.recorded) interplay
              (gather (fun _ => {}) (fun _ => ⟨⟨(), #[]⟩, #[]⟩) {}))
            (Separates (fun _ => Solver.plain.recorded)
              (gather (fun _ => {}) (fun _ => ⟨⟨(), #[]⟩, #[]⟩) {}) interplay)
            (Exhausts interplay.length) :=
  ⟨fun _ => plain_quiet.recorded, interplay_respects, interplay_setsNoLimit,
    run_separates (fun _ => Solver.plain.recorded) (fun _ => {}) (fun _ => ⟨⟨(), #[]⟩, #[]⟩) {} #[]
      interplay (fun _ => plain_quiet.recorded) interplay_respects⟩

end Group

end ClauseExchange
