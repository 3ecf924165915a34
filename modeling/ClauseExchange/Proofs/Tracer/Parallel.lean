import ClauseExchange.Proofs.Channel.Twins
import ClauseExchange.Proofs.Tracer.Plan

/-!
Two tracers in lockstep: they hold the same bytes and the same draft, and take the same steps, while
their channels and their audits are in relations that are kept up by what a tracer does to them. What
the journals say of the solver's own literals is left out of account. The first of the two may be
excused when its audit refuses the empty clause.
-/

namespace ClauseExchange

/-- What a notice says, but for the solver's literals of a line. -/
def Notice.withoutSources : Notice → Notice
  | .lineTraced action literals _ => .lineTraced action literals none
  | notice => notice

namespace Tracing

/-- Relations between channels and between audits that are kept up by whatever a tracer does. -/
structure Lockstep (channels : Channel → Channel → Prop)
    (audits : Option Audit → Option Audit → Prop) (excused : Prop) : Prop where
  note {first second : Channel} (related : channels first second) {one other : Notice}
    (same : one.withoutSources = other.withoutSources) :
    channels (first.note one) (second.note other)
  send {first second : Channel} (related : channels first second) (records : List Bytes) :
    Agree channels (first.send records) (second.send records)
  forget {first second : Option Audit} (related : audits first second) (sources : List UInt32) :
    audits (first.map fun audit => { audit with sources })
      (second.map fun audit => { audit with sources })
  noteDraft (tracer : Tracer) {audit other : Option Audit} (related : audits audit other)
    (action : Action) :
    (∃ noted others, audits noted others ∧
        Tracer.noteDraft action { tracer with audit } =
          .ok (.ok { tracer with audit := noted }) ∧
        Tracer.noteDraft action { tracer with audit := other } =
          .ok (.ok { tracer with audit := others })) ∨
      (Tracer.noteDraft action { tracer with audit } = .ok (.error .emptyClauseAgain) ∧
        (excused ∨
          Tracer.noteDraft action { tracer with audit := other } =
            .ok (.error .emptyClauseAgain)))

/-- One tracer with one audit or the other, over channels in relation. -/
inductive Parallel (channels : Channel → Channel → Prop)
    (audits : Option Audit → Option Audit → Prop) : Tracing → Tracing → Prop where
  | pair (tracer : Tracer) {audit other : Option Audit} {first second : Channel}
      (related : audits audit other) (linked : channels first second) :
      Parallel channels audits ⟨{ tracer with audit }, first⟩
        ⟨{ tracer with audit := other }, second⟩

theorem parallel_eq_iff {channels : Channel → Channel → Prop} {first second : Tracing} :
    Parallel channels Eq first second ↔
      first.tracer = second.tracer ∧ channels first.channel second.channel := by
  constructor
  · intro parallel
    cases parallel with
    | pair tracer related linked => exact ⟨by rw [related], linked⟩
  · intro same
    obtain ⟨tracer, one⟩ := first
    obtain ⟨_, other⟩ := second
    obtain ⟨rfl, linked⟩ := same
    exact .pair tracer (Eq.refl tracer.audit) linked

/-- Two operations agree, save where the first one is refused and excused. -/
def Concur (excused : Prop) (related : Tracing → Tracing → Prop)
    (first second : Except Fault (Except TraceError Unit) × Tracing) : Prop :=
  Agree related first second ∨ (excused ∧ first.1 = .ok (.error .emptyClauseAgain))

/-- One tracer over two channels is in lockstep with itself, if the channels are. -/
theorem Lockstep.ofChannels {channels : Channel → Channel → Prop}
    (note : ∀ {first second : Channel}, channels first second → ∀ {one other : Notice},
      one.withoutSources = other.withoutSources → channels (first.note one) (second.note other))
    (send : ∀ {first second : Channel}, channels first second → ∀ records,
      Agree channels (first.send records) (second.send records)) :
    Lockstep channels Eq False where
  note := note
  send := send
  forget same sources := by rw [same]
  noteDraft tracer audit other same action := by
    subst same
    rcases noteDraft_passes { tracer with audit } action with refused | ⟨noted, passed⟩
    · exact Or.inr ⟨refused, Or.inr refused⟩
    · exact Or.inl ⟨noted, noted, rfl, passed, passed⟩

namespace Lockstep

variable {σ : Type} {channels : Channel → Channel → Prop}
  {audits : Option Audit → Option Audit → Prop} {excused : Prop} {first second : Tracing}

theorem noteBoth (lockstep : Lockstep channels audits excused)
    (parallel : Parallel channels audits first second)
    {one other : Notice} (same : one.withoutSources = other.withoutSources) :
    Parallel channels audits (first.note one) (second.note other) := by
  cases parallel with
  | pair tracer related linked => exact .pair tracer related (lockstep.note linked same)

theorem settle (lockstep : Lockstep channels audits excused)
    (parallel : Parallel channels audits first second) (delivery : Delivery) :
    Parallel channels audits (first.settle delivery) (second.settle delivery) := by
  cases parallel with
  | pair tracer related linked =>
      let settled : Tracer :=
        { tracer with
          spool := tracer.spool.dropRecords tracer.encoding.separator
          tally := tracer.tally.countDelivery delivery }
      have aside := Parallel.pair settled related linked
      unfold Tracing.settle
      dsimp only
      split
      · exact lockstep.noteBoth (lockstep.noteBoth aside rfl) rfl
      · exact lockstep.noteBoth aside rfl

theorem flush (lockstep : Lockstep channels audits excused)
    (parallel : Parallel channels audits first second) :
    Agree (Parallel channels audits) first.flush second.flush := by
  cases parallel with
  | pair tracer related linked =>
      unfold Tracing.flush
      dsimp only
      split
      · exact ⟨rfl, .pair tracer related linked⟩
      · rcases (lockstep.send linked (tracer.spool.records tracer.encoding.separator)).split with
          ⟨fault, _, _, one, other, sent⟩ | ⟨written, _, _, one, other, sent⟩
        · rw [one, other]
          exact ⟨rfl, .pair tracer related sent⟩
        · rw [one, other]
          exact ⟨rfl, lockstep.settle (.pair tracer related sent) _⟩

theorem widen (lockstep : Lockstep channels audits excused)
    (parallel : Parallel channels audits first second) :
    Parallel channels audits first.widen second.widen := by
  cases parallel with
  | pair tracer related linked =>
      unfold Tracing.widen
      dsimp only
      split
      · exact .pair { tracer with spool := tracer.spool.double } related (lockstep.note linked rfl)
      · exact .pair tracer related linked

theorem makeRoom (lockstep : Lockstep channels audits excused)
    (parallel : Parallel channels audits first second) :
    Agree (Parallel channels audits) first.makeRoom second.makeRoom := by
  have flushing := lockstep.flush parallel
  cases parallel with
  | pair tracer related linked =>
      unfold Tracing.makeRoom
      dsimp only
      split
      · rcases flushing.split with
          ⟨fault, _, _, one, other, flushed⟩ | ⟨delivery, _, _, one, other, flushed⟩
        · rw [one, other]
          exact ⟨rfl, flushed⟩
        · rw [one, other]
          exact ⟨rfl, lockstep.widen flushed⟩
      · exact ⟨rfl, .pair tracer related linked⟩

theorem put (lockstep : Lockstep channels audits excused)
    (parallel : Parallel channels audits first second) (byte : UInt8) :
    Agree (Parallel channels audits) (first.put byte) (second.put byte) := by
  unfold Tracing.put
  rcases (lockstep.makeRoom parallel).split with
    ⟨fault, _, _, one, other, roomy⟩ | ⟨⟨⟩, _, _, one, other, roomy⟩
  · rw [one, other]
    exact ⟨rfl, roomy⟩
  · rw [one, other]
    cases roomy with
    | pair tracer related linked =>
        dsimp only
        cases tracer.spool.push? byte with
        | none => exact ⟨rfl, .pair tracer related linked⟩
        | some spool => exact ⟨rfl, .pair { tracer with spool } related linked⟩

theorem putAll (lockstep : Lockstep channels audits excused)
    (parallel : Parallel channels audits first second) (bytes : Bytes) :
    Agree (Parallel channels audits) (first.putAll bytes) (second.putAll bytes) := by
  induction bytes generalizing first second with
  | nil => exact ⟨rfl, parallel⟩
  | cons byte bytes induction =>
      unfold Tracing.putAll
      rcases (lockstep.put parallel byte).split with
        ⟨fault, _, _, one, other, written⟩ | ⟨⟨⟩, _, _, one, other, written⟩
      · rw [one, other]
        exact ⟨rfl, written⟩
      · rw [one, other]
        exact induction written

theorem clearDraft (lockstep : Lockstep channels audits excused)
    (parallel : Parallel channels audits first second) :
    Parallel channels audits first.clearDraft second.clearDraft := by
  cases parallel with
  | pair tracer related linked =>
      exact .pair { tracer with draft := [] } (lockstep.forget related []) linked

theorem closeLine (lockstep : Lockstep channels audits excused)
    (parallel : Parallel channels audits first second) (line : Line) :
    Parallel channels audits (first.closeLine line) (second.closeLine line) := by
  cases parallel with
  | pair tracer related linked =>
      exact lockstep.clearDraft
        (.pair { tracer with tally := tracer.tally.countLine line } related linked)

theorem flushIfDue (lockstep : Lockstep channels audits excused)
    (parallel : Parallel channels audits first second) :
    Agree (Parallel channels audits) first.flushIfDue second.flushIfDue := by
  have flushing := lockstep.flush parallel
  cases parallel with
  | pair tracer related linked =>
      unfold Tracing.flushIfDue
      dsimp only
      split
      · rcases flushing.split with
          ⟨fault, _, _, one, other, flushed⟩ | ⟨delivery, _, _, one, other, flushed⟩
        · rw [one, other]
          exact ⟨rfl, flushed⟩
        · rw [one, other]
          exact ⟨rfl, flushed⟩
      · exact ⟨rfl, .pair tracer related linked⟩

theorem writeDraft (lockstep : Lockstep channels audits excused)
    (parallel : Parallel channels audits first second) (action : Action) :
    Agree (Parallel channels audits) (first.writeDraft action) (second.writeDraft action) := by
  cases parallel with
  | @pair tracer audit other _ _ related linked =>
      let line : Line := ⟨action, tracer.draft⟩
      have sources : ∀ one other, (Notice.lineTraced action line.literals one).withoutSources =
          (Notice.lineTraced action line.literals other).withoutSources := fun _ _ => rfl
      have traced := lockstep.noteBoth (.pair tracer related linked)
        (sources (Tracer.draftSources? { tracer with audit })
          (Tracer.draftSources? { tracer with audit := other }))
      unfold Tracing.writeDraft
      dsimp only
      rcases (lockstep.putAll traced (line.encode tracer.encoding)).split with
        ⟨fault, _, _, one, other, written⟩ | ⟨⟨⟩, _, _, one, other, written⟩
      · rw [one, other]
        exact ⟨rfl, written⟩
      · rw [one, other]
        exact lockstep.flushIfDue (lockstep.closeLine written line)

theorem emit (lockstep : Lockstep channels audits excused)
    (parallel : Parallel channels audits first second) (action : Action) :
    Concur excused (Parallel channels audits) (first.emit action) (second.emit action) := by
  cases parallel with
  | pair tracer related linked =>
      unfold Tracing.emit
      dsimp only
      rcases lockstep.noteDraft tracer related action with
        ⟨noted, others, relatedStill, one, other⟩ | ⟨one, pardon | other⟩
      · rw [one, other]
        dsimp only
        rcases (lockstep.writeDraft (.pair tracer relatedStill linked) action).split with
          ⟨fault, _, _, one, other, written⟩ | ⟨⟨⟩, _, _, one, other, written⟩
        · rw [one, other]
          exact Or.inl ⟨rfl, written⟩
        · rw [one, other]
          exact Or.inl ⟨rfl, written⟩
      · rw [one]
        exact Or.inr ⟨pardon, rfl⟩
      · rw [one, other]
        exact Or.inl ⟨rfl, lockstep.clearDraft (.pair tracer related linked)⟩

theorem emitClause (lockstep : Lockstep channels audits excused)
    (parallel : Parallel channels audits first second) (action : Action)
    (exported : Except Int32 (List Literal)) (sources : List UInt32) :
    Concur excused (Parallel channels audits) (first.emitClause action exported sources)
      (second.emitClause action exported sources) := by
  cases parallel with
  | pair tracer related linked =>
      unfold Tracing.emitClause
      dsimp only
      split
      · cases exported with
        | error word =>
            exact Or.inl ⟨rfl, lockstep.clearDraft (.pair tracer related linked)⟩
        | ok literals =>
            exact lockstep.emit
              (.pair { tracer with draft := literals } (lockstep.forget related sources) linked)
              action
      · exact Or.inl ⟨rfl, .pair tracer related linked⟩

theorem emitShrunk (lockstep : Lockstep channels audits excused)
    (parallel : Parallel channels audits first second) (solver : Solver σ)
    (state : SolverState σ) (clause : List UInt32) (remove keep : UInt32) :
    Concur excused (Parallel channels audits)
      (first.emitShrunk solver state clause remove keep)
      (second.emitShrunk solver state clause remove keep) := by
  let retained := clause.filter (solver.retains state remove keep)
  have adding := lockstep.emitClause parallel .add (solver.exportClause? state retained) retained
  cases parallel with
  | pair tracer related linked =>
      unfold Tracing.emitShrunk
      dsimp only
      split
      · exact Or.inl ⟨rfl, .pair tracer related linked⟩
      · split
        · rcases adding with agree | ⟨pardon, refused⟩
          · rcases agree.split with
              ⟨fault, _, _, one, other, added⟩ | ⟨_ | ⟨⟨⟩⟩, _, _, one, other, added⟩
            · rw [one, other]
              exact Or.inl ⟨rfl, added⟩
            · rw [one, other]
              exact Or.inl ⟨rfl, added⟩
            · rw [one, other]
              exact lockstep.emitClause added .delete _ _
          · refine Or.inr ⟨pardon, ?_⟩
            generalize Tracing.emitClause .add _ _ _ = outcome at refused ⊢
            obtain ⟨_, added⟩ := outcome
            cases refused
            rfl
        · exact Or.inl ⟨rfl, .pair tracer related linked⟩

theorem perform (lockstep : Lockstep channels audits excused)
    (parallel : Parallel channels audits first second) (solver : Solver σ)
    (state : SolverState σ) (request : Request) :
    Concur excused (Parallel channels audits) (first.perform solver state request)
      (second.perform solver state request) := by
  cases request with
  | add clause => exact lockstep.emitClause parallel .add _ clause
  | delete clause => exact lockstep.emitClause parallel .delete _ clause
  | deleteExported words =>
      exact lockstep.emitClause (lockstep.noteBoth parallel rfl) .delete _ []
  | shrink clause remove keep => exact lockstep.emitShrunk parallel solver state clause remove keep

theorem perform_agrees (lockstep : Lockstep channels audits False)
    (parallel : Parallel channels audits first second) (solver : Solver σ)
    (state : SolverState σ) (request : Request) :
    Agree (Parallel channels audits) (first.perform solver state request)
      (second.perform solver state request) :=
  (lockstep.perform parallel solver state request).resolve_right And.left

theorem finish (lockstep : Lockstep channels audits excused)
    (parallel : Parallel channels audits first second) :
    Agree (Parallel channels audits) first.finish second.finish := by
  unfold Tracing.finish
  rcases (lockstep.flush (lockstep.noteBoth parallel rfl)).split with
    ⟨fault, _, _, one, other, flushed⟩ | ⟨delivery, _, _, one, other, flushed⟩
  · rw [one, other]
    exact ⟨rfl, flushed⟩
  · rw [one, other]
    cases flushed with
    | pair tracer related linked =>
        dsimp only
        split
        · exact ⟨rfl, lockstep.noteBoth (.pair tracer related linked) rfl⟩
        · exact ⟨rfl, .pair tracer related linked⟩

end Lockstep

end Tracing

end ClauseExchange
