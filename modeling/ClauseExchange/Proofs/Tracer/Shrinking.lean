import ClauseExchange.Proofs.Solver.Exporting
import ClauseExchange.Proofs.Tracer.Run
import ClauseExchange.Proofs.Solver.KeepsStack

/-!
Shrinking a clause: an addition of the literals that stay, and a deletion of the clause as a whole. The
two lines are checked one after the other, so that a literal which has no exported form and does not
stay comes to light only when the addition has been made.
-/

namespace ClauseExchange

variable {σ : Type}

namespace Solver

/-- The literals of a clause that stay when `remove` is taken out. -/
def staying (solver : Solver σ) (state : SolverState σ) (remove keep : UInt32)
    (clause : List UInt32) : List UInt32 :=
  clause.filter fun literal =>
    literal ≠ remove ∧
      (literal = keep ∨ 0 ≤ solver.value state literal ∨ 0 < solver.level state literal)

theorem filter_retains_eq (solver : Solver σ) (state : SolverState σ) (remove keep : UInt32)
    (clause : List UInt32) :
    clause.filter (solver.retains state remove keep) =
      solver.staying state remove keep clause := by
  unfold staying
  congr 1
  funext literal
  rw [Bool.eq_iff_iff]
  simp [retains, or_assoc]

theorem staying_subset (solver : Solver σ) (state : SolverState σ) (remove keep : UInt32)
    (clause : List UInt32) : ∀ literal ∈ solver.staying state remove keep clause, literal ∈ clause :=
  fun _ member => (List.mem_filter.mp member).1

end Solver

namespace Tracing

/-- A clause is not shrunk if the literal to remove is not in it, if a literal that stays is not
exported, or if none stays where the empty clause is barred. -/
def RefusesShrink (solver : Solver σ) (state : SolverState σ) (barred : Prop)
    (clause : List UInt32) (remove keep : UInt32) : Prop :=
  remove ∉ clause ∨
    (∃ literal ∈ solver.staying state remove keep clause, ¬solver.Exports state literal) ∨
    (barred ∧ solver.staying state remove keep clause = [])

/-- The addition of the literals that stay. -/
def AddsStaying (solver : Solver σ) (state : SolverState σ) (clause : List UInt32)
    (remove keep : UInt32) (kept : List Literal) : Prop :=
  kept.map Literal.word =
    (solver.staying state remove keep clause).map (solver.exportLiteral state)

variable {emitted : List Line} {tracing : Tracing} {solver : Solver σ} {state : SolverState σ}
  {clause : List UInt32} {remove keep : UInt32}

theorem perform_shrink_of_refused (rests : Rests emitted tracing)
    (refused : RefusesShrink solver state
      (tracing.tracer.audit.isSome = true ∧ Line.addEmpty ∈ emitted) clause remove keep) :
    ∃ error, tracing.perform solver state (.shrink clause remove keep) =
      (.ok (.error error), tracing) := by
  unfold perform emitShrunk
  dsimp only
  rw [rests.draft, List.isEmpty_nil, Bool.not_true, if_neg Bool.false_ne_true, solver.filter_retains_eq]
  split
  case isFalse absent => exact ⟨_, rfl⟩
  case isTrue present =>
    have planned : ∃ error, Plan.lineOf
        (Plan.barsEmpty tracing.tracer.audit.isSome emitted) .add
        (solver.exportClause? state (solver.staying state remove keep clause)) =
          .error error := by
      rcases solver.exportClause?_cases state (solver.staying state remove keep clause) with
        ⟨all, kept, outcome, words⟩ | ⟨literal, member, fails, outcome⟩
      · rcases refused with absent | ⟨literal, member, fails⟩ | ⟨barred, none⟩
        · exact absurd (List.contains_iff_mem.mp present) absent
        · exact absurd (all literal member) fails
        · rw [none] at words
          cases List.map_eq_nil_iff.mp words
          refine ⟨.emptyClauseAgain, ?_⟩
          rw [outcome, Plan.lineOf_add, Plan.barsEmpty, barred.1,
            List.contains_iff_mem.mpr barred.2]
          rfl
      · rw [outcome]
        exact ⟨_, rfl⟩
    obtain ⟨error, planned⟩ := planned
    rw [rests.emitClause_of_error planned]
    exact ⟨error, rfl⟩

/-- A clause that is not refused is shrunk, unless one of its literals that do not stay is not
exported. Then the addition is left behind. -/
theorem perform_shrink_of_not_refused (rests : Rests emitted tracing)
    (passed : ¬RefusesShrink solver state
      (tracing.tracer.audit.isSome = true ∧ Line.addEmpty ∈ emitted) clause remove keep) :
    Yields (tracing.perform solver state (.shrink clause remove keep))
      (fun answer after => ∃ kept, AddsStaying solver state clause remove keep kept ∧
        ((answer = .ok () ∧ (∀ literal ∈ clause, solver.Exports state literal) ∧
            ∃ whole, whole.map Literal.word = clause.map (solver.exportLiteral state) ∧
              Emits [⟨.add, kept⟩, ⟨.delete, whole⟩] tracing after) ∨
          ((∃ literal ∈ clause, ¬solver.Exports state literal ∧
            answer = .error (.invalidLiteral (solver.exportLiteral state literal))) ∧
              Emits [⟨.add, kept⟩] tracing after)))
      (fun fault after => after.channel.OutOfNumbers fault) := by
  unfold RefusesShrink at passed
  rw [not_or, not_or, not_not] at passed
  obtain ⟨present, exports, fresh⟩ := passed
  have performing := perform_executes rests.ready solver state (.shrink clause remove keep)
  unfold Request.plan at performing
  dsimp only at performing
  rw [if_pos (List.contains_iff_mem.mpr present), solver.filter_retains_eq] at performing
  rcases solver.exportClause?_cases state (solver.staying state remove keep clause) with
    ⟨_, kept, outcome, words⟩ | ⟨literal, member, fails, _⟩
  case inr => exact absurd ⟨literal, member, fails⟩ exports
  have added : Plan.lineOf (Plan.barsEmpty tracing.tracer.audit.isSome emitted) .add (.ok kept) =
      .ok ⟨.add, kept⟩ := by
    rw [Plan.lineOf_add]
    refine if_neg ?_
    intro barred
    simp only [Plan.barsEmpty, Bool.and_eq_true, List.isEmpty_iff, List.contains_iff_mem] at barred
    obtain ⟨watched, rfl⟩ := barred
    exact fresh ⟨watched, List.map_eq_nil_iff.mp words.symm⟩
  rw [outcome, added] at performing
  rcases solver.exportClause?_cases state clause with
    ⟨all, whole, outcomes, wholeWords⟩ | ⟨literal, member, fails, outcomes⟩
  · rw [outcomes, Plan.lineOf_delete] at performing
    refine performing.imp ?_ (fun _ _ halts => halts.outOfNumbers)
    rintro answer after ⟨told, emits, _⟩
    exact ⟨kept, words, Or.inl ⟨told, all, whole, wholeWords, emits⟩⟩
  · rw [outcomes] at performing
    refine performing.imp ?_ (fun _ _ halts => halts.outOfNumbers)
    rintro answer after ⟨told, emits, _⟩
    exact ⟨kept, words, Or.inr ⟨⟨literal, member, fails, told⟩, emits⟩⟩

/-- A clause was shrunk: the literals that stay were added, and right after that the clause as a whole
was deleted. -/
structure Shrinks (solver : Solver σ) (state : SolverState σ) (clause : List UInt32)
    (remove keep : UInt32) (before after : Tracing) : Prop where
  emits : ∃ kept whole, AddsStaying solver state clause remove keep kept ∧
    whole.map Literal.word = clause.map (solver.exportLiteral state) ∧
    Emits [⟨.add, kept⟩, ⟨.delete, whole⟩] before after
  added : after.tracer.tally.added = before.tracer.tally.added + 1
  deleted : after.tracer.tally.deleted = before.tracer.tally.deleted + 1
  lines : after.tracer.tally.lines = before.tracer.tally.lines + 2
  literals : after.tracer.tally.literals = before.tracer.tally.literals +
    ((solver.staying state remove keep clause).length + clause.length)

theorem shrinks_of_emits {before after : Tracing} {kept whole : List Literal}
    (staying : AddsStaying solver state clause remove keep kept)
    (words : whole.map Literal.word = clause.map (solver.exportLiteral state))
    (emits : Emits [⟨.add, kept⟩, ⟨.delete, whole⟩] before after) :
    Shrinks solver state clause remove keep before after where
  emits := ⟨kept, whole, staying, words, emits⟩
  added := emits.added
  deleted := emits.deleted
  lines := emits.lines
  literals := by
    have keptLength := congrArg List.length staying
    have wholeLength := congrArg List.length words
    rw [List.length_map, List.length_map] at keptLength wholeLength
    rw [emits.literals, ← keptLength, ← wholeLength]
    simp

variable (solver state clause remove keep) (encoding : Encoding) (settings : Settings)
  (capacity : Nat) (channel link : Channel) (steps : List (Step σ))

/-- After any run and over any channel, a clause is shrunk just when the literal to remove is in it, all
of it is exported, and the addition is not one of the empty clause where that is barred. -/
theorem shrink_emits_two_lines :
    Yields (run solver steps ⟨Tracer.start encoding settings capacity, channel⟩)
      (fun _ middle =>
        Yields (perform solver state (.shrink clause remove keep) ⟨middle.tracer, link⟩)
          (fun answer after =>
            (answer = .ok () ↔
              remove ∈ clause ∧ (∀ literal ∈ clause, solver.Exports state literal) ∧
                ¬((settings.audit = true ∧
                    Line.addEmpty ∈ Step.emitted solver settings.audit steps) ∧
                  solver.staying state remove keep clause = [])) ∧
            (answer = .ok () →
              Shrinks solver state clause remove keep ⟨middle.tracer, link⟩ after))
          (fun fault after => after.channel.OutOfNumbers fault))
      (fun fault middle => middle.channel.OutOfNumbers fault) := by
  refine (run_start_rests encoding settings capacity channel solver steps).imp ?_
    (fun _ _ outOfNumbers => outOfNumbers)
  rintro _ middle ⟨audited, restsMiddle⟩
  rw [← audited] at restsMiddle ⊢
  have rests := restsMiddle.over link
  by_cases refused : RefusesShrink solver state
      (middle.tracer.audit.isSome = true ∧
        Line.addEmpty ∈ Step.emitted solver middle.tracer.audit.isSome steps)
      clause remove keep
  · obtain ⟨error, outcome⟩ := perform_shrink_of_refused rests refused
    rw [outcome]
    refine ⟨iff_of_false nofun ?_, nofun⟩
    rintro ⟨present, all, fresh⟩
    rcases refused with absent | ⟨literal, member, fails⟩ | barred
    · exact absent present
    · exact fails (all literal (solver.staying_subset state remove keep clause literal member))
    · exact fresh barred
  · refine (perform_shrink_of_not_refused rests refused).imp ?_
      (fun _ _ outOfNumbers => outOfNumbers)
    unfold RefusesShrink at refused
    rw [not_or, not_or, not_not] at refused
    obtain ⟨present, _, fresh⟩ := refused
    rintro answer after ⟨kept, staying, ⟨rfl, all, whole, words, emits⟩ |
      ⟨⟨literal, member, fails, rfl⟩, _⟩⟩
    · exact ⟨iff_of_true rfl ⟨present, all, fresh⟩, fun _ => shrinks_of_emits staying words emits⟩
    · refine ⟨iff_of_false nofun ?_, nofun⟩
      rintro ⟨_, all, _⟩
      exact fails (all literal member)

/-- Where a clause is not shrunk, nothing was done just when it was refused before the addition. Else
one of its literals is not exported, and the addition of those that stay is left behind. -/
theorem shrink_all_or_addition :
    Yields (run solver steps ⟨Tracer.start encoding settings capacity, channel⟩)
      (fun _ middle =>
        Yields (perform solver state (.shrink clause remove keep) ⟨middle.tracer, link⟩)
          (fun answer after => ∀ error, answer = .error error →
            (after = ⟨middle.tracer, link⟩ ↔ RefusesShrink solver state
              (settings.audit = true ∧ Line.addEmpty ∈ Step.emitted solver settings.audit steps)
              clause remove keep) ∧
            (after ≠ ⟨middle.tracer, link⟩ →
              (∃ literal ∈ clause, ¬solver.Exports state literal ∧
                error = .invalidLiteral (solver.exportLiteral state literal)) ∧
              ∃ kept, AddsStaying solver state clause remove keep kept ∧
                Emits [⟨.add, kept⟩] ⟨middle.tracer, link⟩ after))
          (fun fault after => after.channel.OutOfNumbers fault))
      (fun fault middle => middle.channel.OutOfNumbers fault) := by
  refine (run_start_rests encoding settings capacity channel solver steps).imp ?_
    (fun _ _ outOfNumbers => outOfNumbers)
  rintro _ middle ⟨audited, restsMiddle⟩
  rw [← audited] at restsMiddle ⊢
  have rests := restsMiddle.over link
  by_cases refused : RefusesShrink solver state
      (middle.tracer.audit.isSome = true ∧
        Line.addEmpty ∈ Step.emitted solver middle.tracer.audit.isSome steps)
      clause remove keep
  · obtain ⟨error, outcome⟩ := perform_shrink_of_refused rests refused
    rw [outcome]
    exact fun _ _ => ⟨iff_of_true rfl refused, fun changed => absurd rfl changed⟩
  · refine (perform_shrink_of_not_refused rests refused).imp ?_
      (fun _ _ outOfNumbers => outOfNumbers)
    rintro answer after ⟨kept, staying, ⟨rfl, _⟩ | ⟨⟨literal, member, fails, rfl⟩, emits⟩⟩
    · exact nofun
    · rintro error ⟨⟩
      have changed : after ≠ ⟨middle.tracer, link⟩ := by
        rintro rfl
        have added := emits.added
        simp at added
      exact ⟨iff_of_false changed refused,
        fun _ => ⟨⟨literal, member, fails, rfl⟩, kept, staying, emits⟩⟩

/-- A solver in which one literal has no exported form. -/
def withoutForm : Solver Unit :=
  { Solver.plain with exportLiteral := fun _ literal => if literal = 2 then 0 else 1 }

/-- The literal that is taken out is not exported, and the clause without it has been added. -/
theorem withoutForm_shrink_leaves_addition :
    let before : Tracing :=
      ⟨Tracer.start .text {} Tracer.defaultCapacity, ⟨Session.ofSettings {}, {}, #[]⟩⟩
    let outcome := before.perform withoutForm ⟨(), #[]⟩ (.shrink [0, 2] 2 0)
    outcome.1 = .ok (.error (.invalidLiteral 0)) ∧
      before.tracer.spool.contents = [] ∧
      outcome.2.tracer.spool.contents = [97, 32, 49, 32, 48, 10] ∧
      before.tracer.tally.added = 0 ∧ outcome.2.tracer.tally.added = 1 ∧
      outcome.2.tracer.tally.deleted = 0 := by
  decide +kernel

end Tracing

end ClauseExchange
