import ClauseExchange.Proofs.Tracer.Parallel

/-!
A tracer does the same over two channels that are twins, whatever else their sessions are about.
-/

namespace ClauseExchange.Tracing

/-- One tracer over two channels. -/
inductive Twins (left right : Session) : Tracing → Tracing → Prop where
  | pair (tracer : Tracer) {first second : Channel}
      (twins : Channel.Twins left right first second) :
      Twins left right ⟨tracer, first⟩ ⟨tracer, second⟩

namespace Twins

variable {σ : Type} {left right : Session} {first second : Tracing}

theorem eq_parallel (left right : Session) :
    Twins left right = Parallel (Channel.Twins left right) Eq := by
  ext first second
  rw [parallel_eq_iff]
  constructor
  · intro twins
    cases twins with
    | pair tracer linked => exact ⟨rfl, linked⟩
  · intro same
    obtain ⟨tracer, one⟩ := first
    obtain ⟨_, other⟩ := second
    obtain ⟨rfl, linked⟩ := same
    exact .pair tracer linked

theorem lockstep (left right : Session) : Lockstep (Channel.Twins left right) Eq False :=
  .ofChannels (fun twins _ _ _ => twins.note _ _) (fun twins records => twins.send records)

theorem flush (twins : Twins left right first second) :
    Agree (Twins left right) first.flush second.flush := by
  rw [eq_parallel] at twins ⊢
  exact (lockstep left right).flush twins

theorem perform (twins : Twins left right first second) (solver : Solver σ)
    (state : SolverState σ) (request : Request) :
    Agree (Twins left right) (first.perform solver state request)
      (second.perform solver state request) := by
  rw [eq_parallel] at twins ⊢
  exact (lockstep left right).perform_agrees twins solver state request

theorem finish (twins : Twins left right first second) :
    Agree (Twins left right) first.finish second.finish := by
  rw [eq_parallel] at twins ⊢
  exact (lockstep left right).finish twins

end Twins

end ClauseExchange.Tracing
