import ClauseExchange.Proofs.Intake.Run

/-!
What runs of an intake deliver. Records that are left at one go are handed over whole, once each and in
the order of their numbers, whenever the polls fall. A record that is left element by element is handed
over as it stands at the poll that reads it.
-/

namespace ClauseExchange.Intake

variable {σ : Type} {solver : Solver σ} {first : Nat} {records : List (List Bytes)}
  {intake : Intake (Recorded σ)}

/-- The records handed over are the lists that the store holds now. -/
structure Delivered (solver : Solver σ) (first : Nat) (records : List (List Bytes))
    (intake : Intake (Recorded σ)) : Prop extends Handed solver first records intake where
  whole : ∀ index record, records[index]? = some record → record ≠ [] ∧
    (intake.channel.store.list (Key.incoming (first + index))).toList = record

theorem step_delivers (delivered : Delivered solver first records intake) (step : Step σ)
    (spares : ∀ deed ∈ step.deeds, deed.Spares Key.incomingStem) :
    Yields (intake.step solver step)
      (fun _ after => (∃ records, Delivered solver first records after) ∧
        ∀ number, after.channel.store.value? (Key.incoming number) =
          intake.channel.store.value? (Key.incoming number))
      Spent := by
  refine (step_handed delivered.toHanded step).imp ?_ (fun _ _ spent => spent)
  rintro answer after ⟨more, handed, ⟨connections, store⟩, found⟩
  have stays : ∀ number record, record ≠ [] →
      (intake.channel.store.list (Key.incoming number)).toList = record →
      (after.channel.store.list (Key.incoming number)).toList = record := by
    intro number record nonempty here
    have present : intake.channel.store.list (Key.incoming number) ≠ #[] := by
      intro absent
      rw [absent] at here
      exact nonempty here.symm
    rw [store]
    change ((step.act intake.channel.store).list _).toList = record
    rw [Step.list_act spares present, here]
  refine ⟨⟨records ++ more, handed, ?_⟩, ?_⟩
  · intro index record here
    rcases getElem?_append_cases here with early | ⟨rest, rfl, late⟩
    · obtain ⟨nonempty, listed⟩ := delivered.whole index record early
      exact ⟨nonempty, stays _ record nonempty listed⟩
    · obtain ⟨_, nonempty, listed⟩ := found rest record late
      exact ⟨nonempty, stays _ record nonempty listed⟩
  · intro number
    rw [store]
    exact Step.value?_act spares intake.channel.store number

theorem isLeast_of_halted (delivered : Delivered solver first records intake)
    (unblocked : ∀ number, intake.channel.store.value? (Key.incoming number) = none)
    (halted : intake.Halted) :
    IsLeast {number | first ≤ number ∧ intake.channel.store.list (Key.incoming number) = #[]}
      intake.channel.session.nextIncoming := by
  refine ⟨⟨?_, ?_⟩, ?_⟩
  · rw [delivered.next]
    exact Nat.le_add_right first records.length
  · exact halted.resolve_left fun blocked => blocked (unblocked _)
  · rintro number ⟨beyond, absent⟩
    rw [delivered.next]
    by_contra before
    have inside : number - first < records.length := by omega
    obtain ⟨nonempty, listed⟩ :=
      delivered.whole (number - first) records[number - first] (List.getElem?_eq_getElem inside)
    rw [Nat.add_sub_cancel' beyond, absent] at listed
    exact nonempty listed.symm

/-- Whatever the order in which whole records arrive and however the polls fall between them, the
solver is told of every record once and in order, and a poll that can read stops at the first number
without a record only. A fault can only be that the numbers for records run out. -/
theorem run_delivers_in_order (solver : Solver σ) (state : SolverState σ) (channel : Channel)
    (steps : List (Step σ))
    (unblocked : ∀ number, channel.store.value? (Key.incoming number) = none)
    (spares : ∀ deed ∈ steps.flatMap Step.deeds, deed.Spares Key.incomingStem) :
    Yields (run solver steps (fresh state channel))
      (fun _ after =>
        (∃ records, Delivered solver channel.session.nextIncoming records after) ∧
          (after.state.stack = #[] → after.channel.store.reachable = true →
            Yields (after.poll solver.recorded)
              (fun _ polled =>
                IsLeast {number | channel.session.nextIncoming ≤ number ∧
                  polled.channel.store.list (Key.incoming number) = #[]}
                  polled.channel.session.nextIncoming)
              Spent))
      Spent := by
  let Invariant := fun (_ : List (Step σ)) (middle : Intake (Recorded σ)) =>
    (∃ records, Delivered solver channel.session.nextIncoming records middle) ∧
      ∀ number, middle.channel.store.value? (Key.incoming number) = none
  have running : Yields (run solver steps (fresh state channel))
      (fun _ after => Invariant steps after) Spent := by
    apply Yields.runAll_invariant
    · exact ⟨⟨[], handed_fresh solver state channel, nofun⟩, unblocked⟩
    · rintro done one middle answers ⟨rest, whole⟩ _ ⟨⟨records, delivered⟩, clear⟩
      have sparesOne : ∀ deed ∈ one.deeds, deed.Spares Key.incomingStem := by
        intro deed member
        apply spares
        rw [← whole]
        simp [member]
      refine (step_delivers delivered one sparesOne).imp ?_ (fun _ _ spent => spent)
      rintro answer after ⟨delivers, values⟩
      exact ⟨delivers, fun number => (values number).trans (clear number)⟩
  refine running.imp ?_ (fun _ _ spent => spent)
  rintro answers after ⟨⟨records, delivered⟩, clear⟩
  refine ⟨⟨records, delivered⟩, fun empty reachable => ?_⟩
  have delivering := step_delivers delivered .poll nofun
  refine (delivering.and (poll_reads solver after)).imp ?_ (fun _ _ spent => spent)
  rintro answer polled ⟨⟨⟨taken, deliveredThen⟩, values⟩, _, _, halts⟩
  exact isLeast_of_halted deliveredThen (fun number => (values number).trans (clear number))
    (halts empty reachable)

/-- Two records that arrive in the wrong order, with polls that cannot read in between: one stops at
the gap, one finds the store out of reach, and one finds a literal on the clause stack. -/
def outOfOrder : List (Step Unit) :=
  [.contribute 1 [[55]], .poll, .outside (.reach false), .poll, .outside (.reach true),
   .contribute 0 [[52], [45, 53]], .change fun state => { state with stack := #[9] }, .poll,
   .change fun state => { state with stack := #[] }, .poll]

theorem outOfOrder_spares : ∀ deed ∈ outOfOrder.flatMap Step.deeds,
    deed.Spares Key.incomingStem := by
  intro deed member
  change deed ∈ [Store.Deed.reach false, .reach true] at member
  simp only [List.mem_cons, List.not_mem_nil, or_false] at member
  rcases member with rfl | rfl <;> trivial

theorem run_delivers_in_order_outOfOrder :
    (∀ number, Store.value? {} (Key.incoming number) = none) ∧
      (∀ deed ∈ outOfOrder.flatMap Step.deeds, deed.Spares Key.incomingStem) ∧
      Yields (run .plain outOfOrder (fresh ⟨(), #[]⟩ ⟨Session.ofSettings {}, {}, #[]⟩))
        (fun _ after => (∃ records, Delivered .plain 0 records after) ∧
          (after.state.stack = #[] → after.channel.store.reachable = true →
            Yields (after.poll Solver.plain.recorded)
              (fun _ polled =>
                IsLeast {number | 0 ≤ number ∧
                  polled.channel.store.list (Key.incoming number) = #[]}
                  polled.channel.session.nextIncoming)
              Spent))
        Spent :=
  ⟨fun _ => rfl, outOfOrder_spares,
    run_delivers_in_order .plain ⟨(), #[]⟩ ⟨Session.ofSettings {}, {}, #[]⟩ outOfOrder
      (fun _ => rfl) outOfOrder_spares⟩

/-- The record under a number was read at the poll that comes after the `earlier` steps and before the
`later` ones, where the cursor passes the number. It is what the list held then, and where none of the
`later` steps adds to the list, it is all that the list ever holds. -/
structure ReadBetween (solver : Solver σ) (start : Intake (Recorded σ)) (number : Nat)
    (record : List Bytes) (earlier later : List (Step σ)) (after : Intake (Recorded σ)) : Prop where
  passes : PassesAt solver start number earlier
  listed : ((run solver earlier start).2.channel.store.list (Key.incoming number)).toList = record
  part : record <+: (after.channel.store.list (Key.incoming number)).toList
  whole : (∀ step ∈ later, ¬step.Adds number) →
    (after.channel.store.list (Key.incoming number)).toList = record

theorem ReadBetween.snoc {start middle after : Intake (Recorded σ)} {number : Nat}
    {record : List Bytes} {earlier later : List (Step σ)}
    (read : ReadBetween solver start number record earlier later middle) {step : Step σ}
    {connections : Nat}
    (store : after.channel.store = { step.act middle.channel.store with connections }) :
    ReadBetween solver start number record earlier (later ++ [step]) after := by
  constructor
  case passes => exact read.passes
  case listed => exact read.listed
  case part =>
    rw [store]
    exact read.part.trans (step.list_prefix_act middle.channel.store _)
  case whole =>
    intro leaves
    have here := leaves step (List.mem_append_right later (List.mem_singleton_self step))
    have before := read.whole fun one member => leaves one (List.mem_append_left [step] member)
    rw [store]
    change ((step.act middle.channel.store).list _).toList = record
    rw [Step.list_act_of_not_adds here, before]

/-- A poll between two pushes takes nothing where it finds the store out of reach. -/
example :
    let steps := [.outside (.push (Key.incoming 0) [52]), .outside (.reach false), .poll,
      .outside (.reach true), .outside (.push (Key.incoming 0) [45, 53]), .poll]
    let outcome := run .plain steps (fresh ⟨(), #[]⟩ ⟨Session.ofSettings {}, {}, #[]⟩)
    outcome.2.state.data.calls =
      #[.imported ⟨4, by decide, by decide⟩, .imported ⟨-5, by decide, by decide⟩,
        .learntClause 1 #[4, 4294967291]] := by
  decide +kernel

end ClauseExchange.Intake
