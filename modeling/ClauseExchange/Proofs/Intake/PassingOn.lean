import ClauseExchange.Proofs.Intake.PollEffect
import ClauseExchange.Proofs.Spool.Framing

/-!
What one participant wrote is what another takes in. The numerals of a textual record are contributions
as they stand, so a peer passes a clause on by cutting the record at its spaces.
-/

namespace ClauseExchange

variable {σ : Type}

/-! A numeral as an element. -/

theorem Contribution.spells_numeral (literal : Literal) :
    Spells literal.numeral literal.value := by
  have ascii : ∀ character ∈ Decimal.ofInt literal.value,
      32 < character.toNat ∧ character.toNat < 128 := Decimal.ascii_of_mem_ofInt
  refine ⟨Decimal.ofInt literal.value, literal.numeral, ?_, ?_, ?_⟩
  · exact Utf8.encode_ascii fun character written => (ascii character written).2
  · rw [literal.decode_numeral]
    constructor
    case around => exact ⟨[], [], by simp, nofun⟩
    case ends =>
      intro character either
      have written : character ∈ Decimal.ofInt literal.value :=
        either.elim List.mem_of_head? List.mem_of_getLast?
      exact Text.isBlank_of_space_lt (ascii character written).1 (ascii character written).2
  · rw [← Ascii.readInt?_decode_eq_some_iff, literal.decode_numeral, Decimal.readInt?_ofInt]

theorem Contribution.read_numerals (number : Nat) (literals : List Literal) :
    read number (literals.map Literal.numeral) = .ok literals := by
  apply mapM_eq_ok_iff.mpr
  rw [List.forall₂_map_left_iff, List.forall₂_same]
  intro literal _
  exact readElement_eq_ok_iff.mpr (spells_numeral literal)

/-- The pieces of a record between its spaces, without the first and the last of them. -/
def Contribution.ofRecord (record : Bytes) : List Bytes :=
  (record.splitOn Ascii.space).tail.dropLast

theorem Literal.flatMap_encodeText (literals : List Literal) :
    literals.flatMap encodeText = frame Ascii.space (literals.map numeral) := by
  rw [frame, List.flatMap_map]
  rfl

theorem Literal.space_not_mem_numeral (literal : Literal) : Ascii.space ∉ literal.numeral := by
  intro member
  have visible := literal.isBlank_of_mem_numeral _ member
  rw [Ascii.isBlank_space] at visible
  cases visible

theorem Contribution.ofRecord_record (action : Action) (literals : List Literal) :
    ofRecord (Line.record .text ⟨action, literals⟩) = literals.map Literal.numeral := by
  have framed : Line.record .text ⟨action, literals⟩ =
      frame Ascii.space ([action.byte] :: literals.map Literal.numeral) ++ [Ascii.zero] := by
    rw [frame_cons, ← Literal.flatMap_encodeText]
    simp [Line.record]
  have free : ∀ piece ∈ [action.byte] :: literals.map Literal.numeral, Ascii.space ∉ piece := by
    simp [Literal.space_not_mem_numeral]
    cases action <;> decide
  rw [ofRecord, framed, splitOn_frame_append free (by decide)]
  simp

/-! The poll that finds them. -/

/-- How a clause is given to the solver: a unit as such, and any other clause on the stack, where the
words that its literals were just imported as lie in their order, with a glue of one less than its size. -/
inductive Solver.Given (solver : Solver σ) (state : SolverState σ) :
    List Literal → SolverCall → Prop where
  | unit {literal : Literal} {word : UInt32} {held : SolverState σ}
      (imports : solver.Imports [literal] [word] state held) :
      Given solver state [literal] (.learntUnit word #[word])
  | clause {literals : List Literal} {words : List UInt32} {held : SolverState σ}
      (several : literals.length ≠ 1) (imports : solver.Imports literals words state held) :
      Given solver state literals (.learntClause (literals.length - 1) words.toArray)

theorem Solver.Imports.given {solver : Solver σ} {literals : List Literal} {words : List UInt32}
    {state held : SolverState σ} (imports : solver.Imports literals words state held) :
    solver.Given state literals (.ofClause words) := by
  have sizes := imports.names.length_eq
  match literals, words with
  | [], [] => exact .clause (by simp) imports
  | [_], [_] => exact .unit imports
  | _ :: _ :: _, first :: second :: rest =>
      rw [SolverCall.ofClause, ← sizes]
      · exact .clause (by simp) imports
      · simp

theorem Solver.Told.of_ok {solver : Solver σ} {literals : List Literal} {load : List SolverCall}
    {state next : SolverState σ} (told : solver.Told (.ok literals) load state next) :
    ∃ words held, solver.Imports literals words state held ∧
      load = literals.map .imported ++ [.ofClause words] := by
  cases told with
  | taken imports stack => exact ⟨_, _, imports, rfl⟩

namespace Intake

variable {solver : Solver σ} {intake : Intake (Recorded σ)}

theorem calls_readRecords_of_not_offers (solver : Solver σ) (limit total : Nat)
    (reachable : intake.channel.store.reachable = true) (empty : intake.state.stack = #[])
    (missing : ¬intake.channel.store.Offers intake.channel.session.nextIncoming) :
    (intake.readRecords solver.recorded limit total).2.state.data.calls =
      intake.state.data.calls := by
  cases limit with
  | zero => rfl
  | succ limit =>
      obtain ⟨last, reads, stops⟩ := readRecords_of_not_offers solver reachable empty missing
      obtain ⟨calls, tells, told⟩ := reads.told
      rw [tells.eq_nil, List.append_nil] at told
      rw [stops]
      exact Array.toList_inj.mp told

/-- Nothing that the solver was told is taken back, even where the reading ends in a fault. -/
theorem calls_prefix_readRecords (solver : Solver σ) (limit total : Nat)
    (reachable : intake.channel.store.reachable = true) (empty : intake.state.stack = #[]) :
    intake.state.data.calls.toList <+:
      (intake.readRecords solver.recorded limit total).2.state.data.calls.toList := by
  induction limit generalizing intake total with
  | zero => exact List.prefix_rfl
  | succ limit induction =>
      by_cases offers : intake.channel.store.Offers intake.channel.session.nextIncoming
      · obtain ⟨middle, takes, goesOn⟩ := readRecords_takes solver intake reachable empty offers
        obtain ⟨load, -, told⟩ := takes.calls
        have taken : intake.state.data.calls.toList <+: middle.state.data.calls.toList :=
          ⟨load, told.symm⟩
        rw [goesOn, advance_eq]
        split_ifs
        · have stillReachable : middle.onward.channel.store.reachable = true :=
            takes.store ▸ reachable
          exact taken.trans (induction (total + 1) stillReachable takes.stack)
        · exact taken
      · rw [calls_readRecords_of_not_offers solver (limit + 1) total reachable empty offers]

/-- The solver is left by a poll that connects as it is left by the reading. -/
theorem state_poll (solver : Solver σ) (reachable : intake.channel.store.reachable = true)
    (empty : intake.state.stack = #[]) :
    (intake.poll solver.recorded).2.state =
      ({ intake with channel := intake.channel.connected }.readRecords solver.recorded
        (intake.channel.store.lists.size + 1) 0).2.state := by
  rw [poll, if_pos (Array.isEmpty_iff.mpr empty), Channel.connect_of_reachable reachable]
  rcases outcome : readRecords solver.recorded (intake.channel.store.lists.size + 1) 0
    { intake with channel := intake.channel.connected } with ⟨_ | _, _⟩
  all_goals
    change readRecords solver.recorded (intake.channel.connected.store.lists.size + 1) 0 _ = _
      at outcome
    simp only [outcome, note]

/-- A poll takes in the record under the next number first, and only that record if there is none under
the number after it. -/
theorem poll_takes_first (solver : Solver σ) (intake : Intake (Recorded σ))
    (reachable : intake.channel.store.reachable = true) (empty : intake.state.stack = #[])
    (offers : intake.channel.store.Offers intake.channel.session.nextIncoming) :
    ∃ middle more,
      Takes solver (intake.channel.store.list
          (Key.incoming intake.channel.session.nextIncoming)).toList
        { intake with channel := intake.channel.connected } middle ∧
      (intake.poll solver.recorded).2.state.data.calls.toList =
        middle.state.data.calls.toList ++ more ∧
      (¬intake.channel.store.Offers (intake.channel.session.nextIncoming + 1) → more = []) := by
  rw [state_poll solver reachable empty]
  obtain ⟨middle, takes, goesOn⟩ :=
    readRecords_takes solver { intake with channel := intake.channel.connected } reachable empty
      offers
  refine ⟨middle, ?_⟩
  rw [goesOn, advance_eq]
  split_ifs
  · have session : middle.onward.channel.session = readOn intake.channel.session 1 :=
      congrArg (readOn · 1) takes.session
    have store : middle.onward.channel.store = intake.channel.connected.store := takes.store
    have reachableNext : middle.onward.channel.store.reachable = true := by
      rwa [store]
    obtain ⟨more, rest⟩ := calls_prefix_readRecords solver intake.channel.store.lists.size 1
      reachableNext takes.stack
    refine ⟨more, takes, rest.symm, ?_⟩
    intro gap
    have missing :
        ¬middle.onward.channel.store.Offers middle.onward.channel.session.nextIncoming := by
      rwa [store, session]
    rw [calls_readRecords_of_not_offers solver intake.channel.store.lists.size 1 reachableNext
      takes.stack missing] at rest
    exact List.append_right_eq_self.mp rest
  · exact ⟨[], takes, (List.append_nil _).symm, fun _ => rfl⟩

theorem Takes.given {elements : List Bytes} {literals : List Literal}
    {before after : Intake (Recorded σ)} (takes : Takes solver elements before after)
    (read : Contribution.read before.channel.session.nextIncoming elements = .ok literals) :
    ∃ given,
      after.state.data.calls.toList =
        before.state.data.calls.toList ++ (literals.map .imported ++ [given]) ∧
      (solver.KeepsStack → solver.Given before.state.unrecorded literals given) := by
  obtain ⟨load, loaded, calls⟩ := takes.calls
  rw [Contribution.Load, read] at loaded
  obtain ⟨words, -, rfl⟩ := loaded
  refine ⟨.ofClause words, calls, ?_⟩
  intro keeps
  obtain ⟨-, load, told, same⟩ := takes.told keeps
  rw [read] at told
  obtain ⟨others, held, imports, rfl⟩ := told.of_ok
  rw [calls, List.append_cancel_left_eq, List.append_cancel_left_eq] at same
  rw [List.singleton_inj.mp same]
  exact imports.given

/-- A clause that was written comes in as it went out. A peer leaves the pieces of its record as a list of
its own, element by element, and they are read as the literals of the clause. The poll that comes to the
list imports these literals in order and gives the solver the clause, before anything else it finds. -/
theorem written_clause_comes_in (solver : Solver σ) {literals : List Literal}
    (nonempty : literals ≠ []) {number : Nat} {store : Store}
    (fresh : store.list (Key.incoming number) = #[])
    (unblocked : store.value? (Key.incoming number) = none)
    (admits : store.admitted literals.length = literals.length)
    (empty : intake.state.stack = #[]) (next : intake.channel.session.nextIncoming = number) :
    let elements := Contribution.ofRecord (Line.record .text ⟨.add, literals⟩)
    let (pushed, left) := store.pushAll (Key.incoming number) elements
    let found := { intake with channel := { intake.channel with store := left } }
    pushed = .ok () ∧
      (left.list (Key.incoming number)).toList = elements ∧
      Contribution.read number elements = .ok literals ∧
      ∃ given more,
        (found.poll solver.recorded).2.state.data.calls.toList =
          intake.state.data.calls.toList ++ (literals.map .imported ++ [given]) ++ more ∧
        (solver.KeepsStack → solver.Given intake.state.unrecorded literals given) ∧
        (¬left.Offers (number + 1) → more = []) := by
  intro elements
  have numerals : elements = literals.map Literal.numeral :=
    Contribution.ofRecord_record .add literals
  have read : Contribution.read number elements = .ok literals := by
    rw [numerals, Contribution.read_numerals]
  have reachable := Store.reachable_of_admitted (List.length_pos_iff.mpr nonempty) admits
  rw [← literals.length_map Literal.numeral, ← numerals] at admits
  obtain ⟨taken, stillReachable⟩ := Store.pushAll_of_admitted (Key.incoming number) admits
  rcases outcome : store.pushAll (Key.incoming number) elements with ⟨pushed, left⟩
  rw [outcome] at taken stillReachable
  cases taken
  obtain ⟨values, lists⟩ := Store.pushAll_entries outcome (Key.incoming number)
  rw [fresh, if_pos rfl, List.nil_append] at lists
  refine ⟨rfl, lists, read, ?_⟩
  subst next
  have offers : left.Offers intake.channel.session.nextIncoming := by
    refine ⟨?_, values.trans unblocked⟩
    rw [ne_eq, ← Array.toList_eq_nil_iff, lists, numerals]
    simpa using nonempty
  obtain ⟨middle, more, takes, polled, alone⟩ :=
    poll_takes_first solver { intake with channel := { intake.channel with store := left } }
      (stillReachable.trans reachable) empty offers
  rw [lists] at takes
  obtain ⟨given, calls, isGiven⟩ := takes.given read
  exact ⟨given, more, polled.trans (congrArg (· ++ more) calls), isGiven, alone⟩

/-- The largest literal and the least one, under the last number there is, where the poll ends in a fault
once the clause was given to the solver. -/
def extremes : List Literal :=
  [⟨2147483647, by decide, by decide⟩, ⟨-2147483647, by decide, by decide⟩]

def atTheLast : Intake (Recorded Unit) where
  state := { data := { data := () } }
  channel := {
    session := { host := "127.0.0.1", port := 6379, nextIncoming := Key.numberBound - 1 }
    store := {} }

theorem written_clause_comes_in_extremes :
    let number := Key.numberBound - 1
    let elements := Contribution.ofRecord (Line.record .text ⟨.add, extremes⟩)
    let (pushed, left) := ({} : Store).pushAll (Key.incoming number) elements
    let found := { atTheLast with channel := { atTheLast.channel with store := left } }
    extremes ≠ [] ∧ ({} : Store).list (Key.incoming number) = #[] ∧
      ({} : Store).value? (Key.incoming number) = none ∧
      ({} : Store).admitted extremes.length = extremes.length ∧
      atTheLast.state.stack = #[] ∧ atTheLast.channel.session.nextIncoming = number ∧
      pushed = .ok () ∧ Contribution.read number elements = .ok extremes ∧
      ∃ given, Solver.plain.Given atTheLast.state.unrecorded extremes given ∧
        (found.poll Solver.plain.recorded).2.state.data.calls.toList =
          extremes.map .imported ++ [given] := by
  intro number elements
  refine ⟨by decide, rfl, rfl, rfl, rfl, rfl, ?_⟩
  obtain ⟨pushed, _, read, given, more, told, isGiven, alone⟩ :=
    written_clause_comes_in Solver.plain (show extremes ≠ [] by decide)
      (show ({} : Store).list (Key.incoming number) = #[] from rfl) rfl rfl
      (show atTheLast.state.stack = #[] from rfl) rfl
  have keeps : Solver.plain.KeepsStack := fun _ _ => rfl
  rw [alone (by decide +kernel), List.append_nil] at told
  exact ⟨pushed, read, given, isGiven keeps, told⟩

end Intake

end ClauseExchange
