import ClauseExchange.Intake
import ClauseExchange.Proofs.Intake.Contribution
import ClauseExchange.Proofs.Solver.KeepsStack
import ClauseExchange.Solver.Recording

/-!
What the solver is told when a record is taken in. A recording solver sees the calls that one record
leads to, and the clause that is on the stack when it is handed over.
-/

namespace ClauseExchange

variable {σ : Type}

/-- A solver's word for a literal is what some state of it imports the literal as. -/
def Solver.Names (solver : Solver σ) (literal : Literal) (word : UInt32) : Prop :=
  ∃ state, (solver.importLiteral literal state).1 = word

/-- The solver imports literals one after another, and the word of each is put on the stack before the
next one is imported. -/
inductive Solver.Imports (solver : Solver σ) :
    List Literal → List UInt32 → SolverState σ → SolverState σ → Prop where
  | nil (state : SolverState σ) : Imports solver [] [] state state
  | cons {literal : Literal} {word : UInt32} {literals : List Literal} {words : List UInt32}
      {state next last : SolverState σ}
      (imported : solver.importLiteral literal state = (word, next))
      (rest : Imports solver literals words { next with stack := next.stack.push word } last) :
      Imports solver (literal :: literals) (word :: words) state last

theorem Solver.Imports.names {solver : Solver σ} {literals : List Literal} {words : List UInt32}
    {state last : SolverState σ} (imports : solver.Imports literals words state last) :
    List.Forall₂ solver.Names literals words := by
  induction imports with
  | nil => exact .nil
  | cons imported rest induction => exact .cons ⟨_, congrArg Prod.fst imported⟩ induction

/-- Gives the solver the clause on the stack, as a unit if it is one. -/
def Solver.learn (solver : Solver σ) (words : List UInt32) (state : SolverState σ) :
    SolverState σ :=
  match words with
  | [word] => solver.learnUnit word state
  | words => solver.learnClause (words.length - 1) state

def SolverCall.ofClause : List UInt32 → SolverCall
  | [word] => .learntUnit word #[word]
  | words => .learntClause (words.length - 1) words.toArray

/-- What a solver is told of a record by the outcome of reading it, and what that makes of the solver. At
the last call, the stack holds the words of the literals and no others. -/
inductive Solver.Told (solver : Solver σ) :
    Except IntakeError (List Literal) → List SolverCall → SolverState σ → SolverState σ → Prop where
  | rejected (error : IntakeError) (state : SolverState σ) :
      Told solver (.error error) [] state state
  | taken {literals : List Literal} {words : List UInt32} {state held : SolverState σ}
      (imports : solver.Imports literals words state held) (stack : held.stack.toList = words) :
      Told solver (.ok literals) (literals.map .imported ++ [.ofClause words]) state
        (solver.learn words held).clearStack

/-- What a solver is told of a record: nothing if the record is rejected, and otherwise the imports of
all its literals in order and then the clause on the stack. The words of the clause stand for the
literals unless importing meddles with the stack. -/
def Contribution.Load (solver : Solver σ) (number : Nat) (elements : List Bytes)
    (calls : List SolverCall) : Prop :=
  match Contribution.read number elements with
  | .error _ => calls = []
  | .ok literals => ∃ words,
      (solver.KeepsStack → List.Forall₂ solver.Names literals words) ∧
        calls = literals.map .imported ++ [.ofClause words]

theorem Contribution.ne_nil_of_read {number : Nat} {elements : List Bytes}
    {literals : List Literal} (read : Contribution.read number elements = .ok literals)
    (nonempty : elements ≠ []) : literals ≠ [] := by
  rintro rfl
  cases mapM_eq_ok_iff.mp read
  exact nonempty rfl

namespace IntakeTally

def total (tally : IntakeTally) : Nat :=
  tally.units + tally.clauses + tally.rejected

/-- Counts a record by the outcome of reading it. -/
def count (tally : IntakeTally) : Except IntakeError (List Literal) → IntakeTally
  | .error _ => { tally with rejected := tally.rejected + 1 }
  | .ok [_] => { tally with units := tally.units + 1 }
  | .ok _ => { tally with clauses := tally.clauses + 1 }

end IntakeTally

namespace SolverState

theorem importOnto_recorded (solver : Solver σ) (state : SolverState (Recorded σ))
    (literal : Literal) :
    (importOnto solver.recorded state literal).stack =
        (solver.importLiteral literal state.unrecorded).2.stack.push
          (solver.importLiteral literal state.unrecorded).1 ∧
      (importOnto solver.recorded state literal).data.calls =
        state.data.calls.push (.imported literal) :=
  ⟨rfl, rfl⟩

theorem foldl_importOnto_calls (solver : Solver σ) (literals : List Literal)
    (state : SolverState (Recorded σ)) :
    (literals.foldl (importOnto solver.recorded) state).data.calls.toList =
      state.data.calls.toList ++ literals.map .imported := by
  induction literals generalizing state with
  | nil => exact (List.append_nil _).symm
  | cons literal literals induction =>
      rw [List.foldl_cons, induction, (importOnto_recorded solver state literal).2,
        Array.toList_push, List.append_assoc]
      rfl

theorem foldl_importOnto_imports {solver : Solver σ} (keeps : solver.KeepsStack)
    (literals : List Literal) (state : SolverState (Recorded σ)) :
    ∃ words, solver.Imports literals words state.unrecorded
        (literals.foldl (importOnto solver.recorded) state).unrecorded ∧
      (literals.foldl (importOnto solver.recorded) state).stack.toList =
        state.stack.toList ++ words := by
  induction literals generalizing state with
  | nil => exact ⟨[], .nil _, (List.append_nil _).symm⟩
  | cons literal literals induction =>
      obtain ⟨words, imports, stack⟩ := induction (importOnto solver.recorded state literal)
      have kept : (solver.importLiteral literal state.unrecorded).2.stack = state.stack :=
        keeps literal state.unrecorded
      rw [(importOnto_recorded solver state literal).1, kept, Array.toList_push,
        List.append_assoc] at stack
      exact ⟨_ :: words, .cons rfl imports, stack⟩

/-- Whatever importing does to the stack, the word of the last literal is on it afterwards. -/
theorem foldl_importOnto_ne_nil (solver : Solver σ) {literals : List Literal}
    (nonempty : literals ≠ []) (state : SolverState (Recorded σ)) :
    (literals.foldl (importOnto solver.recorded) state).stack.toList ≠ [] := by
  obtain ⟨front, last, rfl⟩ := literals.eq_nil_or_concat.resolve_left nonempty
  rw [List.concat_eq_append, List.foldl_concat, (importOnto_recorded solver _ last).1,
    Array.toList_push]
  exact List.append_ne_nil_of_right_ne_nil _ (List.cons_ne_nil _ [])

end SolverState

namespace Intake

variable {intake : Intake (Recorded σ)}

structure Takes (solver : Solver σ) (elements : List Bytes) (before after : Intake (Recorded σ)) :
    Prop where
  session : after.channel.session = before.channel.session
  store : after.channel.store = before.channel.store
  stack : after.state.stack = #[]
  calls : ∃ load,
    Contribution.Load solver before.channel.session.nextIncoming elements load ∧
      after.state.data.calls.toList = before.state.data.calls.toList ++ load
  total : after.tally.total = before.tally.total + 1
  told : solver.KeepsStack →
    let outcome := Contribution.read before.channel.session.nextIncoming elements
    after.tally = before.tally.count outcome ∧
      ∃ load, solver.Told outcome load before.state.unrecorded after.state.unrecorded ∧
        after.state.data.calls.toList = before.state.data.calls.toList ++ load

structure HandsOver (solver : Solver σ) (words : List UInt32)
    (before after : Intake (Recorded σ)) : Prop where
  session : after.channel.session = before.channel.session
  store : after.channel.store = before.channel.store
  state : after.state.unrecorded = (solver.learn words before.state.unrecorded).clearStack
  calls : after.state.data.calls = before.state.data.calls.push (.ofClause words)
  total : after.tally.total = before.tally.total + 1
  tally : ∀ literals : List Literal, literals.length = words.length →
    after.tally = before.tally.count (.ok literals)

theorem handOver_recorded (solver : Solver σ) (intake : Intake (Recorded σ))
    {words : List UInt32} (stack : intake.state.stack.toList = words) (nonempty : words ≠ [])
    (literals : List Literal) :
    ∃ after, intake.handOver solver.recorded literals = (.ok (), after) ∧
      HandsOver solver words intake after := by
  rcases intake with ⟨tally, ⟨⟨data, calls⟩, ⟨held⟩⟩, channel⟩
  cases stack
  match held, nonempty with
  | [word], _ =>
      refine ⟨_, rfl, rfl, rfl, rfl, rfl, ?_, ?_⟩
      · simp only [countUnit, IntakeTally.total, note]
        omega
      · intro others single
        obtain ⟨literal, rfl⟩ := List.length_eq_one_iff.mp single
        rfl
  | first :: second :: rest, _ =>
      have larger : ¬ (⟨first :: second :: rest⟩ : Array UInt32).size = 1 := by simp
      unfold handOver
      change ∃ after, (if _ = 1 then _ else _) = _ ∧ _
      rw [if_neg larger]
      refine ⟨_, rfl, rfl, rfl, rfl, rfl, ?_, ?_⟩
      · simp only [countClause, IntakeTally.total, note]
        omega
      · intro others several
        match others, several with
        | _ :: _ :: _, _ => rfl

theorem take_recorded (solver : Solver σ) (empty : intake.state.stack = #[])
    {elements : List Bytes} (nonempty : elements ≠ []) :
    ∃ after, intake.take solver.recorded elements = (.ok (), after) ∧
      Takes solver elements intake after := by
  unfold take
  rcases outcome : Contribution.read intake.channel.session.nextIncoming elements with
    error | literals
  · refine ⟨_, rfl, rfl, rfl, empty, ⟨[], ?_, (List.append_nil _).symm⟩, rfl, ?_⟩
    · unfold Contribution.Load
      rw [outcome]
    · intro keeps
      rw [outcome]
      exact ⟨rfl, [], .rejected error _, (List.append_nil _).symm⟩
  · have some := Contribution.ne_nil_of_read outcome nonempty
    have held := SolverState.foldl_importOnto_ne_nil solver some intake.state
    dsimp only
    unfold load
    rw [List.isEmpty_eq_false_iff.mpr some, if_neg Bool.false_ne_true]
    generalize imported :
      literals.foldl (SolverState.importOnto solver.recorded) intake.state = state at held ⊢
    obtain ⟨after, handed, handsOver⟩ :=
      handOver_recorded solver { intake with state } rfl held literals
    -- What the words on the stack are is known of solvers that leave it alone.
    have imports (keeps : solver.KeepsStack) :
        solver.Imports literals state.stack.toList intake.state.unrecorded state.unrecorded := by
      obtain ⟨words, imports, stack⟩ :=
        SolverState.foldl_importOnto_imports keeps literals intake.state
      rw [imported, empty] at stack
      rw [imported] at imports
      rwa [stack]
    have told : after.state.data.calls.toList = intake.state.data.calls.toList ++
        (literals.map .imported ++ [.ofClause state.stack.toList]) := by
      rw [handsOver.calls, Array.toList_push, ← imported, SolverState.foldl_importOnto_calls,
        List.append_assoc]
    refine ⟨after, handed, ?_⟩
    constructor
    case session => exact handsOver.session
    case store => exact handsOver.store
    case stack =>
      change after.state.unrecorded.stack = #[]
      rw [handsOver.state]
      rfl
    case calls =>
      refine ⟨_, ?_, told⟩
      unfold Contribution.Load
      rw [outcome]
      exact ⟨state.stack.toList, fun keeps => (imports keeps).names, rfl⟩
    case total => exact handsOver.total
    case told =>
      intro keeps
      rw [outcome]
      refine ⟨handsOver.tally literals (imports keeps).names.length_eq, _, ?_, told⟩
      rw [handsOver.state]
      exact .taken (imports keeps) rfl

end Intake

end ClauseExchange
