import ClauseExchange.Proofs.Participant.Call

/-!
The chronicle of a participant: its proofs in their order. Which lines each proof has follows from the
calls alone. Which of the lines are stored, dropped or pending is kept in a ledger for each proof, and
with every call the seat, its session and the store go on agreeing with the ledgers.
-/

namespace ClauseExchange

variable {σ : Type}

theorem Plan.length_lines_ofLines_le (lines : List (Except TraceError Line)) :
    (ofLines lines).lines.length ≤ lines.length := by
  induction lines with
  | nil => exact Nat.le_refl 0
  | cons line lines induction =>
      cases line with
      | error error => exact Nat.zero_le _
      | ok line => exact Nat.succ_le_succ induction

theorem Request.length_plan_lines_le (request : Request) (solver : Solver σ)
    (state : SolverState σ) (barred : Bool) :
    (request.plan solver state barred).lines.length ≤ 2 := by
  cases request with
  | add clause => exact (Plan.length_lines_ofLines_le _).trans (Nat.le_succ 1)
  | delete clause => exact (Plan.length_lines_ofLines_le _).trans (Nat.le_succ 1)
  | deleteExported words => exact (Plan.length_lines_ofLines_le _).trans (Nat.le_succ 1)
  | shrink clause remove keep =>
      by_cases present : clause.contains remove = true
      · rw [Request.plan, if_pos present]
        exact Plan.length_lines_ofLines_le _
      · rw [Request.plan, if_neg present]
        exact Nat.zero_le 2

/-- A proof: its encoding, and what is told of its lines. -/
structure Chapter (α : Type) where
  encoding : Encoding
  content : α

/-- The proofs that have ended and the one under way. -/
structure Chronicle (α : Type) where
  closed : List (Chapter α) := []
  current : Option (Chapter α) := none

namespace Chapter

def map {α β : Type} (f : α → β) (chapter : Chapter α) : Chapter β :=
  ⟨chapter.encoding, f chapter.content⟩

def records (chapter : Chapter (List Line)) : List Bytes :=
  chapter.content.map (Line.record chapter.encoding)

end Chapter

namespace Chronicle

variable {α β : Type}

def map (f : α → β) (chronicle : Chronicle α) : Chronicle β :=
  ⟨chronicle.closed.map (Chapter.map f), chronicle.current.map (Chapter.map f)⟩

def chapters (chronicle : Chronicle α) : List (Chapter α) :=
  chronicle.closed ++ chronicle.current.toList

def close (chronicle : Chronicle α) : Chronicle α :=
  { closed := chronicle.chapters }

def closedRecords (chronicle : Chronicle (List Line)) : List Bytes :=
  chronicle.closed.flatMap Chapter.records

def records (chronicle : Chronicle (List Line)) : List Bytes :=
  chronicle.chapters.flatMap Chapter.records

/-- The chronicle after a call. A call at the wrong time leaves no trace in it. -/
def note (solver : Solver σ) (settings : Settings) (state : SolverState σ) (call : Call)
    (chronicle : Chronicle (List Line)) : Chronicle (List Line) :=
  match call, chronicle.current with
  | .start encoding, none =>
      { chronicle with current := some ⟨encoding.getD settings.encoding, []⟩ }
  | .perform request, some chapter =>
      let plan := request.plan solver state (Plan.barsEmpty settings.audit chapter.content)
      { chronicle with
        current := some { chapter with content := chapter.content ++ plan.lines } }
  | .finish, some _ => chronicle.close
  | _, _ => chronicle

def noteAll (solver : Solver σ) (settings : Settings) (calls : List (SolverState σ × Call))
    (chronicle : Chronicle (List Line)) : Chronicle (List Line) :=
  calls.foldl (fun chronicle (state, call) => chronicle.note solver settings state call) chronicle

def ofCalls (solver : Solver σ) (settings : Settings) (calls : List (SolverState σ × Call)) :
    Chronicle (List Line) :=
  noteAll solver settings calls {}

theorem records_of_none {chronicle : Chronicle (List Line)} (current : chronicle.current = none) :
    chronicle.records = chronicle.closedRecords := by
  rw [records, chapters, current, Option.toList_none, List.append_nil]
  rfl

theorem records_of_some {chronicle : Chronicle (List Line)} {chapter : Chapter (List Line)}
    (current : chronicle.current = some chapter) :
    chronicle.records = chronicle.closedRecords ++ chapter.records := by
  rw [records, chapters, current, Option.toList_some, List.flatMap_append,
    List.flatMap_singleton]
  rfl

@[simp] theorem records_close (chronicle : Chronicle (List Line)) :
    chronicle.close.records = chronicle.records := by
  simp [records, close, chapters]

theorem map_close (f : α → β) (chronicle : Chronicle α) :
    chronicle.close.map f = (chronicle.map f).close := by
  cases current : chronicle.current <;> simp [map, close, chapters, current]

theorem note_of_none {chronicle : Chronicle (List Line)} (current : chronicle.current = none)
    (solver : Solver σ) (settings : Settings) (state : SolverState σ) (call : Call) :
    chronicle.note solver settings state call =
      match call with
      | .start encoding =>
          { chronicle with current := some ⟨encoding.getD settings.encoding, []⟩ }
      | _ => chronicle := by
  unfold note
  rw [current]
  cases call <;> rfl

theorem note_of_some {chronicle : Chronicle (List Line)} {chapter : Chapter (List Line)}
    (current : chronicle.current = some chapter) (solver : Solver σ) (settings : Settings)
    (state : SolverState σ) (call : Call) :
    chronicle.note solver settings state call =
      match call with
      | .perform request =>
          let plan := request.plan solver state (Plan.barsEmpty settings.audit chapter.content)
          { chronicle with
            current := some { chapter with content := chapter.content ++ plan.lines } }
      | .finish => chronicle.close
      | _ => chronicle := by
  unfold note
  rw [current]
  cases call <;> rfl

theorem note_of_refusal {solver : Solver σ} {settings : Settings} {state : SolverState σ}
    {call : Call} {chronicle : Chronicle (List Line)} {error : TraceError}
    (refused : call.refusal? chronicle.current.isSome = some error) :
    chronicle.note solver settings state call = chronicle := by
  cases present : chronicle.current with
  | none =>
      rw [present] at refused
      rw [note_of_none present]
      cases call with
      | start encoding => cases refused
      | perform request => rfl
      | flush => rfl
      | finish => rfl
      | poll => rfl
      | tick => rfl
  | some chapter =>
      rw [present] at refused
      rw [note_of_some present]
      cases call with
      | start encoding => rfl
      | perform request => cases refused
      | flush => rfl
      | finish => cases refused
      | poll => rfl
      | tick => rfl

/-- A call adds at most two records at the end, and takes none back. -/
theorem records_note (solver : Solver σ) (settings : Settings) (state : SolverState σ)
    (call : Call) (chronicle : Chronicle (List Line)) :
    ∃ more, (chronicle.note solver settings state call).records = chronicle.records ++ more ∧
      more.length ≤ 2 := by
  have same : ∃ more, chronicle.records = chronicle.records ++ more ∧ more.length ≤ 2 :=
    ⟨[], (List.append_nil _).symm, Nat.zero_le 2⟩
  cases present : chronicle.current with
  | none =>
      rw [note_of_none present]
      cases call with
      | start encoding =>
          dsimp only
          rw [records_of_none present, records_of_some rfl]
          exact ⟨[], rfl, Nat.zero_le 2⟩
      | perform request => exact same
      | flush => exact same
      | finish => exact same
      | poll => exact same
      | tick => exact same
  | some chapter =>
      rw [note_of_some present]
      cases call with
      | start encoding => exact same
      | perform request =>
          dsimp only
          rw [records_of_some present, records_of_some rfl]
          unfold Chapter.records
          rw [List.map_append, ← List.append_assoc]
          refine ⟨_, rfl, ?_⟩
          rw [List.length_map]
          exact request.length_plan_lines_le solver state _
      | flush => exact same
      | finish =>
          rw [records_close]
          exact same
      | poll => exact same
      | tick => exact same

theorem prefix_records_note (solver : Solver σ) (settings : Settings) (state : SolverState σ)
    (call : Call) (chronicle : Chronicle (List Line)) :
    chronicle.records <+: (chronicle.note solver settings state call).records := by
  obtain ⟨more, records, _⟩ := records_note solver settings state call chronicle
  exact ⟨more, records.symm⟩

theorem prefix_records_noteAll (solver : Solver σ) (settings : Settings)
    (calls : List (SolverState σ × Call)) (chronicle : Chronicle (List Line)) :
    chronicle.records <+: (noteAll solver settings calls chronicle).records := by
  induction calls generalizing chronicle with
  | nil => exact List.prefix_rfl
  | cons call calls induction =>
      exact (prefix_records_note solver settings call.1 call.2 chronicle).trans (induction _)

end Chronicle

end ClauseExchange
