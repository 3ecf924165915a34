import ClauseExchange.Proofs.Solver.Exporting
import ClauseExchange.Proofs.Tracer.Noting

/-!
The plan of a request: the lines it emits and its answer, told from the exported literals and from the
lines emitted before, without regard to spool and store.
-/

namespace ClauseExchange

namespace Line

def addEmpty : Line := ⟨.add, []⟩

theorem add_beq_addEmpty (literals : List Literal) :
    ((⟨.add, literals⟩ : Line) == addEmpty) = literals.isEmpty := by
  cases literals with
  | nil => exact beq_self_eq_true _
  | cons literal literals => simp [addEmpty]

theorem delete_beq_addEmpty (literals : List Literal) :
    ((⟨.delete, literals⟩ : Line) == addEmpty) = false := by
  simp [addEmpty]

theorem contains_addEmpty_snoc (emitted : List Line) (line : Line) :
    (emitted ++ [line]).contains addEmpty = (emitted.contains addEmpty || line == addEmpty) := by
  rw [List.contains_append, List.contains_cons, List.contains_nil, Bool.or_false, BEq.comm]

end Line

structure Plan where
  lines : List Line
  answer : Except TraceError Unit

namespace Plan

/-- Whether the empty clause is refused: it is added once only where additions are watched. -/
def barsEmpty (audited : Bool) (emitted : List Line) : Bool :=
  audited && emitted.contains Line.addEmpty

def lineOf (barred : Bool) (action : Action) :
    Except Int32 (List Literal) → Except TraceError Line
  | .error word => .error (.invalidLiteral word)
  | .ok literals =>
      if barred && (⟨action, literals⟩ : Line) == Line.addEmpty then
        .error .emptyClauseAgain
      else
        .ok ⟨action, literals⟩

/-- Lines are emitted one after another, up to the first that is refused. -/
def ofLines : List (Except TraceError Line) → Plan
  | [] => ⟨[], .ok ()⟩
  | .error error :: _ => ⟨[], .error error⟩
  | .ok line :: rest => ⟨line :: (ofLines rest).lines, (ofLines rest).answer⟩

end Plan

variable {σ : Type}

def Request.plan (solver : Solver σ) (state : SolverState σ) (barred : Bool) : Request → Plan
  | .add clause => .ofLines [Plan.lineOf barred .add (solver.exportClause? state clause)]
  | .delete clause => .ofLines [Plan.lineOf barred .delete (solver.exportClause? state clause)]
  | .deleteExported words =>
      .ofLines [Plan.lineOf barred .delete (words.mapM Tracing.exported?)]
  | .shrink clause remove keep =>
      if clause.contains remove then
        let retained := clause.filter (solver.retains state remove keep)
        .ofLines
          [Plan.lineOf barred .add (solver.exportClause? state retained),
           Plan.lineOf barred .delete (solver.exportClause? state clause)]
      else
        ⟨[], .error .literalNotInClause⟩

namespace Plan

theorem lineOf_delete (barred : Bool) (literals : List Literal) :
    lineOf barred .delete (.ok literals) = .ok ⟨.delete, literals⟩ := by
  rw [lineOf, Line.delete_beq_addEmpty, Bool.and_false]
  rfl

theorem lineOf_delete_eq (first second : Bool) (exported : Except Int32 (List Literal)) :
    lineOf first .delete exported = lineOf second .delete exported := by
  cases exported with
  | error word => rfl
  | ok literals => rw [lineOf_delete, lineOf_delete]

theorem lineOf_add (barred : Bool) (literals : List Literal) :
    lineOf barred .add (.ok literals) =
      if barred && literals.isEmpty then .error .emptyClauseAgain else .ok ⟨.add, literals⟩ := by
  rw [lineOf, Line.add_beq_addEmpty]

theorem lineOf_words_cases (barred : Bool) (action : Action) (words : List Int32) :
    (∃ word, firstInvalid words = some word ∧
      lineOf barred action (words.mapM Tracing.exported?) = .error (.invalidLiteral word)) ∨
    ((action = .add ∧ words = [] ∧ barred = true) ∧
      lineOf barred action (words.mapM Tracing.exported?) = .error .emptyClauseAgain) ∨
    (firstInvalid words = none ∧
      ¬(action = .add ∧ words = [] ∧ barred = true) ∧
      ∃ literals : List Literal, literals.map Literal.word = words ∧
        lineOf barred action (words.mapM Tracing.exported?) = .ok ⟨action, literals⟩) := by
  rcases Tracing.mapM_exported?_cases words with
    ⟨word, found, refused⟩ | ⟨none, literals, rfl, exported⟩
  · exact Or.inl ⟨word, found, by rw [refused, lineOf]⟩
  · right
    rw [exported]
    cases action with
    | delete => exact Or.inr ⟨none, by simp, literals, rfl, lineOf_delete barred literals⟩
    | add =>
        rw [lineOf_add]
        cases literals with
        | cons literal literals => exact Or.inr ⟨none, by simp, _, rfl, by simp⟩
        | nil =>
            cases barred with
            | true => exact Or.inl ⟨by simp, by simp⟩
            | false => exact Or.inr ⟨none, by simp, [], rfl, by simp⟩

theorem mem_lines_ofLines {line : Line} {outcomes : List (Except TraceError Line)}
    (member : line ∈ (ofLines outcomes).lines) : .ok line ∈ outcomes := by
  fun_induction ofLines outcomes with
  | case1 => cases member
  | case2 => cases member
  | case3 first rest induction =>
      rcases List.mem_cons.mp member with rfl | later
      · exact List.mem_cons_self
      · exact List.mem_cons_of_mem _ (induction later)

end Plan

namespace Tracing

/-- An audit knows whether the empty clause was added. -/
def Watched (emitted : List Line) (audit : Option Audit) : Prop :=
  ∀ watch, audit = some watch → watch.emptyAdded = emitted.contains Line.addEmpty

theorem Watched.forget {emitted : List Line} {audit : Option Audit}
    (watched : Watched emitted audit) (sources : List UInt32) :
    Watched emitted (audit.map fun watch => { watch with sources }) := by
  intro watch same
  obtain ⟨earlier, found, rfl⟩ := Option.map_eq_some_iff.mp same
  exact watched earlier found

theorem exists_watched (audit : Option Audit) : ∃ emitted, Watched emitted audit := by
  cases audit with
  | none => exact ⟨[], nofun⟩
  | some audit =>
      cases added : audit.emptyAdded with
      | false => exact ⟨[], by rintro watch ⟨⟩; rw [added]; rfl⟩
      | true => exact ⟨[Line.addEmpty], by rintro watch ⟨⟩; rw [added]; rfl⟩

theorem noteDraft_cases {tracer : Tracer} {emitted : List Line}
    (watched : Watched emitted tracer.audit) (action : Action) :
    (Plan.lineOf (Plan.barsEmpty tracer.audit.isSome emitted) action (.ok tracer.draft) =
        .error .emptyClauseAgain ∧
      tracer.noteDraft action = .ok (.error .emptyClauseAgain)) ∨
    (Plan.lineOf (Plan.barsEmpty tracer.audit.isSome emitted) action (.ok tracer.draft) =
        .ok ⟨action, tracer.draft⟩ ∧
      ∃ audit, tracer.noteDraft action = .ok (.ok { tracer with audit }) ∧
        audit.isSome = tracer.audit.isSome ∧
        Watched (emitted ++ [⟨action, tracer.draft⟩]) audit) := by
  cases action with
  | delete =>
      right
      refine ⟨Plan.lineOf_delete _ _, tracer.audit, rfl, rfl, ?_⟩
      intro watch present
      rw [Line.contains_addEmpty_snoc, Line.delete_beq_addEmpty, Bool.or_false]
      exact watched watch present
  | add =>
      rw [Plan.lineOf_add]
      unfold Tracer.noteDraft
      cases present : tracer.audit with
      | none =>
          right
          refine ⟨rfl, none, ?_, rfl, fun _ absent => by cases absent⟩
          cases tracer
          cases present
          rfl
      | some audit =>
          have known := watched audit present
          dsimp only
          rcases audit.note_words tracer.draft with
            ⟨empty, again, refused⟩ | ⟨fresh, noted, passed, now⟩
          · left
            rw [refused]
            rw [known] at again
            refine ⟨if_pos ?_, rfl⟩
            rw [Plan.barsEmpty, again, empty]
            rfl
          · right
            rw [passed]
            rw [known] at fresh now
            refine ⟨if_neg ?_, some noted, rfl, rfl, ?_⟩
            · intro barred
              simp only [Plan.barsEmpty, Option.isSome_some, Bool.true_and, Bool.and_eq_true,
                List.isEmpty_iff] at barred
              exact fresh ⟨barred.2, barred.1⟩
            · rintro watch ⟨⟩
              rw [Line.contains_addEmpty_snoc, Line.add_beq_addEmpty]
              exact now

/-- Whatever was emitted before, an addition is refused as one of the empty clause, or it passes. -/
theorem noteDraft_passes (tracer : Tracer) (action : Action) :
    tracer.noteDraft action = .ok (.error .emptyClauseAgain) ∨
      ∃ audit, tracer.noteDraft action = .ok (.ok { tracer with audit }) := by
  obtain ⟨emitted, watched⟩ := exists_watched tracer.audit
  rcases noteDraft_cases watched action with ⟨_, refused⟩ | ⟨_, audit, noted, _⟩
  · exact Or.inl refused
  · exact Or.inr ⟨audit, noted⟩

end Tracing

end ClauseExchange
