import ClauseExchange.Proofs.Doubling
import ClauseExchange.Proofs.Tracer.Trail
import Mathlib.Data.Set.Insert

/-!
What an audit knows of a proof: whether the empty clause was added, and which units were. Its table of
units is as large as the units need, and what is marked in it stays so when it grows.
-/

namespace ClauseExchange

namespace UnitTable

theorem sizeFor_isLeast (index : Nat) {size : Nat} (doubled : size ∈ doublings 2) :
    IsLeast {other ∈ doublings 2 | size ≤ other ∧ index < other} (sizeFor index size) := by
  fun_induction sizeFor index size with
  | case1 induction => exact absurd (le_of_mem_doublings doubled) (by decide)
  | case2 size nonzero small induction =>
      obtain ⟨⟨member, larger, above⟩, least⟩ := induction (double_mem_doublings doubled)
      refine ⟨⟨member, by omega, above⟩, ?_⟩
      intro other enough
      obtain ⟨further, _, beyond⟩ := enough
      apply least
      exact ⟨further, double_le_of_lt doubled further (Nat.lt_of_le_of_lt small beyond), beyond⟩
  | case3 size nonzero large =>
      exact ⟨⟨doubled, Nat.le_refl size, Nat.lt_of_not_le large⟩, fun _ further => further.2.1⟩

/-- The indices that are marked, in a table that is no larger than they need. -/
structure Marks (indices : Set Nat) (table : UnitTable) : Prop where
  marked : ∀ index, index ∈ table.marked ↔ index ∈ indices
  unsized : indices = ∅ → table.size = 0
  sized : indices.Nonempty →
    IsLeast {size ∈ doublings 2 | ∀ index ∈ indices, index < size} table.size

variable {indices : Set Nat} {table : UnitTable}

theorem Marks.isMarked_iff (marks : Marks indices table) (index : Nat) :
    table.isMarked index = true ↔ index ∈ indices := by
  unfold isMarked
  rw [Bool.and_eq_true, decide_eq_true_eq, List.contains_iff_mem, marks.marked]
  refine ⟨And.right, ?_⟩
  intro member
  exact ⟨(marks.sized ⟨index, member⟩).1.2 index member, member⟩

theorem Marks.reserve (marks : Marks indices table) (index : Nat) :
    IsLeast {size ∈ doublings 2 | ∀ other ∈ insert index indices, other < size}
      (table.reserve index).size := by
  simp only [Set.forall_mem_insert]
  -- A table without marks has the size zero, which is none of the doubled ones.
  rcases indices.eq_empty_or_nonempty with rfl | some
  · have first : (table.reserve index).size = sizeFor index 2 := by
      rw [UnitTable.reserve, marks.unsized rfl, if_pos (Nat.zero_le index), sizeFor, if_pos rfl]
    obtain ⟨⟨member, _, above⟩, least⟩ := sizeFor_isLeast index (self_mem_doublings 2)
    rw [first]
    refine ⟨⟨member, above, nofun⟩, ?_⟩
    intro size enough
    obtain ⟨further, beyond, _⟩ := enough
    exact least ⟨further, le_of_mem_doublings further, beyond⟩
  · have sized := marks.sized some
    unfold UnitTable.reserve
    split
    case isTrue small =>
      obtain ⟨⟨member, larger, above⟩, least⟩ := sizeFor_isLeast index sized.1.1
      refine ⟨⟨member, above, ?_⟩, ?_⟩
      · intro other marked
        exact Nat.lt_of_lt_of_le (sized.1.2 other marked) larger
      · intro size enough
        obtain ⟨further, beyond, others⟩ := enough
        exact least ⟨further, sized.2 ⟨further, others⟩, beyond⟩
    case isFalse large =>
      exact isLeast_doublings_of_holds sized (fun _ => And.right)
        ⟨Nat.lt_of_not_le large, sized.1.2⟩

theorem Marks.mark? (marks : Marks indices table) {index : Nat} {after : UnitTable}
    (marked : (table.reserve index).mark? index = some after) :
    Marks (insert index indices) after := by
  unfold UnitTable.mark? at marked
  split at marked
  case isFalse => cases marked
  case isTrue room =>
    cases marked
    refine ⟨?_, fun none => absurd none (Set.insert_nonempty index indices).ne_empty,
      fun _ => marks.reserve index⟩
    intro other
    have kept : (table.reserve index).marked = table.marked := by
      unfold UnitTable.reserve
      split <;> rfl
    rw [List.mem_cons, Set.mem_insert_iff, kept, marks.marked]

end UnitTable

def unitIndices (emitted : List Line) : Set Nat :=
  {index | ∃ literal : Literal, (⟨.add, [literal]⟩ : Line) ∈ emitted ∧ literal.index = index}

theorem unitIndices_snoc_of_ne {line : Line} (many : ∀ literal : Literal, line ≠ ⟨.add, [literal]⟩)
    (emitted : List Line) : unitIndices (emitted ++ [line]) = unitIndices emitted := by
  simp [unitIndices, fun literal => (many literal).symm]

theorem unitIndices_snoc_unit (emitted : List Line) (literal : Literal) :
    unitIndices (emitted ++ [⟨.add, [literal]⟩]) =
      insert literal.index (unitIndices emitted) := by
  ext index
  simp [unitIndices, or_and_right, exists_or, or_comm, eq_comm]

namespace Audit

variable {emitted : List Line} {line : Line} {audit noted : Audit}

structure Tracks (emitted : List Line) (audit : Audit) : Prop where
  empty : audit.emptyAdded = true ↔ Line.addEmpty ∈ emitted
  once : emitted.count Line.addEmpty ≤ 1
  units : audit.units.Marks (unitIndices emitted)

theorem tracks_nil : Tracks [] {} where
  empty := by simp
  once := Nat.zero_le 1
  units := by
    have none : unitIndices [] = ∅ := by simp [unitIndices]
    rw [none]
    exact ⟨by simp, fun _ => rfl, fun some => absurd rfl some.ne_empty⟩

theorem Tracks.forget (tracks : Tracks emitted audit) (sources : List UInt32) :
    Tracks emitted { audit with sources } :=
  ⟨tracks.empty, tracks.once, tracks.units⟩

theorem Tracks.snoc (tracks : Tracks emitted audit) (nonempty : line ≠ Line.addEmpty)
    (units : UnitTable.Marks (unitIndices (emitted ++ [line])) noted.units)
    (same : noted.emptyAdded = audit.emptyAdded) : Tracks (emitted ++ [line]) noted := by
  refine ⟨?_, ?_, units⟩
  · simp [same, tracks.empty, nonempty.symm]
  · simp [List.count_append, nonempty, tracks.once]

theorem Tracks.snoc_of_ne (tracks : Tracks emitted audit) (nonempty : line ≠ Line.addEmpty)
    (many : ∀ literal : Literal, line ≠ ⟨.add, [literal]⟩) : Tracks (emitted ++ [line]) audit := by
  apply tracks.snoc nonempty _ rfl
  rw [unitIndices_snoc_of_ne many]
  exact tracks.units

theorem Tracks.note (tracks : Tracks emitted audit) {literals : List Literal}
    (passed : audit.note (literals.map Literal.word) = .ok (.ok noted)) :
    Tracks (emitted ++ [⟨.add, literals⟩]) noted := by
  match literals with
  | [] =>
      simp only [List.map_nil, Audit.note] at passed
      split at passed
      case isTrue => cases passed
      case isFalse fresh =>
        cases passed
        have first : Line.addEmpty ∉ emitted := mt tracks.empty.mpr fresh
        change Tracks (emitted ++ [Line.addEmpty]) _
        refine ⟨by simp, ?_, ?_⟩
        · simp [List.count_append, List.count_eq_zero_of_not_mem first]
        · rw [unitIndices_snoc_of_ne (by simp [Line.addEmpty])]
          exact tracks.units
  | [literal] =>
      simp only [List.map_cons, List.map_nil, Audit.note, Literal.ofWord?_word] at passed
      split at passed
      case h_1 => cases passed
      case h_2 units marked =>
        cases passed
        have grown : units.Marks (unitIndices (emitted ++ [⟨.add, [literal]⟩])) := by
          rw [unitIndices_snoc_unit]
          exact tracks.units.mark? marked
        exact tracks.snoc (by simp [Line.addEmpty]) grown rfl
  | first :: second :: rest =>
      cases passed
      exact tracks.snoc_of_ne (by simp [Line.addEmpty]) (by simp)

end Audit

namespace Tracing

variable {emitted : List Line} {line : Line} {start tracing drafted : Tracing} {audit : Audit}

theorem Drafts.tracks (drafts : Drafts line tracing drafted)
    (present : tracing.tracer.audit = some audit) (tracks : audit.Tracks emitted) :
    ∃ noted, drafted.tracer.audit = some noted ∧ noted.Tracks (emitted ++ [line]) := by
  obtain ⟨sources, noting⟩ := drafts.noted
  obtain ⟨action, literals⟩ := line
  have kept : (tracing.tracer.setDraft literals sources).audit = some { audit with sources } := by
    simp [Tracer.setDraft, present]
  unfold Tracer.noteDraft at noting
  rw [kept] at noting
  cases action with
  | delete =>
      have same := Except.ok.inj (Except.ok.inj noting)
      refine ⟨{ audit with sources }, by rw [← same, kept], ?_⟩
      exact (tracks.forget sources).snoc_of_ne (by simp [Line.addEmpty]) (by simp)
  | add =>
      dsimp only at noting
      split at noting
      case h_1 => cases noting
      case h_2 => cases noting
      case h_3 noted passed =>
        have same := Except.ok.inj (Except.ok.inj noting)
        exact ⟨noted, by rw [← same], (tracks.forget sources).note passed⟩

theorem Trail.tracks (trail : Trail start emitted tracing) (watched : start.tracer.audit = some {}) :
    ∃ audit, tracing.tracer.audit = some audit ∧ audit.Tracks emitted := by
  induction trail with
  | start => exact ⟨{}, watched, Audit.tracks_nil⟩
  | note _ _ induction => exact induction
  | undergo _ _ induction => exact induction
  | clearDraft _ induction =>
      obtain ⟨audit, present, tracks⟩ := induction
      refine ⟨_, ?_, tracks.forget []⟩
      simp [Tracing.clearDraft, Tracer.clearDraft, present]
  | @flush _ tracing _ _ _ sent induction =>
      obtain ⟨audit, present, tracks⟩ := induction
      have flushing := tracing.flush_yields
      rw [sent] at flushing
      refine ⟨audit, ?_, tracks⟩
      rw [flushing.2.1]
      exact present
  | @line _ line _ drafted _ _ drafts wrote induction =>
      obtain ⟨audit, present, tracks⟩ := induction
      obtain ⟨noted, passed, tracksAfter⟩ := drafts.tracks present tracks
      have writing := drafted.writeDraft_emits line.action
      rw [wrote] at writing
      refine ⟨_, ?_, tracksAfter.forget []⟩
      rw [writing.2.2, passed]
      rfl

end Tracing

namespace Audit

variable {emitted : List Line} {audit : Audit}

/-- What an audit can be asked for, by the lines that were emitted. -/
structure Mirrors (emitted : List Line) (audit : Audit) : Prop where
  empty : audit.emptyAdded = true ↔ Line.addEmpty ∈ emitted
  once : emitted.count Line.addEmpty ≤ 1
  unit : ∀ word : Int32, audit.hasUnit word = true ↔
    ∃ literal : Literal, literal.word = word ∧ (⟨.add, [literal]⟩ : Line) ∈ emitted
  unsized : (∀ literal : Literal, (⟨.add, [literal]⟩ : Line) ∉ emitted) → audit.units.size = 0
  sized : (∃ literal : Literal, (⟨.add, [literal]⟩ : Line) ∈ emitted) →
    IsLeast {size | (∃ times, size = 2 * 2 ^ times) ∧
      ∀ literal : Literal, (⟨.add, [literal]⟩ : Line) ∈ emitted → literal.index < size}
      audit.units.size

theorem Tracks.hasUnit_iff (tracks : Tracks emitted audit) (word : Int32) :
    audit.hasUnit word = true ↔
      ∃ literal : Literal, literal.word = word ∧ (⟨.add, [literal]⟩ : Line) ∈ emitted := by
  unfold hasUnit
  cases read : Literal.ofWord? word with
  | none =>
      refine iff_of_false Bool.false_ne_true ?_
      intro added
      obtain ⟨literal, rfl, _⟩ := added
      rw [Literal.ofWord?_word] at read
      cases read
  | some literal =>
      have same := Literal.ofWord?_eq_some_iff.mp read
      subst same
      dsimp only
      rw [tracks.units.isMarked_iff]
      constructor
      · intro marked
        obtain ⟨other, added, index⟩ := marked
        cases Literal.index_injective index
        exact ⟨literal, rfl, added⟩
      · intro emitted
        obtain ⟨other, words, added⟩ := emitted
        have others := Literal.ofWord?_eq_some_iff.mpr words
        cases (Literal.ofWord?_word literal).symm.trans others
        exact ⟨literal, added, rfl⟩

theorem Tracks.mirrors (tracks : Tracks emitted audit) : Mirrors emitted audit where
  empty := tracks.empty
  once := tracks.once
  unit := tracks.hasUnit_iff
  unsized := by
    intro none
    apply tracks.units.unsized
    simp [unitIndices, none]
  sized := by
    intro some
    obtain ⟨literal, added⟩ := some
    have least := tracks.units.sized ⟨literal.index, literal, added, rfl⟩
    simpa [unitIndices, doublings] using least

end Audit

/-- After any run, an audit mirrors the additions of the proof: it knows of the empty clause, which was
added once at most, and of just those units that were added by themselves. Its table has the least size
that takes them in. -/
theorem Tracing.run_audit_mirrors_additions {σ : Type} (solver : Solver σ) (encoding : Encoding)
    (settings : Settings) (capacity : Nat) (channel : Channel) (steps : List (Tracing.Step σ)) :
    let start : Tracing :=
      ⟨Tracer.start encoding { settings with audit := true } capacity, channel⟩
    let emitted := Step.emitted solver true steps
    Yields (run solver steps start)
      (fun _ after => Trail start emitted after ∧
        ∃ audit, after.tracer.audit = some audit ∧ audit.Mirrors emitted)
      (Exhausted (channel.session.nextOutgoing + emitted.length)) := by
  intro start emitted
  refine (run_start_trails encoding { settings with audit := true } capacity channel solver
    steps).imp ?_ (fun _ _ exhausted => exhausted)
  intro _ after trail
  obtain ⟨audit, present, tracks⟩ := trail.tracks rfl
  exact ⟨trail, audit, present, tracks.mirrors⟩

end ClauseExchange
