import ClauseExchange.Proofs.Store.Census
import Mathlib.Data.List.Induction
import Mathlib.Logic.Function.Basic
import Mathlib.Order.Bounds.Basic

/-!
The traffic of several writers in one store. Each lays down its own records under successive numbers
from zero on, and none looks at what the others have written. So the store has under a number what the
last writer to come there has left, and numbers are written once only as long as one writes alone.
-/

namespace ClauseExchange.Store

/-- A deed that sets no value. -/
def Deed.LeavesValues : Deed → Prop
  | .set _ _ => False
  | _ => True

theorem value?_undergo_of_leavesValues {deed : Deed} (leaves : deed.LeavesValues) (store : Store)
    (key : String) : (store.undergo deed).value? key = store.value? key := by
  rcases store.undergo_cases deed with same | ⟨_, rfl, after⟩ | ⟨_, rfl, after⟩ |
      ⟨_, _, rfl, _⟩ | ⟨_, _, rfl, after⟩
  · rw [same]
  · rw [after]
    rfl
  · rw [after]
    rfl
  · exact leaves.elim
  · rw [after]
    rfl

theorem Receives.value?_cases {number : Nat} {records : List Bytes} {before after : Store}
    (received : Receives number records before after) (key : String) :
    (∃ index record, records[index]? = some record ∧ Key.outgoing (number + index) = key ∧
        after.value? key = some record) ∨
      (∀ index < records.length, Key.outgoing (number + index) ≠ key) ∧
        after.value? key = before.value? key := by
  by_cases written : ∃ index < records.length, Key.outgoing (number + index) = key
  · obtain ⟨index, inside, rfl⟩ := written
    have held := List.getElem?_eq_getElem inside
    exact Or.inl ⟨index, _, held, rfl, received.value? held⟩
  · have other : ∀ index < records.length, Key.outgoing (number + index) ≠ key :=
      fun index inside same => written ⟨index, inside, same⟩
    exact Or.inr ⟨other, received.value?_of_ne other⟩

variable {ι : Type}

/-- As many values are counted as the writer with the most records has passed numbers. -/
theorem count_of_passed {store : Store} {most : Nat} {records : ι → List Bytes}
    (passed : ∀ key, (Key.lead Key.outgoingStem).toList.isPrefixOf key.toList = true →
      ((store.value? key).isSome = true ↔
        ∃ who number, number < (records who).length ∧ Key.outgoing number = key))
    (largest : IsLUB (Set.range fun who => (records who).length) most) :
    store.count Key.outgoingStem = most := by
  rw [count_eq_of_numbered (List.nodup_range (n := most)), List.length_range]
  intro key led
  rw [passed key led]
  constructor
  · rintro ⟨who, number, short, rfl⟩
    have below : (records who).length ≤ most := largest.1 ⟨who, rfl⟩
    exact ⟨number, List.mem_range.mpr (short.trans_le below), rfl⟩
  · rintro ⟨number, inside, rfl⟩
    by_contra missed
    have bound : most ≤ number := by
      apply largest.2
      rintro _ ⟨who, rfl⟩
      by_contra beyond
      exact missed ⟨who, number, Nat.lt_of_not_le beyond, rfl⟩
    exact absurd (List.mem_range.mp inside) (Nat.not_lt_of_le bound)

/-- What is done to a store that has several writers. -/
inductive Act (ι : Type) where
  /-- A writer lays records down under the numbers that come after its own last one. -/
  | write (who : ι) (records : List Bytes)
  | undergo (deed : Deed)

variable [DecidableEq ι]

namespace Act

/-- What each writer has laid down after the act. -/
def lay (laid : ι → List Bytes) : Act ι → ι → List Bytes
  | .write who records => Function.update laid who (laid who ++ records)
  | .undergo _ => laid

def Reaches (laid : ι → List Bytes) (number : Nat) : Act ι → Prop
  | .write who records =>
      (laid who).length ≤ number ∧ number < (laid who).length + records.length
  | .undergo _ => False

/-- The act makes of one store the other. -/
def Moves (laid : ι → List Bytes) (before after : Store) : Act ι → Prop
  | .write who records => Receives (laid who).length records before after
  | .undergo deed => after = before.undergo deed

def LeavesValues : Act ι → Prop
  | .write _ _ => True
  | .undergo deed => deed.LeavesValues

theorem prefix_lay (act : Act ι) (laid : ι → List Bytes) (who : ι) :
    laid who <+: act.lay laid who := by
  cases act with
  | write writer records =>
      rw [lay]
      by_cases same : who = writer
      · subst same
        rw [Function.update_self]
        exact List.prefix_append _ _
      · have untouched := Function.update_of_ne same (laid writer ++ records) laid
        exact ⟨[], (List.append_nil _).trans untouched.symm⟩
  | undergo deed => exact List.prefix_rfl

end Act

/-- What each writer has laid down in the course of a log. -/
def laid (log : List (Act ι)) : ι → List Bytes :=
  log.foldl Act.lay fun _ => []

/-- The writer whose record came under a number last. -/
inductive LastWrote (number : Nat) : List (Act ι) → ι → Prop where
  | write {log : List (Act ι)} {who : ι} {records : List Bytes}
      (reaches : (Act.write who records).Reaches (laid log) number) :
      LastWrote number (log ++ [.write who records]) who
  | stays {log : List (Act ι)} {act : Act ι} {who : ι} (earlier : LastWrote number log who)
      (leaves : ¬act.Reaches (laid log) number) : LastWrote number (log ++ [act]) who

/-- No act reaches a number that is in use already. -/
inductive WriteOnce : List (Act ι) → Prop where
  | start : WriteOnce []
  | act {log : List (Act ι)} {act : Act ι} (earlier : WriteOnce log)
      (unused : ∀ number, act.Reaches (laid log) number → ∀ who, (laid log who).length ≤ number) :
      WriteOnce (log ++ [act])

variable {log : List (Act ι)} {act : Act ι} {who : ι} {number : Nat} {more : List Bytes}
  {store before after : Store}

theorem laid_snoc (log : List (Act ι)) (act : Act ι) : laid (log ++ [act]) = act.lay (laid log) := by
  unfold laid
  rw [List.foldl_append]
  rfl

theorem laid_write (log : List (Act ι)) (who : ι) (more : List Bytes) :
    laid (log ++ [.write who more]) = Function.update (laid log) who (laid log who ++ more) :=
  laid_snoc log (.write who more)

theorem prefix_laid (log : List (Act ι)) (act : Act ι) (who : ι) :
    laid log who <+: laid (log ++ [act]) who := by
  rw [laid_snoc]
  exact act.prefix_lay (laid log) who

theorem lastWrote_snoc_iff : LastWrote number (log ++ [act]) who ↔
    (∃ records, act = .write who records ∧ act.Reaches (laid log) number) ∨
      LastWrote number log who ∧ ¬act.Reaches (laid log) number := by
  constructor
  · intro last
    generalize whole : log ++ [act] = longer at last
    cases last with
    | write reaches =>
        obtain ⟨rfl, same⟩ := List.append_inj' whole rfl
        cases same
        exact Or.inl ⟨_, rfl, reaches⟩
    | stays earlier leaves =>
        obtain ⟨rfl, same⟩ := List.append_inj' whole rfl
        cases same
        exact Or.inr ⟨earlier, leaves⟩
  · rintro (⟨records, rfl, reaches⟩ | ⟨earlier, leaves⟩)
    · exact .write reaches
    · exact .stays earlier leaves

theorem LastWrote.lt_length (last : LastWrote number log who) : number < (laid log who).length := by
  induction last with
  | write reaches =>
      rw [laid_write, Function.update_self, List.length_append]
      exact reaches.2
  | stays earlier leaves induction =>
      exact induction.trans_le (prefix_laid _ _ _).length_le

theorem eq_of_unused {writer : ι} {records : List Bytes} (some : records ≠ [])
    (unused : ∀ number, (Act.write writer records).Reaches (laid log) number →
      ∀ who, (laid log who).length ≤ number)
    (alone : ∀ who other, laid log who ≠ [] → laid log other ≠ [] → who = other)
    (wrote : laid (log ++ [.write writer records]) who ≠ []) : who = writer := by
  by_contra different
  rw [laid_write, Function.update_of_ne different] at wrote
  -- The first number that the act reaches lies past all that others have, so its writer has some too.
  have next : (Act.write writer records).Reaches (laid log) (laid log writer).length :=
    ⟨Nat.le_refl _, Nat.lt_add_of_pos_right (List.length_pos_iff.mpr some)⟩
  have short := unused _ next who
  have before : laid log writer ≠ [] := by
    rw [← List.length_pos_iff] at wrote ⊢
    omega
  exact different (alone who writer wrote before)

theorem WriteOnce.alone (once : WriteOnce log) (who other : ι) :
    laid log who ≠ [] → laid log other ≠ [] → who = other := by
  induction once generalizing who other with
  | start => exact fun wrote => absurd rfl wrote
  | @act log act _ unused induction =>
      intro wrote wroteOther
      cases act with
      | undergo deed =>
          rw [laid_snoc] at wrote wroteOther
          exact induction who other wrote wroteOther
      | write writer records =>
          by_cases none : records = []
          · rw [laid_write, none, List.append_nil, Function.update_eq_self] at wrote wroteOther
            exact induction who other wrote wroteOther
          · have first := eq_of_unused none unused induction wrote
            have second := eq_of_unused none unused induction wroteOther
            exact first.trans second.symm

theorem writeOnce_of_alone
    (alone : ∀ who other, laid log who ≠ [] → laid log other ≠ [] → who = other) :
    WriteOnce log := by
  induction log using List.reverseRecOn with
  | nil => exact .start
  | append_singleton log act induction =>
      have wrote {who : ι} (some : laid log who ≠ []) : laid (log ++ [act]) who ≠ [] :=
        (prefix_laid log act who).ne_nil some
      have earlier : WriteOnce log :=
        induction fun who other some also => alone who other (wrote some) (wrote also)
      refine .act earlier ?_
      intro number reaches who
      cases act with
      | undergo deed => exact reaches.elim
      | write writer records =>
          obtain ⟨start, stop⟩ := reaches
          have written : laid (log ++ [.write writer records]) writer ≠ [] := by
            rw [laid_write, Function.update_self, ← List.length_pos_iff, List.length_append]
            omega
          by_contra beyond
          have some : laid log who ≠ [] := by
            rw [← List.length_pos_iff]
            omega
          obtain rfl := alone who writer (wrote some) written
          exact beyond start

/-- Numbers are written once only as long as there is no second writer. -/
theorem writeOnce_iff : WriteOnce log ↔
    ∀ who other, laid log who ≠ [] → laid log other ≠ [] → who = other :=
  ⟨WriteOnce.alone, writeOnce_of_alone⟩

/-- The records of several writers as one store has them. -/
structure Files (store : Store) (log : List (Act ι)) : Prop where
  /-- Of the numbered keys, those are in use that some writer has passed. -/
  used : ∀ key, (Key.lead Key.outgoingStem).toList.isPrefixOf key.toList = true →
    ((store.value? key).isSome = true ↔
      ∃ who number, number < (laid log who).length ∧ Key.outgoing number = key)
  /-- Under a number stands the record of the writer that came to it last. -/
  last : ∀ number record, store.value? (Key.outgoing number) = some record ↔
    ∃ who, LastWrote number log who ∧ (laid log who)[number]? = some record
  /-- As many values are counted as the writer with the most records has. -/
  count : IsLUB (Set.range fun who => (laid log who).length) (store.count Key.outgoingStem)

namespace Files

theorem empty (unused : store.count Key.outgoingStem = 0) : Files store ([] : List (Act ι)) where
  used := by
    intro key led
    rw [value?_eq_none_of_count unused led]
    exact ⟨nofun, nofun⟩
  last := by
    intro number record
    have none : store.value? (Key.outgoing number) = none :=
      value?_eq_none_of_count unused (Key.isPrefixOf_numbered _ number)
    rw [none]
    constructor
    · exact nofun
    · rintro ⟨who, last, _⟩
      exact absurd last.lt_length (Nat.not_lt_zero number)
  count := by
    rw [unused]
    refine ⟨?_, fun bound _ => Nat.zero_le bound⟩
    rintro _ ⟨who, rfl⟩
    exact Nat.le_refl 0

/-- A number that an act leaves alone keeps its last writer. -/
theorem last_snoc_iff (leaves : ¬act.Reaches (laid log) number) (record : Bytes) :
    (∃ who, LastWrote number (log ++ [act]) who ∧ (laid (log ++ [act]) who)[number]? = some record) ↔
      ∃ who, LastWrote number log who ∧ (laid log who)[number]? = some record := by
  constructor
  · rintro ⟨who, last, held⟩
    rcases lastWrote_snoc_iff.mp last with ⟨_, _, reaches⟩ | ⟨earlier, _⟩
    · exact absurd reaches leaves
    · refine ⟨who, earlier, ?_⟩
      obtain ⟨more, grown⟩ := prefix_laid log act who
      rwa [← grown, List.getElem?_append_left earlier.lt_length] at held
  · rintro ⟨who, last, held⟩
    exact ⟨who, .stays last leaves, getElem?_of_prefix (prefix_laid log act who) held⟩

theorem used_write (files : Files before log)
    (received : Receives (laid log who).length more before after) (key : String)
    (led : (Key.lead Key.outgoingStem).toList.isPrefixOf key.toList = true) :
    (after.value? key).isSome = true ↔ ∃ other number,
      number < (laid (log ++ [.write who more]) other).length ∧ Key.outgoing number = key := by
  rcases received.value?_cases key with ⟨index, record, held, rfl, here⟩ | ⟨elsewhere, same⟩
  · have inside := (List.getElem?_eq_some_iff.mp held).1
    rw [here]
    refine ⟨fun _ => ⟨who, _, ?_, rfl⟩, fun _ => rfl⟩
    rw [laid_write, Function.update_self, List.length_append]
    omega
  · rw [same, files.used key led]
    constructor
    · rintro ⟨other, number, passed, rfl⟩
      exact ⟨other, number, passed.trans_le (prefix_laid log _ other).length_le, rfl⟩
    · rintro ⟨other, number, passed, rfl⟩
      by_cases self : other = who
      · subst self
        rw [laid_write, Function.update_self, List.length_append] at passed
        by_cases early : number < (laid log other).length
        · exact ⟨other, number, early, rfl⟩
        · obtain ⟨index, rfl⟩ := Nat.exists_eq_add_of_le (Nat.le_of_not_lt early)
          exact absurd rfl (elsewhere index (by omega))
      · rw [laid_write, Function.update_of_ne self] at passed
        exact ⟨other, number, passed, rfl⟩

theorem last_write (files : Files before log)
    (received : Receives (laid log who).length more before after) (number : Nat) (record : Bytes) :
    after.value? (Key.outgoing number) = some record ↔ ∃ other,
      LastWrote number (log ++ [.write who more]) other ∧
        (laid (log ++ [.write who more]) other)[number]? = some record := by
  by_cases reaches : (Act.write who more).Reaches (laid log) number
  · obtain ⟨start, stop⟩ := reaches
    obtain ⟨index, rfl⟩ := Nat.exists_eq_add_of_le start
    have inside : index < more.length := Nat.lt_of_add_lt_add_left stop
    have held := List.getElem?_eq_getElem inside
    have own : (laid (log ++ [.write who more]) who)[(laid log who).length + index]? =
        some more[index] := by
      rw [laid_write, Function.update_self, List.getElem?_append_right start, Nat.add_sub_cancel_left,
        held]
    rw [received.value? held]
    constructor
    · intro same
      exact ⟨who, .write ⟨start, stop⟩, own.trans same⟩
    · rintro ⟨other, last, there⟩
      rcases lastWrote_snoc_iff.mp last with ⟨records, same, _⟩ | ⟨_, leaves⟩
      · cases same
        exact own.symm.trans there
      · exact absurd ⟨start, stop⟩ leaves
  · have unchanged : after.value? (Key.outgoing number) = before.value? (Key.outgoing number) := by
      apply received.value?_of_ne
      intro index inside same
      apply reaches
      rw [← Key.outgoing_injective same]
      exact ⟨Nat.le_add_right _ _, Nat.add_lt_add_left inside _⟩
    rw [unchanged, files.last]
    exact (last_snoc_iff reaches record).symm

theorem isLUB_write {most : Nat}
    (largest : IsLUB (Set.range fun who => (laid log who).length) most) (who : ι)
    (more : List Bytes) :
    IsLUB (Set.range fun other => (laid (log ++ [.write who more]) other).length)
      (max most (laid log who ++ more).length) := by
  constructor
  · rintro _ ⟨other, rfl⟩
    dsimp only
    by_cases self : other = who
    · subst self
      rw [laid_write, Function.update_self]
      exact Nat.le_max_right _ _
    · rw [laid_write, Function.update_of_ne self]
      exact (largest.1 ⟨other, rfl⟩).trans (Nat.le_max_left _ _)
  · intro bound bounds
    apply Nat.max_le.mpr
    constructor
    · apply largest.2
      rintro _ ⟨other, rfl⟩
      exact (prefix_laid log _ other).length_le.trans (bounds ⟨other, rfl⟩)
    · have own := bounds ⟨who, rfl⟩
      dsimp only at own
      rwa [laid_write, Function.update_self] at own

/-- Whatever an act does, the store has the records of the writers on file after it. -/
theorem moves (files : Files before log) (moved : act.Moves (laid log) before after)
    (leaves : act.LeavesValues) : Files after (log ++ [act]) := by
  cases act with
  | write who more =>
      constructor
      case used => exact files.used_write moved
      case last => exact files.last_write moved
      case count =>
        have largest := isLUB_write files.count who more
        rwa [count_of_passed (files.used_write moved) largest]
  | undergo deed =>
      obtain rfl : after = before.undergo deed := moved
      have same := value?_undergo_of_leavesValues leaves before
      have untouched : laid (log ++ [.undergo deed]) = laid log := laid_snoc log _
      have used : ∀ key, (Key.lead Key.outgoingStem).toList.isPrefixOf key.toList = true →
          (((before.undergo deed).value? key).isSome = true ↔
            ∃ who number, number < (laid log who).length ∧ Key.outgoing number = key) := by
        intro key led
        rw [same]
        exact files.used key led
      constructor
      case used =>
        rw [untouched]
        exact used
      case last =>
        intro number record
        rw [same, files.last]
        exact (last_snoc_iff id record).symm
      case count =>
        rw [untouched, count_of_passed used files.count]
        exact files.count

end Files

end ClauseExchange.Store
