import ClauseExchange.Line.Record
import ClauseExchange.Proofs.Literal
import ClauseExchange.Proofs.Numeral.Decimal
import Mathlib.Data.List.Basic

/-!
The separator of an encoding occurs in no record, so a line has it once, at its end.
-/

namespace ClauseExchange

theorem Base128.ne_zero_of_mem_encode {value : Nat} (positive : 0 < value) :
    ∀ group ∈ Base128.encode value, group ≠ 0 := by
  fun_induction Base128.encode value with
  | case1 value small =>
      intro group member
      rw [List.mem_singleton] at member
      subst member
      intro zero
      have zeroNumber := congrArg UInt8.toNat zero
      simp at zeroNumber
      omega
  | case2 value large induction =>
      intro group member
      rcases List.mem_cons.mp member with first | later
      · subst first
        intro zero
        have zeroNumber := congrArg UInt8.toNat zero
        simp at zeroNumber
        omega
      · exact induction (by omega) group later

/-- A numeral is written in digits and the minus sign, which are ASCII and all lie above the
space. -/
theorem Decimal.ascii_of_mem_ofInt {value : Int} :
    ∀ character ∈ Decimal.ofInt value, 32 < character.toNat ∧ character.toNat < 128 := by
  have digits : ∀ character ∈ Decimal.ofNat value.natAbs,
      32 < character.toNat ∧ character.toNat < 128 := by
    intro character member
    have digit := Decimal.isDigit_of_mem_ofNat character member
    simp only [Char.isDigit, Bool.and_eq_true, decide_eq_true_eq] at digit
    obtain ⟨least, greatest⟩ := digit
    have leastNumber := UInt32.le_iff_toNat_le.mp least
    have greatestNumber := UInt32.le_iff_toNat_le.mp greatest
    simp only [Char.toNat]
    constructor
    · exact Nat.lt_of_lt_of_le (by decide) leastNumber
    · exact Nat.lt_of_le_of_lt greatestNumber (by decide)
  intro character member
  unfold Decimal.ofInt at member
  split at member
  · rcases List.mem_cons.mp member with sign | digit
    · subst sign
      decide
    · exact digits character digit
  · exact digits character member

namespace Literal

theorem separator_not_mem_encodeBinary (literal : Literal) :
    Encoding.binary.separator ∉ literal.encodeBinary := by
  intro member
  have positive := Nat.lt_of_lt_of_le Nat.two_pos literal.two_le_code
  exact Base128.ne_zero_of_mem_encode positive _ member rfl

theorem separator_not_mem_encodeText (literal : Literal) :
    Encoding.text.separator ∉ literal.encodeText := by
  intro member
  rcases List.mem_append.mp member with numeral | space
  · obtain ⟨character, written, same⟩ := List.mem_map.mp numeral
    have bounds := Decimal.ascii_of_mem_ofInt character written
    have sameNumber := congrArg UInt8.toNat same
    simp [Encoding.separator] at sameNumber
    omega
  · exact absurd (List.mem_singleton.mp space) (by decide)

end Literal

theorem Action.byte_ne_separator (action : Action) (encoding : Encoding) :
    action.byte ≠ encoding.separator := by
  cases action <;> cases encoding <;> decide

namespace Line

theorem separator_not_mem_record (encoding : Encoding) (line : Line) :
    encoding.separator ∉ line.record encoding := by
  cases encoding with
  | binary =>
      intro member
      rcases List.mem_cons.mp member with first | code
      · exact line.action.byte_ne_separator _ first.symm
      · obtain ⟨literal, _, inside⟩ := List.mem_flatMap.mp code
        exact literal.separator_not_mem_encodeBinary inside
  | text =>
      intro member
      rcases List.mem_cons.mp member with first | rest
      · exact line.action.byte_ne_separator _ first.symm
      rcases List.mem_cons.mp rest with space | rest
      · exact absurd space (by decide)
      rcases List.mem_append.mp rest with numeral | zero
      · obtain ⟨literal, _, inside⟩ := List.mem_flatMap.mp numeral
        exact literal.separator_not_mem_encodeText inside
      · exact absurd (List.mem_singleton.mp zero) (by decide)

end Line

theorem separator_not_mem_records (encoding : Encoding) (lines : List Line) :
    ∀ record ∈ lines.map (Line.record encoding), encoding.separator ∉ record := by
  intro record member
  obtain ⟨line, _, rfl⟩ := List.mem_map.mp member
  exact line.separator_not_mem_record encoding

/-- Records written one after another, each ended by the separator. -/
def frame (separator : UInt8) (records : List Bytes) : Bytes :=
  records.flatMap fun record => record ++ [separator]

@[simp] theorem frame_nil (separator : UInt8) : frame separator [] = [] := rfl

@[simp] theorem frame_cons (separator : UInt8) (record : Bytes) (records : List Bytes) :
    frame separator (record :: records) = record ++ separator :: frame separator records := by
  simp [frame]

theorem frame_append (separator : UInt8) (first second : List Bytes) :
    frame separator (first ++ second) = frame separator first ++ frame separator second := by
  simp [frame]

theorem frame_records (encoding : Encoding) (lines : List Line) :
    frame encoding.separator (lines.map (Line.record encoding)) =
      lines.flatMap (Line.encode encoding) := by
  unfold frame
  rw [List.flatMap_map]
  rfl

/-- Any bytes are a row of framed records with an incomplete one after them. -/
theorem exists_frame (separator : UInt8) (bytes : Bytes) :
    ∃ records tail, bytes = frame separator records ++ tail ∧
      (∀ record ∈ records, separator ∉ record) ∧ separator ∉ tail := by
  induction bytes with
  | nil => exact ⟨[], [], rfl, nofun, List.not_mem_nil⟩
  | cons byte bytes induction =>
      obtain ⟨records, tail, rfl, free, tailFree⟩ := induction
      by_cases same : byte = separator
      · subst same
        refine ⟨[] :: records, tail, by simp, ?_, tailFree⟩
        exact List.forall_mem_cons.mpr ⟨List.not_mem_nil, free⟩
      · have other {rest : Bytes} (restFree : separator ∉ rest) : separator ∉ byte :: rest :=
          List.not_mem_cons_of_ne_of_not_mem (Ne.symm same) restFree
        cases records with
        | nil => exact ⟨[], byte :: tail, rfl, nofun, other tailFree⟩
        | cons record records =>
            obtain ⟨first, rest⟩ := List.forall_mem_cons.mp free
            refine ⟨(byte :: record) :: records, tail, by simp, ?_, tailFree⟩
            exact List.forall_mem_cons.mpr ⟨other first, rest⟩

theorem splitOn_frame_append {separator : UInt8} {records : List Bytes} {tail : Bytes}
    (free : ∀ record ∈ records, separator ∉ record) (tailFree : separator ∉ tail) :
    (frame separator records ++ tail).splitOn separator = records ++ [tail] := by
  induction records with
  | nil =>
      rw [frame_nil, List.nil_append, List.nil_append]
      exact List.splitOn_eq_singleton tailFree
  | cons record records induction =>
      have firstFree := free record List.mem_cons_self
      have restFree := fun other member => free other (List.mem_cons_of_mem record member)
      rw [frame_cons, List.append_assoc, List.cons_append,
        List.splitOn_append_cons_self_of_not_mem firstFree, induction restFree, List.cons_append]

theorem splitOn_frame {separator : UInt8} {records : List Bytes}
    (free : ∀ record ∈ records, separator ∉ record) :
    (frame separator records).splitOn separator = records ++ [[]] := by
  have split := splitOn_frame_append free (List.not_mem_nil (a := separator))
  rwa [List.append_nil] at split

/-- Framed records in front of some bytes are the first of the records that are read from all of it. -/
theorem exists_frame_of_append {separator : UInt8} {records front : List Bytes} {tail rest : Bytes}
    (same : frame separator front ++ rest = frame separator records ++ tail)
    (frontFree : ∀ record ∈ front, separator ∉ record)
    (free : ∀ record ∈ records, separator ∉ record) (tailFree : separator ∉ tail) :
    ∃ others, records = front ++ others ∧ rest = frame separator others ++ tail := by
  obtain ⟨others, last, rfl, othersFree, lastFree⟩ := exists_frame separator rest
  rw [← List.append_assoc, ← frame_append] at same
  have pieces := congrArg (List.splitOn separator) same
  rw [splitOn_frame_append (List.forall_mem_append.mpr ⟨frontFree, othersFree⟩) lastFree,
    splitOn_frame_append free tailFree] at pieces
  obtain ⟨rfl, tails⟩ := List.append_inj' pieces rfl
  cases tails
  exact ⟨others, rfl, rfl⟩

theorem count_frame {separator : UInt8} {records : List Bytes}
    (free : ∀ record ∈ records, separator ∉ record) :
    (frame separator records).count separator = records.length := by
  induction records with
  | nil => rfl
  | cons record records induction =>
      have firstFree := List.count_eq_zero.mpr (free record List.mem_cons_self)
      have restFree := fun other member => free other (List.mem_cons_of_mem record member)
      rw [frame_cons, List.count_append, firstFree, List.count_cons_self, induction restFree]
      simp

end ClauseExchange
