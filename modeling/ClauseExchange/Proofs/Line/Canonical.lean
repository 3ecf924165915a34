import ClauseExchange.Proofs.Line.Reading

/-!
Without a separator in it, a record in binary is read just where it is what the encoder writes, so two
records never stand for one line. Numbers that break off, that take more than five bytes or that stand
for no literal are refused.
-/

namespace ClauseExchange

theorem Action.ofByte?_eq_some_iff {byte : UInt8} {action : Action} :
    ofByte? byte = some action ↔ byte = action.byte := by
  constructor
  · intro read
    unfold ofByte? at read
    split at read
    case isTrue => grind
    case isFalse => grind
  · rintro rfl
    exact action.ofByte?_byte

namespace Literal

theorem ofGroups?_eq_some_iff {groups : Bytes} {literal : Literal} :
    ofGroups? groups = some literal ↔
      groups.length ≤ 5 ∧ literal.code = Base128.value groups := by
  unfold ofGroups?
  by_cases few : groups.length ≤ 5
  · simp [few, ofCode?_eq_some_iff]
  · simp [few]

theorem bounds_of_ofGroups? {groups : Bytes} {literal : Literal}
    (read : ofGroups? groups = some literal) :
    groups.length ≤ 5 ∧ 2 ≤ Base128.value groups ∧ Base128.value groups < 2 ^ 32 := by
  obtain ⟨few, code⟩ := ofGroups?_eq_some_iff.mp read
  rw [← code]
  exact ⟨few, literal.two_le_code, literal.code_lt⟩

end Literal

namespace Line

/-- A line as its action and the words of its literals. -/
def inWords (line : Line) : Action × List Int32 :=
  (line.action, line.literals.map Literal.word)

theorem readBinary?_eq_some_iff {record : Bytes} {line : Line} :
    readBinary? record = some line ↔
      ∃ numbers : List Bytes, record = line.action.byte :: numbers.flatten ∧
        (∀ number ∈ numbers, Base128.Numeral number) ∧
        List.Forall₂ (fun number literal => Literal.ofGroups? number = some literal) numbers
          line.literals := by
  cases record with
  | nil => simp [readBinary?]
  | cons first codes =>
      obtain ⟨action, literals⟩ := line
      simp only [readBinary?, Option.bind_eq_bind, Option.bind_eq_some_iff,
        Action.ofByte?_eq_some_iff, mapM_eq_some_iff, Base128.split?_eq_some_iff,
        Option.pure_def, Option.some.injEq, Line.mk.injEq, List.cons.injEq]
      constructor
      · rintro ⟨_, rfl, numbers, ⟨rfl, whole⟩, _, read, rfl, rfl⟩
        exact ⟨numbers, ⟨rfl, rfl⟩, whole, read⟩
      · rintro ⟨numbers, ⟨rfl, rfl⟩, whole, read⟩
        exact ⟨action, rfl, numbers, ⟨rfl, whole⟩, literals, read, rfl, rfl⟩

theorem flatten_eq_flatMap_encodeBinary {numbers : List Bytes} {literals : List Literal}
    (whole : ∀ number ∈ numbers, Base128.Numeral number) (free : ∀ number ∈ numbers, 0 ∉ number)
    (read : List.Forall₂ (fun number literal => Literal.ofGroups? number = some literal) numbers
      literals) :
    numbers.flatten = literals.flatMap Literal.encodeBinary := by
  induction read with
  | nil => rfl
  | @cons number literal numbers literals first rest induction =>
      simp only [List.forall_mem_cons] at whole free
      have code := (Literal.ofGroups?_eq_some_iff.mp first).2
      have canonical : literal.encodeBinary = number := by
        rw [Literal.encodeBinary, code, whole.1.encode_value free.1]
      simp [canonical, induction whole.2 free.2]

/-- Without a zero byte, a record that is read is the record of the line it is read as. -/
theorem record_of_readBinary? {record : Bytes} {line : Line} (free : 0 ∉ record)
    (read : readBinary? record = some line) : line.record .binary = record := by
  obtain ⟨numbers, rfl, whole, literals⟩ := readBinary?_eq_some_iff.mp read
  have apart : ∀ number ∈ numbers, 0 ∉ number := by
    intro number member zero
    apply free
    exact List.mem_cons_of_mem _ (List.mem_flatten.mpr ⟨number, member, zero⟩)
  exact congrArg _ (flatten_eq_flatMap_encodeBinary whole apart literals).symm

theorem readBinary?_eq_none_of_unfinished (front : Bytes) {last : UInt8} (high : ¬last < 128) :
    readBinary? (front ++ [last]) = none := by
  cases front with
  | nil =>
      have refused : Action.ofByte? last = none := by
        apply Option.eq_none_iff_forall_ne_some.mpr
        intro action read
        apply high
        rw [Action.ofByte?_eq_some_iff.mp read]
        cases action <;> decide
      simp [readBinary?, refused]
  | cons first codes =>
      simp [readBinary?, Base128.split?_append_of_high codes high]

theorem readBinary?_eq_none_of_refused {first : UInt8} {codes : List Bytes} {code rest : Bytes}
    (whole : ∀ number ∈ codes, Base128.Numeral number) (numeral : Base128.Numeral code)
    (refused : 5 < code.length ∨ 2 ^ 32 ≤ Base128.value code ∨ Base128.value code < 2) :
    readBinary? (first :: (codes.flatten ++ (code ++ rest))) = none := by
  apply Option.eq_none_iff_forall_ne_some.mpr
  intro line read
  obtain ⟨numbers, same, wholeRead, literals⟩ := readBinary?_eq_some_iff.mp read
  have apart := Base128.split?_eq_some_iff.mpr ⟨(List.cons.inj same).2.symm, wholeRead⟩
  rw [Base128.split?_flatten_append whole, numeral.split?_append] at apart
  -- So the code is one of the numbers, and each of them stands for a literal.
  obtain ⟨joined, opened, rfl⟩ := Option.map_eq_some_iff.mp apart
  obtain ⟨others, -, rfl⟩ := Option.map_eq_some_iff.mp opened
  obtain ⟨literal, value⟩ := exists_of_forall₂ literals code (by simp)
  have bounds := Literal.bounds_of_ofGroups? value
  omega

/-- In binary, a record cut at the separators is read as a line just where it was written for it. The
records that are refused include those whose last number breaks off and those with a number that takes
too many bytes, is too great or is less than the least code. -/
structure ReadAsWritten (record : Bytes) : Prop where
  image (free : Encoding.binary.separator ∉ record) (action : Action) (words : List Int32) :
    (read? .binary record).map inWords = some (action, words) ↔
      (∀ word ∈ words, word ≠ 0 ∧ word ≠ Int32.minValue) ∧
        ∃ line : Line, line.inWords = (action, words) ∧
          line.encode .binary = record ++ [Encoding.binary.separator]
  single (free : Encoding.binary.separator ∉ record) {line : Line} {other : Bytes}
    (otherFree : Encoding.binary.separator ∉ other) (read : read? .binary record = some line)
    (readOther : read? .binary other = some line) : record = other
  unfinished {front : Bytes} {last : UInt8} (ends : record = front ++ [last])
    (high : 128 ≤ last) : read? .binary record = none
  refused {first : UInt8} {codes : List Bytes} {code rest : Bytes}
    (written : record = first :: (codes.flatten ++ (code ++ rest)))
    (whole : ∀ number ∈ codes, Base128.Numeral number) (numeral : Base128.Numeral code)
    (outside : 5 < code.length ∨ 2 ^ 32 ≤ Base128.value code ∨ Base128.value code < 2) :
    read? .binary record = none

theorem readAsWritten (record : Bytes) : ReadAsWritten record where
  image free action words := by
    simp only [Option.map_eq_some_iff]
    constructor
    · rintro ⟨line, read, spelled⟩
      obtain ⟨rfl, rfl⟩ := Prod.mk.inj spelled
      refine ⟨?_, line, rfl, ?_⟩
      · simp [Literal.word_valid]
      · rw [encode, record_of_readBinary? free read]
    · rintro ⟨-, line, spelled, written⟩
      have same : line.record .binary = record := List.append_cancel_right written
      exact ⟨line, same ▸ line.read?_record .binary, spelled⟩
  single free _ _ otherFree read readOther := by
    rw [← record_of_readBinary? free read, record_of_readBinary? otherFree readOther]
  unfinished ends high := by
    rw [ends]
    exact readBinary?_eq_none_of_unfinished _ (UInt8.not_lt.mpr high)
  refused written whole numeral outside := by
    rw [written]
    exact readBinary?_eq_none_of_refused whole numeral outside

/-- The greatest code there is, and the least that is too great, each in five bytes. -/
def greatestCode : Bytes := [255, 255, 255, 255, 15]

def tooGreatCode : Bytes := [128, 128, 128, 128, 16]

theorem readAsWritten_bounds :
    (read? .binary (97 :: greatestCode)).map inWords = some (.add, [-2147483647]) ∧
      read? .binary (97 :: tooGreatCode) = none := by
  constructor
  · apply ((readAsWritten (97 :: greatestCode)).image (by decide) .add [-2147483647]).mpr
    refine ⟨List.forall_mem_singleton.mpr (by decide), ?_⟩
    exact ⟨⟨.add, [⟨-2147483647, by decide, by decide⟩]⟩, by decide, by decide +kernel⟩
  · have numeral : Base128.Numeral tooGreatCode :=
      .more (by decide) (.more (by decide) (.more (by decide) (.more (by decide) (.last (by decide)))))
    have written : 97 :: tooGreatCode = 97 :: (List.flatten [] ++ (tooGreatCode ++ [])) := rfl
    exact (readAsWritten (97 :: tooGreatCode)).refused written nofun numeral
      (Or.inr (Or.inl (by decide)))

end Line

end ClauseExchange
