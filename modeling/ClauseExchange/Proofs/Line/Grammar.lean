import ClauseExchange.Proofs.Line.Canonical
import Mathlib.Data.List.Induction
import Mathlib.Data.Option.Basic

/-!
Textual records by their grammar. Between blanks stand the byte of the action and then numerals, each
an optional sign and digits; the last numeral is zero in some spelling, and the others are not.
-/

namespace ClauseExchange

namespace Ascii

/-- Digits in a row, the last one for the units, and the number they make up. -/
inductive Digits : List UInt8 → Nat → Prop
  | single {digit : UInt8} (low : 48 ≤ digit) (high : digit ≤ 57) :
      Digits [digit] (digit.toNat - 48)
  | snoc {row : List UInt8} {value : Nat} {digit : UInt8} (more : Digits row value)
      (low : 48 ≤ digit) (high : digit ≤ 57) :
      Digits (row ++ [digit]) (10 * value + (digit.toNat - 48))

/-- A numeral is a row of digits, with one sign in front of it or without. -/
inductive Numeral : List UInt8 → Int → Prop
  | plain {row : List UInt8} {value : Nat} (digits : Digits row value) : Numeral row value
  | plus {row : List UInt8} {value : Nat} (digits : Digits row value) : Numeral (43 :: row) value
  | minus {row : List UInt8} {value : Nat} (digits : Digits row value) : Numeral (45 :: row) (-value)

theorem toNat_decode (byte : UInt8) : (Char.ofNat byte.toNat).toNat = byte.toNat := by
  have bounded := byte.toNat_lt
  have valid : byte.toNat.isValidChar := Or.inl (by omega)
  unfold Char.ofNat
  rw [dif_pos valid]
  rfl

theorem isDigit_decode {byte : UInt8} :
    (Char.ofNat byte.toNat).isDigit = true ↔ 48 ≤ byte ∧ byte ≤ 57 := by
  have same := toNat_decode byte
  simp only [Char.isDigit, Bool.and_eq_true, decide_eq_true_eq, ge_iff_le, UInt32.le_iff_toNat_le,
    UInt8.le_iff_toNat_le]
  change 48 ≤ (Char.ofNat byte.toNat).toNat ∧ (Char.ofNat byte.toNat).toNat ≤ 57 ↔ _
  rw [same]
  rfl

theorem digits_iff {row : List UInt8} {value : Nat} :
    Digits row value ↔ row ≠ [] ∧ (∀ digit ∈ row, 48 ≤ digit ∧ digit ≤ 57) ∧
      Decimal.rowValue (decode row) = value := by
  have last (row : List UInt8) (digit : UInt8) : Decimal.rowValue (decode (row ++ [digit])) =
      10 * Decimal.rowValue (decode row) + (digit.toNat - 48) := by
    simp [decode, Decimal.rowValue, Decimal.digitValue, toNat_decode]
  constructor
  · intro digits
    induction digits with
    | single low high => simpa [low, high, decode, Decimal.rowValue] using last [] _
    | snoc more low high induction =>
        obtain ⟨-, others, rfl⟩ := induction
        refine ⟨by simp, ?_, last _ _⟩
        simpa [or_imp, forall_and, low, high] using others
  · rintro ⟨nonempty, digits, rfl⟩
    -- Digits are counted off from the end, where the units are.
    induction row using List.reverseRecOn with
    | nil => exact absurd rfl nonempty
    | append_singleton row digit induction =>
        obtain ⟨others, units⟩ := List.forall_mem_append.mp digits
        obtain ⟨low, high⟩ := units digit List.mem_cons_self
        rw [last]
        cases row with
        | nil =>
            rw [show Decimal.rowValue (decode []) = 0 from rfl, Nat.mul_zero, Nat.zero_add]
            exact .single low high
        | cons first row => exact .snoc (induction (by simp) others) low high

theorem readNat?_decode_eq_some_iff {row : List UInt8} {value : Nat} :
    Decimal.readNat? (decode row) = some value ↔ Digits row value := by
  rw [digits_iff]
  unfold Decimal.readNat?
  simp [decode, isDigit_decode, Decimal.rowValue, and_assoc]

theorem decode_eq_cons_iff {token : List UInt8} {byte : UInt8} {text : List Char} :
    decode token = Char.ofNat byte.toNat :: text ↔ ∃ row, token = byte :: row ∧ decode row = text := by
  unfold decode
  rw [List.map_eq_cons_iff]
  constructor
  · rintro ⟨first, row, rfl, same, rest⟩
    have bytes := congrArg Char.toNat same
    rw [toNat_decode, toNat_decode] at bytes
    exact ⟨row, by rw [UInt8.toNat_inj.mp bytes], rest⟩
  · rintro ⟨row, rfl, rest⟩
    exact ⟨byte, row, rfl, rfl, rest⟩

theorem readInt?_decode_eq_some_iff {token : List UInt8} {value : Int} :
    Decimal.readInt? (decode token) = some value ↔ Numeral token value := by
  have plus : '+' = Char.ofNat (43 : UInt8).toNat := rfl
  have minus : '-' = Char.ofNat (45 : UInt8).toNat := rfl
  simp only [Decimal.readInt?_eq_some_iff, plus, minus, decode_eq_cons_iff]
  constructor
  · rintro (⟨number, digits, rfl⟩ | ⟨_, number, ⟨row, rfl, rfl⟩, digits, rfl⟩ |
      ⟨_, number, ⟨row, rfl, rfl⟩, digits, rfl⟩)
    · exact .plain (readNat?_decode_eq_some_iff.mp digits)
    · exact .plus (readNat?_decode_eq_some_iff.mp digits)
    · exact .minus (readNat?_decode_eq_some_iff.mp digits)
  · intro numeral
    cases numeral with
    | plain digits =>
        exact Or.inl ⟨_, readNat?_decode_eq_some_iff.mpr digits, rfl⟩
    | plus digits =>
        exact Or.inr (Or.inl ⟨_, _, ⟨_, rfl, rfl⟩, readNat?_decode_eq_some_iff.mpr digits, rfl⟩)
    | minus digits =>
        exact Or.inr (Or.inr ⟨_, _, ⟨_, rfl, rfl⟩, readNat?_decode_eq_some_iff.mpr digits, rfl⟩)

theorem Digits.narrow {row : List UInt8} {value : Nat} (digits : Digits row value) :
    ∀ byte ∈ row, byte < 128 := by
  intro byte member
  have high := ((digits_iff.mp digits).2.1 byte member).2
  exact UInt8.lt_of_le_of_lt high (by decide)

theorem Numeral.narrow {token : List UInt8} {value : Int} (numeral : Numeral token value) :
    ∀ byte ∈ token, byte < 128 := by
  cases numeral with
  | plain digits => exact digits.narrow
  | plus digits => simpa using digits.narrow
  | minus digits => simpa using digits.narrow

theorem Numeral.unique {token : List UInt8} {value other : Int} (numeral : Numeral token value)
    (again : Numeral token other) : value = other := by
  apply Option.some.inj
  rw [← readInt?_decode_eq_some_iff.mpr numeral, readInt?_decode_eq_some_iff.mpr again]

theorem narrow_of_isBlank {byte : UInt8} (blank : isBlank byte = true) : byte < 128 := by
  simp only [isBlank, space, Bool.or_eq_true, beq_iff_eq] at blank
  grind

/-- Cutting at the blanks loses nothing but blanks. -/
theorem exists_mem_tokens {bytes : List UInt8} {byte : UInt8} (member : byte ∈ bytes)
    (visible : isBlank byte = false) : ∃ token ∈ tokens bytes, byte ∈ token := by
  have cut : ∃ piece ∈ bytes.splitOnP isBlank, byte ∈ piece := by
    induction bytes with
    | nil => cases member
    | cons first bytes induction =>
        obtain ⟨head, others, pieces⟩ :=
          List.exists_cons_of_ne_nil (List.splitOnP_ne_nil isBlank bytes)
        simp only [List.splitOnP_cons_eq_if_modifyHead, pieces, List.modifyHead_cons] at induction ⊢
        cases blank : isBlank first with
        | true =>
            have later : byte ∈ bytes := by grind
            simpa using induction later
        | false =>
            simp only [List.mem_cons, exists_eq_or_imp] at member induction ⊢
            grind
  obtain ⟨piece, found, inside⟩ := cut
  refine ⟨piece, ?_, inside⟩
  simp [tokens, found, List.ne_nil_of_mem inside]

end Ascii

theorem Literal.ofNumeral?_eq_some_iff {token : Bytes} {literal : Literal} :
    ofNumeral? token = some literal ↔ Ascii.Numeral token literal.value := by
  simp [ofNumeral?, Option.bind_eq_some_iff, ofInt?_eq_some_iff, Ascii.readInt?_decode_eq_some_iff]

namespace Line

theorem readText?_eq_some_iff {record : Bytes} {line : Line} :
    readText? record = some line ↔
      ∃ numerals ending, Ascii.tokens record = [line.action.byte] :: (numerals ++ [ending]) ∧
        Ascii.Numeral ending 0 ∧
        List.Forall₂ (fun numeral literal => Ascii.Numeral numeral literal.value) numerals
          line.literals := by
  obtain ⟨action, literals⟩ := line
  constructor
  · intro read
    unfold readText? at read
    split at read
    case h_1 first rest tokens =>
      simp only [Option.bind_eq_bind, Option.bind_eq_some_iff, Action.ofByte?_eq_some_iff,
        List.getLast?_eq_some_iff, Option.guard_eq_some', Ascii.readInt?_decode_eq_some_iff,
        mapM_eq_some_iff, Literal.ofNumeral?_eq_some_iff, Option.pure_def, Option.some.injEq,
        Line.mk.injEq] at read
      obtain ⟨_, rfl, ending, ⟨numerals, rfl⟩, _, zero, _, values, rfl, rfl⟩ := read
      rw [List.dropLast_concat] at values
      exact ⟨numerals, ending, tokens, zero, values⟩
    case h_2 => cases read
  · rintro ⟨numerals, ending, tokens, zero, values⟩
    have read := mapM_eq_some_iff.mpr
      (values.imp fun _ _ value => Literal.ofNumeral?_eq_some_iff.mpr value)
    simp [readText?, tokens, Action.ofByte?_byte, Ascii.readInt?_decode_eq_some_iff.mpr zero, read]

/-- The form of a textual record. Words other than zero and the least one have a magnitude between 1 and
`2 ^ 31 - 1`. -/
def Spells (record : Bytes) (action : Action) (words : List Int32) : Prop :=
  ∃ numerals ending, Ascii.tokens record = [action.byte] :: (numerals ++ [ending]) ∧
    Ascii.Numeral ending 0 ∧
    List.Forall₂ (fun numeral word => Ascii.Numeral numeral word.toInt ∧
      1 ≤ word.toInt.natAbs ∧ word.toInt.natAbs ≤ 2147483647) numerals words

theorem map_inWords_readText?_iff {record : Bytes} {action : Action} {words : List Int32} :
    (readText? record).map inWords = some (action, words) ↔ Spells record action words := by
  have literals (numerals : List Bytes) :
      List.Forall₂ (fun numeral word => Ascii.Numeral numeral word.toInt ∧
        1 ≤ word.toInt.natAbs ∧ word.toInt.natAbs ≤ 2147483647) numerals words ↔ _ :=
    Literal.forall₂_toInt_iff
  simp only [Option.map_eq_some_iff, readText?_eq_some_iff, Spells, literals]
  constructor
  · rintro ⟨line, ⟨numerals, ending, tokens, zero, values⟩, spelled⟩
    obtain ⟨rfl, rfl⟩ := Prod.mk.inj spelled
    exact ⟨numerals, ending, tokens, zero, line.literals, rfl, values⟩
  · rintro ⟨numerals, ending, tokens, zero, found, rfl, values⟩
    exact ⟨⟨action, found⟩, ⟨numerals, ending, tokens, zero, values⟩, rfl⟩

theorem not_numeral_byte (action : Action) (value : Int) : ¬Ascii.Numeral [action.byte] value := by
  intro numeral
  have read := Ascii.readInt?_decode_eq_some_iff.mpr numeral
  have refused : Decimal.readInt? (Ascii.decode [action.byte]) = none := by
    cases action <;> decide
  cases refused.symm.trans read

/-- What the tokens of a record have to be for it to be read. No token but the last is a zero, all but
the first are numerals of words, and no byte is outside the ASCII range. -/
structure WellSpelled (record : Bytes) : Prop where
  nonzero : ∀ token ∈ (Ascii.tokens record).dropLast, ¬Ascii.Numeral token 0
  numerals : ∀ token ∈ (Ascii.tokens record).tail,
    ∃ value, Ascii.Numeral token value ∧ value.natAbs < 2147483648
  narrow : ∀ byte ∈ record, byte < 128

theorem wellSpelled_of_readText? {record : Bytes} {line : Line}
    (read : readText? record = some line) : WellSpelled record := by
  obtain ⟨numerals, ending, tokens, zero, values⟩ := readText?_eq_some_iff.mp read
  have literal := exists_of_forall₂ values
  constructor
  case nonzero =>
    have early : (Ascii.tokens record).dropLast = [line.action.byte] :: numerals := by
      rw [tokens, ← List.cons_append, List.dropLast_concat]
    rw [early, List.forall_mem_cons]
    refine ⟨not_numeral_byte line.action 0, ?_⟩
    intro numeral member zero
    obtain ⟨number, value⟩ := literal numeral member
    exact number.ne_zero (value.unique zero)
  case numerals =>
    rw [tokens, List.tail_cons, List.forall_mem_append]
    constructor
    · intro numeral member
      obtain ⟨number, value⟩ := literal numeral member
      exact ⟨number.value, value, number.natAbs_lt⟩
    · simpa using ⟨0, zero, by decide⟩
  case narrow =>
    have inTokens : ∀ token ∈ Ascii.tokens record, ∀ byte ∈ token, byte < 128 := by
      simp only [tokens, List.forall_mem_cons, List.forall_mem_append]
      refine ⟨⟨?_, nofun⟩, ?_, zero.narrow, nofun⟩
      · cases line.action <;> decide
      · intro numeral member
        exact (literal numeral member).elim fun _ value => value.narrow
    intro byte member
    cases visible : Ascii.isBlank byte with
    | true => exact Ascii.narrow_of_isBlank visible
    | false =>
        obtain ⟨token, found, inside⟩ := Ascii.exists_mem_tokens member visible
        exact inTokens token found byte inside

/-- A textual record is read by its grammar, as the words it spells and no others. -/
structure ReadByGrammar (record : Bytes) : Prop where
  grammar (action : Action) (words : List Int32) :
    (read? .text record).map inWords = some (action, words) ↔ Spells record action words
  valid {action : Action} {words : List Int32}
    (read : (read? .text record).map inWords = some (action, words)) :
    ∀ word ∈ words, word ≠ 0 ∧ word ≠ Int32.minValue
  afterZero {token : Bytes} (early : token ∈ (Ascii.tokens record).dropLast)
    (zero : Ascii.Numeral token 0) : read? .text record = none
  outOfRange {token : Bytes} (later : token ∈ (Ascii.tokens record).tail)
    (outside : ∀ value, Ascii.Numeral token value → 2147483648 ≤ value.natAbs) :
    read? .text record = none
  wide {byte : UInt8} (member : byte ∈ record) (wide : 128 ≤ byte) : read? .text record = none

theorem readByGrammar (record : Bytes) : ReadByGrammar record := by
  have refused (broken : ¬WellSpelled record) : read? .text record = none := by
    apply Option.eq_none_iff_forall_ne_some.mpr
    intro line read
    exact broken (wellSpelled_of_readText? read)
  constructor
  case grammar =>
    intro action words
    exact map_inWords_readText?_iff
  case valid =>
    intro action words read
    obtain ⟨line, -, spelled⟩ := Option.map_eq_some_iff.mp read
    obtain ⟨rfl, rfl⟩ := Prod.mk.inj spelled
    simp [Literal.word_valid]
  case afterZero =>
    intro token early zero
    apply refused
    intro well
    exact well.nonzero token early zero
  case outOfRange =>
    intro token later outside
    apply refused
    intro well
    obtain ⟨value, numeral, small⟩ := well.numerals token later
    exact absurd (outside value numeral) (by omega)
  case wide =>
    intro byte member wide
    apply refused
    intro well
    exact absurd wide (UInt8.not_le.mpr (well.narrow byte member))

/-- Unusual spellings of the words -5 and 7 and of the zero, between blanks of several kinds. -/
def unusual : Bytes := [9, 100, 32, 32, 45, 48, 48, 53, 13, 43, 55, 32, 45, 48, 32]

theorem readByGrammar_unusual :
    (read? .text unusual).map inWords = some (.delete, [-5, 7]) ∧
      read? .text (unusual ++ [49]) = none := by
  have zero : Ascii.Numeral [45, 48] 0 := Ascii.readInt?_decode_eq_some_iff.mp (by decide)
  constructor
  · have five : Ascii.Numeral [45, 48, 48, 53] (-5) := Ascii.readInt?_decode_eq_some_iff.mp (by decide)
    have seven : Ascii.Numeral [43, 55] 7 := Ascii.readInt?_decode_eq_some_iff.mp (by decide)
    apply ((readByGrammar unusual).grammar .delete [-5, 7]).mpr
    refine ⟨[[45, 48, 48, 53], [43, 55]], [45, 48], by decide, zero, ?_⟩
    exact .cons ⟨five, by decide, by decide⟩ (.cons ⟨seven, by decide, by decide⟩ .nil)
  · have early : [45, 48] ∈ (Ascii.tokens (unusual ++ [49])).dropLast := by decide
    exact (readByGrammar (unusual ++ [49])).afterZero early zero

end Line

end ClauseExchange
