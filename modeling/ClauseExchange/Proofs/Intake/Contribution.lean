import ClauseExchange.Intake.Contribution
import ClauseExchange.Proofs.Line.Grammar
import ClauseExchange.Proofs.Text

/-!
What a contribution is read as. An element is read by its grammar: a numeral of a literal, with white
space around it or without. A contribution is read element by element, and either all of them are
literals or the first that is none decides why it is rejected.
-/

namespace ClauseExchange

/-! Going through a list with an operation that may refuse an item. -/

section

variable {ε α β : Type} {operation : α → Except ε β} {items : List α}

theorem mapM_eq_ok_iff {results : List β} :
    items.mapM operation = .ok results ↔
      List.Forall₂ (fun item result => operation item = .ok result) items results := by
  induction items generalizing results with
  | nil => cases results <;> simp [pure, Except.pure]
  | cons item items induction =>
      rw [List.mapM_cons]
      cases first : operation item with
      | error error => cases results <;> simp [bind, Except.bind, first]
      | ok result =>
          cases rest : items.mapM operation with
          | error error =>
              rw [rest] at induction
              cases results <;> simp [bind, Except.bind, ← induction]
          | ok others =>
              rw [rest] at induction
              cases results <;> simp [bind, Except.bind, pure, Except.pure, ← induction, first]

/-- The first item that is refused is the one that decides. -/
theorem mapM_eq_error_iff {error : ε} :
    items.mapM operation = .error error ↔
      ∃ earlier item later, items = earlier ++ item :: later ∧
        (∀ other ∈ earlier, ∃ result, operation other = .ok result) ∧
        operation item = .error error := by
  induction items with
  | nil => simp [pure, Except.pure]
  | cons item items induction =>
      rw [List.mapM_cons]
      constructor
      · intro refused
        cases first : operation item with
        | error reason =>
            rw [first] at refused
            cases refused
            exact ⟨[], item, items, rfl, nofun, first⟩
        | ok result =>
            have later : items.mapM operation = .error error := by
              cases rest : items.mapM operation with
              | error reason =>
                  rw [first, rest] at refused
                  cases refused
                  rfl
              | ok others =>
                  rw [first, rest] at refused
                  cases refused
            obtain ⟨earlier, refusedItem, rest, rfl, passed, stopped⟩ := induction.mp later
            refine ⟨item :: earlier, refusedItem, rest, rfl, ?_, stopped⟩
            exact List.forall_mem_cons.mpr ⟨⟨result, first⟩, passed⟩
      · intro decided
        obtain ⟨earlier, refusedItem, later, split, passed, stopped⟩ := decided
        cases earlier with
        | nil =>
            cases split
            rw [stopped]
            rfl
        | cons first earlier =>
            cases split
            obtain ⟨⟨result, taken⟩, others⟩ := List.forall_mem_cons.mp passed
            rw [taken, induction.mpr ⟨earlier, refusedItem, later, rfl, others, stopped⟩]
            rfl

end

theorem Decimal.narrow_of_readNat? {text : List Char} {number : Nat}
    (read : readNat? text = some number) : ∀ character ∈ text, character.toNat < 256 := by
  unfold readNat? at read
  split at read
  case isTrue row =>
    intro character member
    have digit := List.all_eq_true.mp row.2 character member
    simp only [Char.isDigit, Bool.and_eq_true, decide_eq_true_eq] at digit
    exact Nat.lt_of_le_of_lt (UInt32.le_iff_toNat_le.mp digit.2) (by decide)
  case isFalse => cases read

theorem Decimal.narrow_of_readInt? {text : List Char} {value : Int}
    (read : readInt? text = some value) : ∀ character ∈ text, character.toNat < 256 := by
  rcases readInt?_eq_some_iff.mp read with
    ⟨_, digits, _⟩ | ⟨_, _, rfl, digits, _⟩ | ⟨_, _, rfl, digits, _⟩
  · exact narrow_of_readNat? digits
  · exact List.forall_mem_cons.mpr ⟨by decide, narrow_of_readNat? digits⟩
  · exact List.forall_mem_cons.mpr ⟨by decide, narrow_of_readNat? digits⟩

theorem Ascii.readInt?_eq_some_iff {text : List Char} {value : Int} :
    Decimal.readInt? text = some value ↔ ∃ row, text = decode row ∧ Numeral row value := by
  constructor
  · intro read
    have same := decode_encode (Decimal.narrow_of_readInt? read)
    rw [← same] at read
    exact ⟨encode text, same.symm, readInt?_decode_eq_some_iff.mp read⟩
  · rintro ⟨row, rfl, numeral⟩
    exact readInt?_decode_eq_some_iff.mpr numeral

namespace Contribution

/-- The integers of 64 bits, one of them the sign. -/
def IsLong (value : Int) : Prop :=
  -9223372036854775808 ≤ value ∧ value ≤ 9223372036854775807

/-- An element encodes a text which is a numeral once the blanks at either end are taken off. -/
def Spells (element : Bytes) (value : Int) : Prop :=
  ∃ text row, Utf8.encode text = element ∧ Text.Trims text (Ascii.decode row) ∧
    Ascii.Numeral row value

/-- Why an element is refused. -/
inductive Refused (number : Nat) (element : Bytes) : IntakeError → Prop where
  | invalid {value : Int} (spells : Spells element value) (long : IsLong value)
      (noLiteral : ¬IsLiteral value) : Refused number element (.invalidLiteral number value)
  | malformed (none : ∀ value, Spells element value → ¬IsLong value) :
      Refused number element (.malformedRecord number element)

theorem inRange_iff {value : Int} : inRange value = true ↔ IsLong value := by
  rw [inRange, decide_eq_true_iff, Int64.toInt_minValue, Int64.toInt_maxValue]
  rfl

theorem readInteger?_eq_some_iff {element : Bytes} {value : Int} :
    readInteger? element = some value ↔ Spells element value ∧ IsLong value := by
  simp only [readInteger?, Option.bind_eq_some_iff, Option.filter_eq_some_iff,
    Utf8.decode?_eq_some_iff, Ascii.readInt?_eq_some_iff, Text.trimChars_eq_iff, inRange_iff]
  constructor
  · rintro ⟨text, encoded, ⟨row, trims, numeral⟩, long⟩
    exact ⟨⟨text.toList, row, encoded, trims, numeral⟩, long⟩
  · rintro ⟨⟨text, row, encoded, trims, numeral⟩, long⟩
    refine ⟨String.ofList text, ?_, ⟨row, ?_, numeral⟩, long⟩
    · rwa [String.toList_ofList]
    · rwa [String.toList_ofList]

theorem readElement_eq_ok_iff {number : Nat} {element : Bytes} {literal : Literal} :
    readElement number element = .ok literal ↔ Spells element literal.value := by
  have valid := literal.isLiteral
  have long : IsLong literal.value := by
    unfold IsLiteral at valid
    unfold IsLong
    omega
  unfold readElement
  constructor
  · intro read
    split at read
    case h_1 => cases read
    case h_2 value integer =>
      obtain ⟨spells, -⟩ := readInteger?_eq_some_iff.mp integer
      rcases Literal.ofInt?_cases value with ⟨found, same, rfl⟩ | ⟨none, -⟩
      · rw [same] at read
        cases read
        exact spells
      · rw [none] at read
        cases read
  · intro spells
    rw [readInteger?_eq_some_iff.mpr ⟨spells, long⟩]
    simp

theorem readElement_eq_error_iff {number : Nat} {element : Bytes} {error : IntakeError} :
    readElement number element = .error error ↔ Refused number element error := by
  unfold readElement
  constructor
  · intro refused
    split at refused
    case h_1 none =>
      cases refused
      refine .malformed ?_
      intro value spells long
      rw [readInteger?_eq_some_iff.mpr ⟨spells, long⟩] at none
      cases none
    case h_2 value integer =>
      obtain ⟨spells, long⟩ := readInteger?_eq_some_iff.mp integer
      rcases Literal.ofInt?_cases value with ⟨found, same, -⟩ | ⟨none, noLiteral⟩
      · rw [same] at refused
        cases refused
      · rw [none] at refused
        cases refused
        exact .invalid spells long noLiteral
  · intro refused
    cases refused with
    | @invalid value spells long noLiteral =>
        rw [readInteger?_eq_some_iff.mpr ⟨spells, long⟩]
        rcases Literal.ofInt?_cases value with ⟨found, _, same⟩ | ⟨none, -⟩
        · exact absurd (same ▸ found.isLiteral) noLiteral
        · simp [none]
    | malformed none =>
        have nothing : readInteger? element = Option.none := by
          apply Option.eq_none_iff_forall_ne_some.mpr
          intro value integer
          obtain ⟨spells, long⟩ := readInteger?_eq_some_iff.mp integer
          exact none value spells long
        rw [nothing]

/-- A contribution is read as a whole or not at all: word by word, or not beyond the first element that
is no literal, whatever the others are. -/
structure ReadWhole (number : Nat) (elements : List Bytes) : Prop where
  words (words : List Int32) : (read number elements).map (List.map Literal.word) = .ok words ↔
    List.Forall₂ (fun element word => Spells element word.toInt ∧ IsLiteral word.toInt)
      elements words
  refused (error : IntakeError) : read number elements = .error error ↔
    ∃ earlier element later, elements = earlier ++ element :: later ∧
      (∀ other ∈ earlier, ∃ value, Spells other value ∧ IsLiteral value) ∧
      Refused number element error

theorem read_whole (number : Nat) (elements : List Bytes) : ReadWhole number elements := by
  have literals (element : Bytes) : (∃ literal, readElement number element = .ok literal) ↔
      ∃ value, Spells element value ∧ IsLiteral value := by
    simp only [readElement_eq_ok_iff]
    constructor
    · rintro ⟨literal, spells⟩
      exact ⟨literal.value, spells, literal.isLiteral⟩
    · rintro ⟨value, spells, valid⟩
      rcases Literal.ofInt?_cases value with ⟨literal, _, rfl⟩ | ⟨_, invalid⟩
      · exact ⟨literal, spells⟩
      · exact absurd valid invalid
  constructor
  case words =>
    intro words
    rw [Literal.forall₂_toInt_iff]
    constructor
    · intro told
      cases outcome : read number elements with
      | error error =>
          rw [outcome] at told
          cases told
      | ok found =>
          rw [outcome] at told
          cases told
          refine ⟨found, rfl, ?_⟩
          simpa only [readElement_eq_ok_iff] using mapM_eq_ok_iff.mp outcome
    · rintro ⟨found, rfl, spelled⟩
      have outcome : read number elements = .ok found := by
        apply mapM_eq_ok_iff.mpr
        simpa only [readElement_eq_ok_iff] using spelled
      rw [outcome]
      rfl
  case refused =>
    intro error
    simp only [read, mapM_eq_error_iff, readElement_eq_error_iff, literals]

/-- The second element is a plus sign and a digit between white space of two kinds. -/
example : (read 3 [[45, 48, 53], [0xC2, 0xA0, 43, 50, 10]]).toOption.map (List.map Literal.value) =
    some [-5, 2] := by decide +kernel

end Contribution

end ClauseExchange
