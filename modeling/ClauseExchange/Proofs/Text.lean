import ClauseExchange.Text.Ascii
import ClauseExchange.Text.Blank
import ClauseExchange.Text.Utf8
import Mathlib.Data.List.Basic
import Mathlib.Data.List.TakeWhile

/-!
Texts as bytes, and texts without white space at either end. Bytes are the encoding of one text at most,
and a text is what is left once its blanks are taken off in one way only.
-/

namespace ClauseExchange

namespace Utf8

def encode (text : List Char) : List UInt8 :=
  text.flatMap String.utf8EncodeChar

theorem toByteArray_eq_iff {bytes : List UInt8} {text : String} :
    text.toByteArray = ByteArray.mk bytes.toArray ↔ encode text.toList = bytes := by
  rw [← String.utf8Encode_toList, ByteArray.ext_iff, List.utf8Encode, List.data_toByteArray]
  simp [encode]

theorem decode?_eq_some_iff {bytes : List UInt8} {text : String} :
    decode? bytes = some text ↔ encode text.toList = bytes := by
  rw [← toByteArray_eq_iff]
  unfold decode? String.fromUTF8?
  constructor
  · intro decoded
    split at decoded
    · cases decoded
      rfl
    · cases decoded
  · intro same
    rw [dif_pos (same ▸ text.isValidUTF8)]
    exact congrArg some (String.toByteArray_inj.mp same.symm)

theorem encode_ascii {text : List Char} (narrow : ∀ character ∈ text, character.toNat < 128) :
    encode text = Ascii.encode text := by
  have single : ∀ character ∈ text,
      String.utf8EncodeChar character = [UInt8.ofNat character.toNat] := by
    intro character member
    have low : character.val.toNat ≤ 127 := Nat.le_of_lt_succ (narrow character member)
    rw [String.utf8EncodeChar, if_pos low]
    rfl
  rw [Ascii.encode, List.map_eq_flatMap]
  exact List.flatMap_congr single

end Utf8

namespace Text

theorem isBlank_of_space_lt {character : Char} (above : 32 < character.toNat)
    (narrow : character.toNat < 128) : isBlank character = false := by
  simp [isBlank, blankRanges]
  omega

/-- What is left of a text once the blanks at either end are taken off. -/
structure Trims (text core : List Char) : Prop where
  around : ∃ before after, text = before ++ core ++ after ∧
    ∀ character ∈ before ++ after, isBlank character = true
  ends : ∀ character, core.head? = some character ∨ core.getLast? = some character →
    isBlank character = false

theorem dropWhile_isBlank_append {blanks rest : List Char}
    (blank : ∀ character ∈ blanks, isBlank character = true)
    (visible : ∀ character, rest.head? = some character → isBlank character = false) :
    (blanks ++ rest).dropWhile isBlank = rest := by
  rw [List.dropWhile_append_of_pos blank]
  cases rest with
  | nil => rfl
  | cons first rest => simp [visible first rfl]

theorem head?_dropWhile_isBlank (text : List Char) {character : Char}
    (first : (text.dropWhile isBlank).head? = some character) : isBlank character = false := by
  have visible := List.head?_dropWhile_not isBlank text
  rw [first] at visible
  simpa using visible

theorem trims_trimChars (text : List Char) : Trims text (trimChars text) := by
  let rest := text.dropWhile isBlank
  have front : text.takeWhile isBlank ++ rest = text := List.takeWhile_append_dropWhile
  have back : trimChars text ++ (rest.reverse.takeWhile isBlank).reverse = rest := by
    rw [trimChars, ← List.reverse_append, List.takeWhile_append_dropWhile, List.reverse_reverse]
  constructor
  case around =>
    refine ⟨text.takeWhile isBlank, (rest.reverse.takeWhile isBlank).reverse, ?_, ?_⟩
    · rw [List.append_assoc, back, front]
    · intro character member
      rw [List.mem_append, List.mem_reverse] at member
      exact member.elim List.mem_takeWhile_imp List.mem_takeWhile_imp
  case ends =>
    intro character either
    rcases either with first | last
    · apply head?_dropWhile_isBlank text
      change rest.head? = some character
      rw [← back, List.head?_append, first]
      rfl
    · apply head?_dropWhile_isBlank rest.reverse
      rw [trimChars, List.getLast?_reverse] at last
      exact last

theorem trimChars_eq_iff {text core : List Char} : trimChars text = core ↔ Trims text core := by
  constructor
  · intro same
    exact same ▸ trims_trimChars text
  · intro trims
    obtain ⟨before, after, rfl, blank⟩ := trims.around
    obtain ⟨blankBefore, blankAfter⟩ := List.forall_mem_append.mp blank
    rw [trimChars, List.append_assoc]
    cases core with
    | nil =>
        have gone : (before ++ after ++ []).dropWhile isBlank = [] :=
          dropWhile_isBlank_append blank nofun
        rw [List.append_nil] at gone
        rw [List.nil_append, gone]
        rfl
    | cons first rest =>
        have visible : ∀ character, (first :: rest ++ after).head? = some character →
            isBlank character = false := by
          intro character same
          exact trims.ends character (Or.inl same)
        have blankBehind : ∀ character ∈ after.reverse, isBlank character = true := by
          simpa using blankAfter
        have visibleBehind : ∀ character, (first :: rest).reverse.head? = some character →
            isBlank character = false := by
          intro character same
          rw [List.head?_reverse] at same
          exact trims.ends character (Or.inr same)
        rw [dropWhile_isBlank_append blankBefore visible, List.reverse_append,
          dropWhile_isBlank_append blankBehind visibleBehind, List.reverse_reverse]

end Text

end ClauseExchange
