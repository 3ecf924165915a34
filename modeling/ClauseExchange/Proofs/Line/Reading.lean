import ClauseExchange.Proofs.Literal
import ClauseExchange.Proofs.Numeral.Base128
import ClauseExchange.Proofs.Spool.Framing
import Mathlib.Data.List.Forall2

/-!
Records read back as the lines they were written for, so a whole proof is recovered from its bytes: cut
at the separators, it falls into one record for each line, and nothing is left over.
-/

namespace ClauseExchange

theorem Action.ofByte?_byte (action : Action) : ofByte? action.byte = some action := by
  cases action <;> decide

theorem mapM_eq_some_iff {α β : Type} {read : α → Option β} {entries : List α} {results : List β} :
    entries.mapM read = some results ↔
      List.Forall₂ (fun entry result => read entry = some result) entries results := by
  induction entries generalizing results with
  | nil => simp [eq_comm]
  | cons entry entries induction =>
      simp only [List.mapM_cons, List.forall₂_cons_left_iff, ← induction, Option.bind_eq_bind,
        Option.bind_eq_some_iff, Option.pure_def, Option.some.injEq]
      constructor
      · rintro ⟨result, first, others, rest, rfl⟩
        exact ⟨result, others, first, rest, rfl⟩
      · rintro ⟨result, others, first, rest, rfl⟩
        exact ⟨result, first, others, rest, rfl⟩

theorem exists_of_forall₂ {α β : Type} {related : α → β → Prop} {entries : List α}
    {results : List β} (pairs : List.Forall₂ related entries results) :
    ∀ entry ∈ entries, ∃ result, related entry result := by
  have both := pairs.imp fun entry result holds =>
    show (∃ result, related entry result) ∧ related entry result from ⟨⟨result, holds⟩, holds⟩
  exact ((List.forall₂_and_left _ _).mp both).1

theorem mapM_map_eq_some {α β : Type} {read : β → Option α} {write : α → β}
    (inverse : ∀ entry, read (write entry) = some entry) (entries : List α) :
    (entries.map write).mapM read = some entries := by
  apply mapM_eq_some_iff.mpr
  simp [List.forall₂_map_left_iff, List.forall₂_same, inverse]

/-! Binary records. -/

namespace Literal

theorem ofGroups?_encodeBinary (literal : Literal) :
    ofGroups? literal.encodeBinary = some literal := by
  have few : literal.encodeBinary.length ≤ 5 :=
    Base128.length_encode_le (Nat.lt_trans literal.code_lt (by decide))
  unfold ofGroups?
  rw [if_pos few, encodeBinary, Base128.value_encode, ofCode?_code]

end Literal

theorem Line.readBinary?_record (line : Line) : readBinary? (line.record .binary) = some line := by
  have codes : line.literals.flatMap Literal.encodeBinary =
      (line.literals.map Literal.code).flatMap Base128.encode := by
    rw [List.flatMap_map]
    rfl
  have numbers : (line.literals.map Literal.code).map Base128.encode =
      line.literals.map Literal.encodeBinary := by
    rw [List.map_map]
    rfl
  simp only [record, readBinary?, Action.ofByte?_byte, codes, Base128.split?_flatMap_encode,
    numbers, Option.bind_eq_bind, Option.bind_some,
    mapM_map_eq_some Literal.ofGroups?_encodeBinary]
  rfl

/-! Textual records. -/

namespace Ascii

theorem decode_encode {text : List Char} (narrow : ∀ character ∈ text, character.toNat < 256) :
    decode (encode text) = text := by
  unfold decode encode
  rw [List.map_map]
  have same : ∀ character ∈ text,
      Char.ofNat (UInt8.ofNat character.toNat).toNat = id character := by
    intro character member
    rw [UInt8.toNat_ofNat', Nat.mod_eq_of_lt (narrow character member), Char.ofNat_toNat]
    rfl
  exact (List.map_congr_left same).trans (List.map_id text)

theorem isBlank_space : isBlank space = true := by decide

theorem isBlank_of_space_lt {byte : UInt8} (above : 32 < byte.toNat) : isBlank byte = false := by
  have checked : ∀ number < 256, 32 < number → isBlank (UInt8.ofNat number) = false := by
    decide +kernel
  rw [← UInt8.ofNat_toNat (x := byte)]
  exact checked byte.toNat byte.toNat_lt above

theorem tokens_of_free {piece : List UInt8} (nonempty : piece ≠ [])
    (free : ∀ byte ∈ piece, isBlank byte = false) : tokens piece = [piece] := by
  unfold tokens
  rw [List.splitOnP_eq_singleton free]
  simp [nonempty]

theorem tokens_append_space (first second : List UInt8) :
    tokens (first ++ space :: second) = tokens first ++ tokens second := by
  unfold tokens
  rw [List.splitOnP_append_cons first second isBlank_space, List.filter_append]

end Ascii

namespace Literal

theorem isBlank_of_mem_numeral (literal : Literal) :
    ∀ byte ∈ literal.numeral, Ascii.isBlank byte = false := by
  intro byte member
  obtain ⟨character, written, rfl⟩ := List.mem_map.mp member
  obtain ⟨above, narrow⟩ := Decimal.ascii_of_mem_ofInt character written
  apply Ascii.isBlank_of_space_lt
  rwa [UInt8.toNat_ofNat', Nat.mod_eq_of_lt (by omega)]

theorem decode_numeral (literal : Literal) :
    Ascii.decode literal.numeral = Decimal.ofInt literal.value :=
  Ascii.decode_encode fun character written =>
    Nat.lt_trans (Decimal.ascii_of_mem_ofInt character written).2 (by decide)

theorem ofNumeral?_numeral (literal : Literal) : ofNumeral? literal.numeral = some literal := by
  rw [ofNumeral?, decode_numeral, Decimal.readInt?_ofInt, Option.bind_some, ofInt?_value]

theorem numeral_ne_nil (literal : Literal) : literal.numeral ≠ [] := by
  intro empty
  have read := literal.ofNumeral?_numeral
  rw [empty] at read
  cases read

theorem tokens_flatMap_encodeText (literals : List Literal) (rest : Bytes) :
    Ascii.tokens (literals.flatMap encodeText ++ rest) =
      literals.map numeral ++ Ascii.tokens rest := by
  induction literals with
  | nil => rfl
  | cons literal literals induction =>
      have token := Ascii.tokens_of_free literal.numeral_ne_nil literal.isBlank_of_mem_numeral
      have regroup : (literal :: literals).flatMap encodeText ++ rest =
          literal.numeral ++ Ascii.space :: (literals.flatMap encodeText ++ rest) := by
        simp [encodeText]
      rw [regroup, Ascii.tokens_append_space, token, induction]
      rfl

end Literal

theorem Line.tokens_record (line : Line) :
    Ascii.tokens (line.record .text) =
      [line.action.byte] :: (line.literals.map Literal.numeral ++ [[Ascii.zero]]) := by
  have action : Ascii.tokens [line.action.byte] = [[line.action.byte]] := by
    cases line.action <;> decide
  have ending : Ascii.tokens [Ascii.zero] = [[Ascii.zero]] := by decide
  change Ascii.tokens ([line.action.byte] ++ Ascii.space :: _) = _
  rw [Ascii.tokens_append_space, action, Literal.tokens_flatMap_encodeText, ending]
  rfl

theorem Line.readText?_record (line : Line) : readText? (line.record .text) = some line := by
  have zero : Decimal.readInt? (Ascii.decode [Ascii.zero]) = some 0 := by decide
  have admitted : (guard (Decimal.readInt? (Ascii.decode [Ascii.zero]) = some 0) : Option Unit) =
      some () := if_pos zero
  unfold readText?
  rw [tokens_record]
  dsimp only
  rw [Action.ofByte?_byte, List.getLast?_concat, List.dropLast_concat,
    mapM_map_eq_some Literal.ofNumeral?_numeral]
  change (guard (Decimal.readInt? (Ascii.decode [Ascii.zero]) = some 0) >>= fun _ => some line) =
    some line
  rw [admitted]
  rfl

namespace Line

theorem read?_record (encoding : Encoding) (line : Line) :
    read? encoding (line.record encoding) = some line := by
  cases encoding with
  | binary => exact line.readBinary?_record
  | text => exact line.readText?_record

/-! Whole proofs. -/

def appendTo (encoding : Encoding) (written : Bytes) (line : Line) : Bytes :=
  written ++ line.encode encoding

theorem foldl_appendTo (encoding : Encoding) (written : Bytes) (lines : List Line) :
    lines.foldl (appendTo encoding) written = written ++ lines.flatMap (encode encoding) := by
  induction lines generalizing written with
  | nil => exact (List.append_nil written).symm
  | cons line lines induction =>
      rw [List.foldl_cons, induction, appendTo, List.append_assoc]
      rfl

theorem count_separator_encode (encoding : Encoding) (line : Line) :
    (line.encode encoding).count encoding.separator = 1 := by
  have free := List.count_eq_zero.mpr (line.separator_not_mem_record encoding)
  rw [encode, List.count_append, free, List.count_singleton_self]

/-- A proof is recovered from the bytes of its lines. A separator ends each line and is nowhere else in
it, so the bytes fall into one record for each line with nothing left over, and every record reads
back as its line. -/
theorem proof_read_back (encoding : Encoding) (written : Bytes) (lines : List Line) (spool : Spool)
    (held : spool.contents = lines.foldl (appendTo encoding) []) :
    lines.foldl (appendTo encoding) written = written ++ lines.flatMap (encode encoding) ∧
      (∀ line ∈ lines, (line.encode encoding).getLast? = some encoding.separator ∧
        (line.encode encoding).count encoding.separator = 1) ∧
      (lines.foldl (appendTo encoding) []).splitOn encoding.separator =
        spool.records encoding.separator ++ [[]] ∧
      (spool.dropRecords encoding.separator).contents = [] ∧
      (spool.records encoding.separator).map (read? encoding) = lines.map some := by
  have framed : lines.foldl (appendTo encoding) [] =
      frame encoding.separator (lines.map (record encoding)) := by
    rw [foldl_appendTo, List.nil_append, frame_records]
  have free := separator_not_mem_records encoding lines
  have contents : spool.contents =
      frame encoding.separator (lines.map (record encoding)) ++ [] := by
    rw [held, framed, List.append_nil]
  have records := Spool.records_of_contents contents free List.not_mem_nil
  refine ⟨foldl_appendTo encoding written lines, ?_, ?_, ?_, ?_⟩
  · intro line _
    exact ⟨List.getLast?_concat, line.count_separator_encode encoding⟩
  · rw [framed, splitOn_frame free, records]
  · exact Spool.contents_dropRecords_of_contents contents List.not_mem_nil
  · rw [records, List.map_map]
    exact List.map_congr_left fun line _ => line.read?_record encoding

/-- A line whose one code takes three bytes, the middle one without a bit of the code, and a line
without literals. -/
def twoLines : List Line := [⟨.add, [⟨-8193, by decide, by decide⟩]⟩, ⟨.delete, []⟩]

def twoLinesSpool : Spool where
  newest := [0, 100, 0, 1, 128, 131, 97]
  size := 7
  capacity := 8
  length_newest := rfl
  size_le := by decide
  capacity_pos := by decide

theorem twoLines_held : twoLinesSpool.contents = twoLines.foldl (appendTo .binary) [] := by
  decide +kernel

theorem proof_read_back_twoLines :
    twoLinesSpool.contents = twoLines.foldl (appendTo .binary) [] ∧
      twoLines.foldl (appendTo .binary) [97] = [97] ++ twoLines.flatMap (encode .binary) ∧
      (∀ line ∈ twoLines, (line.encode .binary).getLast? = some 0 ∧
        (line.encode .binary).count 0 = 1) ∧
      (twoLines.foldl (appendTo .binary) []).splitOn 0 = twoLinesSpool.records 0 ++ [[]] ∧
      (twoLinesSpool.dropRecords 0).contents = [] ∧
      (twoLinesSpool.records 0).map (read? .binary) = twoLines.map some :=
  ⟨twoLines_held, proof_read_back .binary [97] twoLines twoLinesSpool twoLines_held⟩

end Line

end ClauseExchange
