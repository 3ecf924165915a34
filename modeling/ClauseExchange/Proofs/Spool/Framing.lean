import ClauseExchange.Proofs.Line.Separator
import ClauseExchange.Spool

/-!
What a spool holds is read as a row of framed records with an incomplete line after them, and that
reading is the only one: the records come out as they were framed, and the incomplete line stays.
-/

namespace ClauseExchange.Spool

variable {spool : Spool} {separator : UInt8} {records : List Bytes} {tail : Bytes}

@[simp] theorem contents_eq_nil_iff : spool.contents = [] ↔ spool.isEmpty = true := by
  rw [← List.length_eq_zero_iff, length_contents]
  simp [isEmpty]

theorem capacity_of_push? {pushed : Spool} {byte : UInt8}
    (push : spool.push? byte = some pushed) : pushed.capacity = spool.capacity := by
  unfold push? at push
  split at push
  · cases push
    rfl
  · cases push

theorem newest_eq_reverse (spool : Spool) : spool.newest = spool.contents.reverse := by
  simp [contents]

private theorem reverse_frame_cases (separator : UInt8) (records : List Bytes) :
    (frame separator records).reverse = [] ∨
      ∃ rest, (frame separator records).reverse = separator :: rest := by
  rcases List.eq_nil_or_concat records with rfl | ⟨earlier, last, rfl⟩
  · exact Or.inl rfl
  · exact Or.inr ⟨(frame separator earlier ++ last).reverse, by simp [frame_append]⟩

/-- Going back from the newest byte, the incomplete line ends where the first separator is met. -/
private theorem span_reverse_tail (tailFree : separator ∉ tail) :
    (frame separator records ++ tail).reverse.dropWhile (· != separator) =
        (frame separator records).reverse ∧
      (frame separator records ++ tail).reverse.takeWhile (· != separator) =
        tail.reverse := by
  have passes : ∀ byte ∈ tail.reverse, (byte != separator) = true := by
    intro byte member
    rw [bne_iff_ne]
    rintro rfl
    exact tailFree (List.mem_reverse.mp member)
  rw [List.reverse_append, List.dropWhile_append_of_pos passes,
    List.takeWhile_append_of_pos passes]
  rcases reverse_frame_cases separator records with empty | ⟨rest, nonempty⟩
  · simp [empty]
  · simp [nonempty]

theorem records_of_contents (contents : spool.contents = frame separator records ++ tail)
    (free : ∀ record ∈ records, separator ∉ record) (tailFree : separator ∉ tail) :
    spool.records separator = records := by
  unfold Spool.records
  rw [newest_eq_reverse, contents, (span_reverse_tail tailFree).1, List.reverse_reverse,
    splitOn_frame free, List.dropLast_concat]

theorem contents_dropRecords_of_contents
    (contents : spool.contents = frame separator records ++ tail)
    (tailFree : separator ∉ tail) :
    (spool.dropRecords separator).contents = tail := by
  change (spool.newest.takeWhile (· != separator)).reverse = tail
  rw [newest_eq_reverse, contents, (span_reverse_tail tailFree).2, List.reverse_reverse]

theorem completeLength_of_contents
    (contents : spool.contents = frame separator records ++ tail)
    (tailFree : separator ∉ tail) :
    spool.completeLength separator = (frame separator records).length := by
  unfold completeLength
  rw [newest_eq_reverse, contents, (span_reverse_tail tailFree).1, List.length_reverse]

/-- Whatever a spool holds, its records and what stays behind them make up all of it. -/
theorem frame_records_append (spool : Spool) (separator : UInt8) :
    frame separator (spool.records separator) ++ (spool.dropRecords separator).contents =
        spool.contents ∧
      (∀ record ∈ spool.records separator, separator ∉ record) ∧
        separator ∉ (spool.dropRecords separator).contents := by
  obtain ⟨records, tail, contents, free, tailFree⟩ := exists_frame separator spool.contents
  rw [records_of_contents contents free tailFree,
    contents_dropRecords_of_contents contents tailFree]
  exact ⟨contents.symm, free, tailFree⟩

/-- Every piece that is split off ends in a separator, which the record leaves out. -/
theorem frame_records_eq_take (spool : Spool) (separator : UInt8) :
    frame separator (spool.records separator) =
      spool.contents.take (spool.completeLength separator) := by
  obtain ⟨records, tail, contents, free, tailFree⟩ := exists_frame separator spool.contents
  rw [records_of_contents contents free tailFree, completeLength_of_contents contents tailFree,
    contents, List.take_left]

end ClauseExchange.Spool
