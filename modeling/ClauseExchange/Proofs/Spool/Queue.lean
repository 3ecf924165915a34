import ClauseExchange.Proofs.Spool.Framing
import ClauseExchange.Spool.Row

/-!
A spool is a queue of bytes. After any sequence of pushes, removals and doublings it holds the bytes that
were pushed and are not gone yet, in their order, and so does a spool laid out in a row of cells: the
bytes that are left over in the cells behind never come back. What a spool reads as records is a framing
of what it holds.
-/

namespace ClauseExchange

variable {separator : UInt8} {records : List Bytes} {tail : Bytes}

/-- Seen from behind, the incomplete line is all there is in front of the last separator. -/
theorem idxOf_reverse_frame_append (tailFree : separator ∉ tail) :
    (frame separator records ++ tail).reverse.idxOf separator = tail.length := by
  have free : separator ∉ tail.reverse := mt List.mem_reverse.mp tailFree
  rw [List.reverse_append]
  rcases List.eq_nil_or_concat records with rfl | ⟨earlier, last, rfl⟩
  · simp [List.idxOf_eq_length free]
  · rw [List.idxOf_append_of_notMem free]
    simp [frame_append]

/-- Bytes as records with their separators and an incomplete line behind them. -/
structure Framing (separator : UInt8) (bytes : Bytes) (records : List Bytes) (rest : Bytes)
    (complete : Nat) : Prop where
  joined : frame separator records ++ rest = bytes
  free : ∀ record ∈ records, separator ∉ record
  restFree : separator ∉ rest
  count : records.length = bytes.count separator
  complete : complete = bytes.length - rest.length

theorem framing_of_joined {bytes : Bytes} (joined : frame separator records ++ tail = bytes)
    (free : ∀ record ∈ records, separator ∉ record) (tailFree : separator ∉ tail) :
    Framing separator bytes records tail (frame separator records).length where
  joined := joined
  free := free
  restFree := tailFree
  count := by
    rw [← joined, List.count_append, count_frame free, List.count_eq_zero.mpr tailFree,
      Nat.add_zero]
  complete := by rw [← joined, List.length_append, Nat.add_sub_cancel]

namespace Spool

inductive Move where
  | push (byte : UInt8)
  | dropRecords (separator : UInt8)
  | double

def move? (spool : Spool) : Move → Option Spool
  | .push byte => spool.push? byte
  | .dropRecords separator => some (spool.dropRecords separator)
  | .double => some spool.double

namespace Row

def move? (row : Row) : Move → Option Row
  | .push byte => row.push? byte
  | .dropRecords separator => some (row.dropRecords separator)
  | .double => some row.double

variable {row : Row}

@[simp] theorem contents_blank (capacity : Nat) : (blank capacity).contents = [] := by
  simp [blank, contents]

@[simp] theorem length_contents (row : Row) : row.contents.length = row.used := by
  have bounded := row.used_le
  simp [contents]
  omega

theorem contents_eq_take (row : Row) : row.contents = row.cells.toList.take row.used := by
  simp [contents]

/-- A byte is written to the first cell behind the bytes in use, whatever is in it. -/
theorem push?_of_lt (byte : UInt8) (room : row.used < row.cells.size) :
    ∃ pushed, row.push? byte = some pushed ∧ pushed.contents = row.contents ++ [byte] ∧
      pushed.cells.size = row.cells.size := by
  refine ⟨_, dif_pos room, ?_, Array.size_set room⟩
  have length : (row.contents ++ [byte]).length = row.used + 1 := by
    rw [List.length_append, length_contents, List.length_singleton]
  have inside : row.used < row.cells.toList.length := room
  rw [contents_eq_take, Array.toList_set, List.set_eq_take_append_cons_drop, if_pos inside,
    ← contents_eq_take, List.append_cons]
  exact List.take_left' length

theorem push?_of_not_lt (byte : UInt8) (full : ¬row.used < row.cells.size) :
    row.push? byte = none :=
  dif_neg full

@[simp] theorem contents_double (row : Row) : row.double.contents = row.contents := by
  rw [contents_eq_take, contents_eq_take, double, Array.toList_append]
  exact List.take_append_of_le_length row.used_le

theorem size_double (row : Row) : row.double.cells.size = 2 * row.cells.size := by
  rw [double, Array.size_append, Array.size_replicate, Nat.two_mul]

theorem size_dropRecords (row : Row) (separator : UInt8) :
    (row.dropRecords separator).cells.size = row.cells.size := by
  have bounded := row.used_le
  rw [dropRecords, Array.size_append, Array.size_extract, Array.size_extract]
  omega

theorem completeLength_of_contents (contents : row.contents = frame separator records ++ tail)
    (tailFree : separator ∉ tail) :
    row.completeLength separator = (frame separator records).length := by
  have used := row.length_contents
  rw [contents, List.length_append] at used
  rw [completeLength, contents, idxOf_reverse_frame_append tailFree, ← used, Nat.add_sub_cancel]

theorem records_of_contents (contents : row.contents = frame separator records ++ tail)
    (free : ∀ record ∈ records, separator ∉ record) (tailFree : separator ∉ tail) :
    row.records separator = records := by
  have within := row.completeLength_le separator
  have front : (row.cells.extract 0 (row.completeLength separator)).toList =
      row.contents.take (row.completeLength separator) := by
    simp [contents_eq_take, List.take_take, within]
  rw [Row.records, front, completeLength_of_contents contents tailFree, contents, List.take_left,
    splitOn_frame free, List.dropLast_concat]

/-- The bytes that are moved are the last ones in use, though the cells they come from and those they go
to may overlap. -/
theorem contents_dropRecords (row : Row) (separator : UInt8) :
    (row.dropRecords separator).contents =
      row.contents.drop (row.completeLength separator) := by
  have moved : (row.cells.extract (row.completeLength separator) row.used).toList =
      row.contents.drop (row.completeLength separator) := by
    simp [contents_eq_take, List.drop_take]
  have length : (row.contents.drop (row.completeLength separator)).length =
      row.used - row.completeLength separator := by
    rw [List.length_drop, length_contents]
  rw [contents_eq_take, dropRecords, Array.toList_append, moved]
  exact List.take_left' length

theorem contents_dropRecords_of_contents
    (contents : row.contents = frame separator records ++ tail) (tailFree : separator ∉ tail) :
    (row.dropRecords separator).contents = tail := by
  rw [contents_dropRecords, completeLength_of_contents contents tailFree, contents,
    List.drop_left]

end Row

/-- A queue remembers all the bytes that were ever pushed. Those that are gone are the first ones. -/
structure Queue where
  pushed : Bytes
  gone : Nat
  capacity : Nat

namespace Queue

def start (capacity : Nat) : Queue where
  pushed := []
  gone := 0
  capacity := max capacity 1

def held (queue : Queue) : Bytes :=
  queue.pushed.drop queue.gone

/-- A byte is pushed only where there is room. With the records, all goes but the bytes that were pushed
after the last separator. -/
def move? (queue : Queue) : Move → Option Queue
  | .push byte =>
      if queue.held.length < queue.capacity then
        some { queue with pushed := queue.pushed ++ [byte] }
      else
        none
  | .dropRecords separator =>
      some { queue with gone := queue.pushed.length - queue.held.reverse.idxOf separator }
  | .double => some { queue with capacity := 2 * queue.capacity }

variable {queue : Queue}

theorem held_push (within : queue.gone ≤ queue.pushed.length) (byte : UInt8) :
    { queue with pushed := queue.pushed ++ [byte] }.held = queue.held ++ [byte] :=
  List.drop_append_of_le_length within

/-- What is left of a queue once its records are gone. -/
theorem held_of_gone (held : queue.held = frame separator records ++ tail)
    (tailFree : separator ∉ tail) :
    { queue with gone := queue.pushed.length - queue.held.reverse.idxOf separator }.held = tail := by
  have last : tail <:+ queue.pushed := by
    refine List.IsSuffix.trans ?_ (List.drop_suffix queue.gone queue.pushed)
    exact ⟨_, held.symm⟩
  rw [held, idxOf_reverse_frame_append tailFree]
  exact (List.suffix_iff_eq_drop.mp last).symm

end Queue

/-- A spool and a row of cells hold what a queue holds. -/
structure Holds (queue : Queue) (spool : Spool) (row : Row) : Prop where
  within : queue.gone ≤ queue.pushed.length
  contents : spool.contents = queue.held
  capacity : spool.capacity = queue.capacity
  cellContents : row.contents = queue.held
  cells : row.cells.size = queue.capacity

/-- A queue, a spool and a row of cells have come equally far. -/
inductive InStep (holds : Queue → Spool → Row → Prop) :
    Option Queue → Option Spool → Option Row → Prop where
  | refused : InStep holds none none none
  | goesOn {queue : Queue} {spool : Spool} {row : Row} (held : holds queue spool row) :
      InStep holds (some queue) (some spool) (some row)

theorem InStep.imp {holds weaker : Queue → Spool → Row → Prop} {queue : Option Queue}
    {spool : Option Spool} {row : Option Row} (inStep : InStep holds queue spool row)
    (implies : ∀ queue spool row, holds queue spool row → weaker queue spool row) :
    InStep weaker queue spool row := by
  cases inStep with
  | refused => exact .refused
  | goesOn held => exact .goesOn (implies _ _ _ held)

variable {queue : Queue} {spool : Spool} {row : Row}

theorem Holds.push (holds : Holds queue spool row) (byte : UInt8) :
    InStep Holds (queue.move? (.push byte)) (spool.push? byte) (row.push? byte) := by
  have size : spool.size = queue.held.length := by rw [← holds.contents, length_contents]
  have used : row.used = queue.held.length := by rw [← holds.cellContents, row.length_contents]
  by_cases room : queue.held.length < queue.capacity
  · have free : row.used < row.cells.size := by rwa [used, holds.cells]
    obtain ⟨pushed, taken, contents, capacity⟩ := Row.push?_of_lt byte free
    cases push : spool.push? byte with
    | none =>
        have full := push?_eq_none_iff.mp push
        rw [isFull, beq_iff_eq, size, holds.capacity] at full
        omega
    | some next =>
        rw [Queue.move?, if_pos room, taken]
        refine .goesOn ⟨?_, ?_, ?_, ?_, ?_⟩
        · simp
          have within := holds.within
          omega
        · rw [contents_of_push? push, holds.contents, Queue.held_push holds.within]
        · rw [capacity_of_push? push, holds.capacity]
        · rw [contents, holds.cellContents, Queue.held_push holds.within]
        · rw [capacity, holds.cells]
  · have full : spool.push? byte = none := by
      rw [push?_eq_none_iff, isFull, beq_iff_eq]
      have bounded := spool.size_le
      rw [holds.capacity] at bounded ⊢
      omega
    rw [Queue.move?, if_neg room, full, Row.push?_of_not_lt byte (by rwa [used, holds.cells])]
    exact .refused

theorem Holds.dropRecords (holds : Holds queue spool row) (separator : UInt8) :
    InStep Holds (queue.move? (.dropRecords separator)) (some (spool.dropRecords separator))
      (some (row.dropRecords separator)) := by
  obtain ⟨records, tail, held, -, tailFree⟩ := exists_frame separator queue.held
  have left := Queue.held_of_gone held tailFree
  refine .goesOn ⟨?_, ?_, holds.capacity, ?_, ?_⟩
  · exact Nat.sub_le _ _
  · rw [left]
    exact contents_dropRecords_of_contents (holds.contents.trans held) tailFree
  · rw [left]
    exact Row.contents_dropRecords_of_contents (holds.cellContents.trans held) tailFree
  · rw [row.size_dropRecords, holds.cells]

theorem Holds.double (holds : Holds queue spool row) :
    InStep Holds (queue.move? .double) (some spool.double) (some row.double) := by
  refine .goesOn ⟨holds.within, holds.contents, ?_, ?_, ?_⟩
  · exact congrArg (2 * ·) holds.capacity
  · exact row.contents_double.trans holds.cellContents
  · rw [row.size_double, holds.cells]

theorem Holds.move (holds : Holds queue spool row) (move : Move) :
    InStep Holds (queue.move? move) (spool.move? move) (row.move? move) := by
  cases move with
  | push byte => exact holds.push byte
  | dropRecords separator => exact holds.dropRecords separator
  | double => exact holds.double

theorem Holds.moves (holds : Holds queue spool row) (moves : List Move) :
    InStep Holds (moves.foldlM Queue.move? queue) (moves.foldlM move? spool)
      (moves.foldlM Row.move? row) := by
  induction moves generalizing queue spool row with
  | nil => exact .goesOn holds
  | cons move moves induction =>
      have step := holds.move move
      simp only [List.foldlM_cons]
      generalize queue.move? move = nextQueue, spool.move? move = nextSpool,
        row.move? move = nextRow at step ⊢
      cases step with
      | refused => exact .refused
      | goesOn next => exact induction next

theorem holds_start (capacity : Nat) :
    Holds (.start capacity) (.empty capacity) (.blank capacity) where
  within := Nat.le_refl 0
  contents := rfl
  capacity := rfl
  cellContents := Row.contents_blank capacity
  cells := Array.size_replicate

/-- A spool and a row of cells show of a queue what it holds and how far they are filled, and they read
it as records in the same way. -/
structure Shows (queue : Queue) (spool : Spool) (row : Row) : Prop extends
    Holds queue spool row where
  size : spool.size = queue.held.length
  used : row.used = queue.held.length
  fits : queue.held.length ≤ queue.capacity
  framing (separator : UInt8) : Framing separator queue.held (spool.records separator)
    (spool.dropRecords separator).contents (spool.completeLength separator)
  cellFraming (separator : UInt8) : Framing separator queue.held (row.records separator)
    (row.dropRecords separator).contents (row.completeLength separator)

theorem Holds.shows (holds : Holds queue spool row) : Shows queue spool row where
  toHolds := holds
  size := by rw [← holds.contents, length_contents]
  used := by rw [← holds.cellContents, row.length_contents]
  fits := by
    rw [← holds.contents, length_contents, ← holds.capacity]
    exact spool.size_le
  framing separator := by
    obtain ⟨records, tail, held, free, tailFree⟩ := exists_frame separator queue.held
    have contents := holds.contents.trans held
    rw [records_of_contents contents free tailFree,
      contents_dropRecords_of_contents contents tailFree,
      completeLength_of_contents contents tailFree]
    exact framing_of_joined held.symm free tailFree
  cellFraming separator := by
    obtain ⟨records, tail, held, free, tailFree⟩ := exists_frame separator queue.held
    have contents := holds.cellContents.trans held
    rw [Row.records_of_contents contents free tailFree,
      Row.contents_dropRecords_of_contents contents tailFree,
      Row.completeLength_of_contents contents tailFree]
    exact framing_of_joined held.symm free tailFree

/-- Whatever is done to it, a spool holds the bytes that were pushed and are not gone, refuses a byte just
where there is no room, and reads what it holds as the records that the separators mark out. So does a
row of cells, where no byte comes back that a move left behind. -/
theorem moves_show_queue (capacity : Nat) (moves : List Move) :
    InStep Shows (moves.foldlM Queue.move? (.start capacity))
      (moves.foldlM move? (.empty capacity)) (moves.foldlM Row.move? (.blank capacity)) :=
  ((holds_start capacity).moves moves).imp fun _ _ _ holds => holds.shows

end Spool

end ClauseExchange
