import ClauseExchange.Proofs.Doubling
import ClauseExchange.Proofs.Solver.KeepsStack
import ClauseExchange.Proofs.Tracer.Trail

/-!
The size of the spool. A flush in the middle of a line sends whole lines only, and so the spool is doubled
just where a part of one line fills it alone. It is then as large as the longest line needs.
-/

namespace ClauseExchange

theorem Line.separator_not_mem_part {encoding : Encoding} {line : Line} {part rest : Bytes}
    {byte : UInt8} (parts : line.encode encoding = part ++ byte :: rest) :
    encoding.separator ∉ part := by
  intro member
  have record : line.record encoding = part ++ (byte :: rest).dropLast := by
    rw [← List.dropLast_append_of_ne_nil (List.cons_ne_nil byte rest), ← parts, encode,
      List.dropLast_concat]
  apply line.separator_not_mem_record encoding
  rw [record]
  exact List.mem_append_left _ member

namespace Tracing

/-- Every line fits, and so do as many bytes of the next one. -/
def Fits (encoding : Encoding) (emitted : List Line) (length size : Nat) : Prop :=
  (∀ line ∈ emitted, (line.encode encoding).length ≤ size) ∧ length ≤ size

/-- The last lines are in the spool as a whole, and behind them there is a part of the next one. -/
structure Queues (encoding : Encoding) (emitted : List Line) (part : Bytes) (tracing : Tracing) :
    Prop where
  encodes : tracing.tracer.encoding = encoding
  contents : ∃ waiting, waiting <:+ emitted ∧
    tracing.tracer.spool.contents = waiting.flatMap (Line.encode encoding) ++ part

/-- The spool is as large as the lines need, and `length` bytes of the next one. -/
def Sized (base : Nat) (encoding : Encoding) (emitted : List Line) (length : Nat)
    (tracing : Tracing) : Prop :=
  IsLeast {size ∈ doublings base | Fits encoding emitted length size} tracing.tracer.spool.capacity

variable {base : Nat} {encoding : Encoding} {emitted : List Line} {part bytes rest : Bytes}
  {line : Line} {start tracing flushed drafted after : Tracing}

theorem Fits.of_succ {length size : Nat} (fits : Fits encoding emitted (length + 1) size) :
    Fits encoding emitted length size :=
  ⟨fits.1, Nat.le_of_succ_le fits.2⟩

theorem fits_snoc_iff {size : Nat} :
    Fits encoding (emitted ++ [line]) 0 size ↔
      Fits encoding emitted (line.encode encoding).length size := by
  simp [Fits, or_imp, forall_and]

theorem Queues.length_le (queues : Queues encoding emitted part tracing) :
    part.length ≤ tracing.tracer.spool.size := by
  obtain ⟨waiting, _, contents⟩ := queues.contents
  rw [← Spool.length_contents, contents, List.length_append]
  exact Nat.le_add_left _ _

/-- Of the lines that waited in the spool, some were sent, and the part behind them is left. -/
structure LeavesPart (waiting : List Line) (part : Bytes) (before after : Tracing) : Prop where
  encoding : after.tracer.encoding = before.tracer.encoding
  contents : after.tracer.spool.contents = part
  capacity : after.tracer.spool.capacity = before.tracer.spool.capacity
  sent : ∃ written,
    Channel.Sent (waiting.map (Line.record before.tracer.encoding)) before.channel written
      after.channel

theorem flush_leaves_part {waiting : List Line}
    (contents : tracing.tracer.spool.contents =
      waiting.flatMap (Line.encode tracing.tracer.encoding) ++ part)
    (free : tracing.tracer.encoding.separator ∉ part) :
    Yields tracing.flush (fun _ flushed => LeavesPart waiting part tracing flushed)
      (fun fault flushed => flushed.channel.OutOfNumbers fault) := by
  rw [← frame_records] at contents
  refine (tracing.flush_yields.both tracing.flush_stops).imp ?_ (fun _ _ broken => broken.2)
  intro delivery flushed known
  obtain ⟨⟨_, tracer, sent⟩, _⟩ := known
  constructor
  case encoding =>
    rw [tracer]
    rfl
  case contents =>
    rw [tracer]
    exact Spool.contents_dropRecords_of_contents contents free
  case capacity =>
    rw [tracer]
    rfl
  case sent =>
    have records := Spool.records_of_contents contents (separator_not_mem_records _ _) free
    rw [← records]
    exact ⟨_, sent⟩

theorem Queues.flush (queues : Queues encoding emitted part tracing)
    (free : encoding.separator ∉ part) :
    Yields tracing.flush
      (fun _ flushed => Queues encoding emitted part flushed ∧
        flushed.tracer.spool.contents = part ∧
        flushed.tracer.spool.capacity = tracing.tracer.spool.capacity)
      (fun _ _ => True) := by
  obtain ⟨waiting, _, contents⟩ := queues.contents
  rw [← queues.encodes] at contents free
  refine (flush_leaves_part contents free).imp ?_ (fun _ _ _ => trivial)
  intro _ flushed leaves
  refine ⟨⟨?_, [], List.nil_suffix, leaves.contents⟩, leaves.contents, leaves.capacity⟩
  exact leaves.encoding.trans queues.encodes

theorem Queues.widen (queues : Queues encoding emitted part tracing) :
    Queues encoding emitted part tracing.widen := by
  have alike := alike_widen tracing
  refine ⟨alike.encoding.trans queues.encodes, ?_⟩
  rw [alike.contents]
  exact queues.contents

theorem Sized.of_room (sized : Sized base encoding emitted part.length tracing)
    (queues : Queues encoding emitted part tracing)
    (room : ¬tracing.tracer.spool.isFull = true) :
    Sized base encoding emitted (part.length + 1) tracing := by
  apply isLeast_doublings_of_holds sized (fun _ => Fits.of_succ)
  refine ⟨sized.1.2.1, ?_⟩
  have held := queues.length_le
  have bounded := tracing.tracer.spool.size_le
  rw [Spool.isFull, beq_iff_eq] at room
  omega

/-- A spool that is full of one part is too small by its next byte. -/
theorem Sized.widen (sized : Sized base encoding emitted part.length tracing)
    (queues : Queues encoding emitted part tracing)
    (alone : tracing.tracer.spool.contents = part) :
    Sized base encoding emitted (part.length + 1) tracing.widen := by
  by_cases full : tracing.tracer.spool.isFull = true
  · have filled : part.length = tracing.tracer.spool.capacity := by
      rw [← alone, Spool.length_contents]
      exact beq_iff_eq.mp full
    have doubled : tracing.widen.tracer.spool.capacity = 2 * tracing.tracer.spool.capacity := by
      rw [Tracing.widen, if_pos full]
      rfl
    have positive := tracing.tracer.spool.capacity_pos
    rw [Sized, doubled]
    apply isLeast_doublings_double sized (fun _ => Fits.of_succ)
    · intro fits
      have short := fits.2
      omega
    · refine ⟨?_, by omega⟩
      intro line member
      have fits := sized.1.2.1 line member
      omega
  · rw [Tracing.widen, if_neg full]
    exact sized.of_room queues full

theorem Sized.makeRoom (sized : Sized base encoding emitted part.length tracing)
    (queues : Queues encoding emitted part tracing) (free : encoding.separator ∉ part) :
    Yields tracing.makeRoom
      (fun _ roomy => Queues encoding emitted part roomy ∧
        Sized base encoding emitted (part.length + 1) roomy)
      (fun _ _ => True) := by
  unfold Tracing.makeRoom
  split
  case isTrue full =>
    -- After the flush the part is alone in the spool, which is full then if the part fills it.
    rcases (queues.flush free).split with
      ⟨fault, flushed, outcome, _⟩ | ⟨_, flushed, outcome, queues, alone, capacity⟩
    · rw [outcome]
      trivial
    · rw [outcome]
      rw [Sized, ← capacity] at sized
      exact ⟨queues.widen, Sized.widen sized queues alone⟩
  case isFalse room => exact ⟨queues, sized.of_room queues room⟩

/-- In the middle of a line the spool is no larger than what there is of the line needs. -/
structure Writes (base : Nat) (encoding : Encoding) (emitted : List Line) (part : Bytes)
    (tracing : Tracing) : Prop extends Queues encoding emitted part tracing where
  sized : Sized base encoding emitted part.length tracing

theorem Writes.put (writes : Writes base encoding emitted part tracing)
    (free : encoding.separator ∉ part) (byte : UInt8) :
    Yields (tracing.put byte)
      (fun _ after => Writes base encoding emitted (part ++ [byte]) after) (fun _ _ => True) := by
  unfold Tracing.put
  rcases (writes.sized.makeRoom writes.toQueues free).split with
    ⟨fault, roomy, outcome, _⟩ | ⟨_, roomy, outcome, queues, sized⟩
  · rw [outcome]
    trivial
  · rw [outcome]
    dsimp only
    cases push : roomy.tracer.spool.push? byte with
    | none => trivial
    | some spool =>
        obtain ⟨waiting, last, contents⟩ := queues.contents
        refine ⟨⟨queues.encodes, waiting, last, ?_⟩, ?_⟩
        · rw [Spool.contents_of_push? push, contents, List.append_assoc]
        · rw [Sized, Spool.capacity_of_push? push, List.length_append]
          exact sized

theorem Writes.putAll (writes : Writes base encoding emitted part tracing)
    (parts : line.encode encoding = part ++ (bytes ++ rest)) :
    Yields (tracing.putAll bytes)
      (fun _ after => Writes base encoding emitted (part ++ bytes) after) (fun _ _ => True) := by
  induction bytes generalizing part tracing with
  | nil =>
      rw [List.append_nil]
      exact writes
  | cons byte bytes induction =>
      unfold Tracing.putAll
      rcases (writes.put (Line.separator_not_mem_part parts) byte).split with
        ⟨fault, middle, outcome, _⟩ | ⟨_, middle, outcome, further⟩
      · rw [outcome]
        trivial
      · rw [outcome]
        have rest := induction further (by rw [parts, List.append_assoc]; rfl)
        rw [List.append_assoc] at rest
        exact rest

/-- Behind its last byte, a line is one of those that were emitted. -/
theorem Writes.closeLine (writes : Writes base encoding emitted (line.encode encoding) tracing) :
    Writes base encoding (emitted ++ [line]) [] (tracing.closeLine line) := by
  obtain ⟨waiting, last, contents⟩ := writes.contents
  refine ⟨⟨writes.encodes, waiting ++ [line], ?_, ?_⟩, ?_⟩
  · obtain ⟨earlier, rfl⟩ := last
    exact ⟨earlier, (List.append_assoc _ _ _).symm⟩
  · rw [List.append_nil, List.flatMap_append, List.flatMap_singleton]
    exact contents
  · unfold Sized
    simp only [List.length_nil, fits_snoc_iff]
    exact writes.sized

theorem Writes.flush (writes : Writes base encoding emitted [] tracing) :
    Yields tracing.flush (fun _ flushed => Writes base encoding emitted [] flushed)
      (fun _ _ => True) := by
  refine (writes.toQueues.flush List.not_mem_nil).imp ?_ (fun _ _ _ => trivial)
  intro _ flushed left
  obtain ⟨queues, _, capacity⟩ := left
  refine ⟨queues, ?_⟩
  rw [Sized, capacity]
  exact writes.sized

theorem Writes.ofSameSpool (writes : Writes base encoding emitted part tracing)
    (encodings : after.tracer.encoding = tracing.tracer.encoding)
    (spools : after.tracer.spool = tracing.tracer.spool) :
    Writes base encoding emitted part after := by
  refine ⟨⟨encodings.trans writes.encodes, ?_⟩, ?_⟩
  · rw [spools]
    exact writes.contents
  · rw [Sized, spools]
    exact writes.sized

theorem Writes.writeDraft (writes : Writes base encoding emitted [] drafted)
    (draft : drafted.tracer.draft = line.literals) :
    Yields (drafted.writeDraft line.action)
      (fun _ written => Writes base encoding (emitted ++ [line]) [] written) (fun _ _ => True) := by
  unfold Tracing.writeDraft
  rw [draft, writes.encodes]
  dsimp only
  generalize noting : drafted.note _ = noted
  have putting : Writes base encoding emitted [] noted := by
    rw [← noting]
    exact writes.ofSameSpool rfl rfl
  have all : line.encode encoding = [] ++ (line.encode encoding ++ []) :=
    (List.append_nil _).symm
  rcases (putting.putAll all).split with
    ⟨fault, put, outcome, _⟩ | ⟨_, put, outcome, whole⟩
  · rw [outcome]
    trivial
  · rw [outcome]
    have closed := Writes.closeLine whole
    dsimp only
    unfold Tracing.flushIfDue
    split
    case isTrue due =>
      rcases closed.flush.split with ⟨fault, flushed, outcome, _⟩ | ⟨_, flushed, outcome, writes⟩
      · rw [outcome]
        trivial
      · rw [outcome]
        exact writes
    case isFalse notDue => exact closed

theorem Trail.writes (trail : Trail start emitted tracing)
    (writes : Writes base encoding [] [] start) : Writes base encoding emitted [] tracing := by
  induction trail with
  | start => exact writes
  | note _ _ induction => exact induction.ofSameSpool rfl rfl
  | clearDraft _ induction => exact induction.ofSameSpool rfl rfl
  | undergo _ _ induction => exact induction.ofSameSpool rfl rfl
  | flush _ sent induction =>
      have flushing := induction.flush
      rw [sent] at flushing
      exact flushing
  | line _ drafts wrote induction =>
      obtain ⟨sources, audit, tracer⟩ := drafts.tracer
      have drafted := induction.ofSameSpool (by rw [tracer]; rfl) (by rw [tracer]; rfl)
      have writing := Writes.writeDraft drafted (by rw [tracer]; rfl)
      rw [wrote] at writing
      exact writing

theorem start_writes (encoding : Encoding) (settings : Settings) (capacity : Nat)
    (channel : Channel) :
    Writes (max capacity 1) encoding [] [] ⟨Tracer.start encoding settings capacity, channel⟩ where
  encodes := rfl
  contents := ⟨[], List.nil_suffix, rfl⟩
  sized := by
    refine ⟨⟨self_mem_doublings _, nofun, Nat.zero_le _⟩, ?_⟩
    intro size sizes
    exact le_of_mem_doublings sizes.1

/-- Behind whole lines there is a part of a line, and whatever channel a flush meets, it leaves the part. -/
def KeepsPart (encoding : Encoding) (emitted : List Line) (part : Bytes) (midway : Tracing) : Prop :=
  ∃ waiting, waiting <:+ emitted ∧
    midway.tracer.spool.contents = waiting.flatMap (Line.encode encoding) ++ part ∧
    ∀ channel, Yields (flush ⟨midway.tracer, channel⟩)
      (fun _ flushed => LeavesPart waiting part ⟨midway.tracer, channel⟩ flushed)
      (fun fault flushed => flushed.channel.OutOfNumbers fault)

theorem Queues.keepsPart (queues : Queues encoding emitted part tracing)
    (free : encoding.separator ∉ part) : KeepsPart encoding emitted part tracing := by
  obtain ⟨waiting, last, contents⟩ := queues.contents
  refine ⟨waiting, last, contents, ?_⟩
  intro channel
  rw [← queues.encodes] at contents free
  exact flush_leaves_part contents free

theorem Writes.isLeast (writes : Writes base encoding emitted [] tracing) :
    IsLeast {size ∈ doublings base | ∀ line ∈ emitted, (line.encode encoding).length ≤ size}
      tracing.tracer.spool.capacity := by
  simpa [Sized, Fits] using writes.sized

/-- After any run, the spool has the least size, among those that come about by doubling, in which every
line emitted has room. It is not doubled at all where they all fit at once. Growing leaves its contents
alone, and so does a flush in the middle of a line with the part of the line that is there, whatever
channel it meets. -/
theorem run_fits_longest_line {σ : Type} (solver : Solver σ) (encoding : Encoding)
    (settings : Settings) (capacity : Nat) (channel : Channel) (steps : List (Step σ)) :
    let base := max capacity 1
    let start : Tracing := ⟨Tracer.start encoding settings capacity, channel⟩
    let emitted := Step.emitted solver settings.audit steps
    (∀ tracing : Tracing, tracing.widen.tracer.spool.contents = tracing.tracer.spool.contents) ∧
    Yields (run solver steps start)
      (fun _ after => Trail start emitted after ∧
        IsLeast {size ∈ doublings base | ∀ line ∈ emitted, (line.encode encoding).length ≤ size}
          after.tracer.spool.capacity ∧
        ((∀ line ∈ emitted, (line.encode encoding).length ≤ base) →
          after.tracer.spool.capacity = base) ∧
        ∀ draft tally audit link (line : Line) (part rest : Bytes) (byte : UInt8),
          line.encode encoding = part ++ byte :: rest →
          Yields (putAll part ⟨{ after.tracer with draft, tally, audit }, link⟩)
            (fun _ midway => KeepsPart encoding emitted part midway)
            (fun fault midway => midway.channel.OutOfNumbers fault))
      (Exhausted (channel.session.nextOutgoing + emitted.length)) := by
  intro base start emitted
  refine ⟨fun tracing => (alike_widen tracing).contents, ?_⟩
  refine (run_start_trails encoding settings capacity channel solver steps).imp ?_
    (fun _ _ exhausted => exhausted)
  intro _ after trail
  have writes := trail.writes (start_writes encoding settings capacity channel)
  refine ⟨trail, writes.isLeast, ?_, ?_⟩
  · intro fits
    apply writes.isLeast.unique
    refine ⟨⟨self_mem_doublings base, fits⟩, ?_⟩
    intro size sizes
    exact le_of_mem_doublings sizes.1
  · intro draft tally audit link line part rest byte parts
    have drafted : Writes base encoding emitted []
        ⟨{ after.tracer with draft, tally, audit }, link⟩ := writes.ofSameSpool rfl rfl
    refine ((drafted.putAll parts).both (putAll_passes _ part)).imp ?_
      (fun _ _ broken => broken.2.outOfNumbers)
    intro _ midway written
    exact written.1.toQueues.keepsPart (Line.separator_not_mem_part parts)

/-- A line of six bytes has no room in four. -/
example :
    let start : Tracing := ⟨Tracer.start .text {} 2, ⟨.ofSettings {}, {}, #[]⟩⟩
    (run .plain [.perform ⟨(), #[]⟩ (.addUnit 4), .flush] start).2.tracer.spool.capacity = 8 := by
  decide +kernel

end Tracing

end ClauseExchange
