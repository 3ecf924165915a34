import ClauseExchange.Channel

/-!
The notices of a journal that trace lines. They are told from all others by their level and by how they
begin, and a channel makes none by itself.
-/

namespace ClauseExchange

namespace Notice

/-- Whether a text begins like a message about an added or a deleted line. -/
def opensAsLine (text : String) : Bool :=
  ["Add line ", "Delete line "].any fun opening => opening.toList.isPrefixOf text.toList

def tellsLine (notice : Notice) : Bool :=
  match notice.level with
  | .trace => opensAsLine notice.text
  | _ => false

theorem opensAsLine_action (action : Action) (rest : String) :
    opensAsLine (action.name ++ " line " ++ rest) = true := by
  rw [opensAsLine, String.toList_append]
  cases action <;> rfl

/-- The part of a message about a line that shows the solver's literals. -/
def internalPart : Option (List UInt32) → String
  | none => ""
  | some sources => s!" (internal {bracketed (sources.map fun source => toString source.toNat)})"

theorem text_lineTraced (action : Action) (literals : List Literal)
    (sources : Option (List UInt32)) :
    (lineTraced action literals sources).text =
      action.name ++ " line " ++ (showLiterals literals ++ internalPart sources) := by
  cases sources with
  | none => rw [internalPart, String.append_empty]; rfl
  | some sources => simp only [internalPart, ← String.append_assoc]; rfl

theorem tellsLine_lineTraced (action : Action) (literals : List Literal)
    (sources : Option (List UInt32)) : (lineTraced action literals sources).tellsLine = true := by
  rw [tellsLine, text_lineTraced]
  exact opensAsLine_action action (showLiterals literals ++ internalPart sources)

/-- The other messages of the same level begin otherwise. -/
theorem opensAsLine_of_mem (opening : String)
    (member : opening ∈ ["Explicitly deleted ", "Unit ", "Clause ", "Admitted after "])
    (rest : String) : opensAsLine (opening ++ rest) = false := by
  rw [opensAsLine, String.toList_append]
  simp only [List.mem_cons, List.not_mem_nil, or_false] at member
  rcases member with rfl | rfl | rfl | rfl <;> rfl

theorem tellsLine_eq_false {notice : Notice}
    (other : ∀ action literals sources, notice ≠ .lineTraced action literals sources) :
    notice.tellsLine = false := by
  cases notice with
  | lineTraced action literals sources => exact absurd rfl (other action literals sources)
  | deletionGiven => exact opensAsLine_of_mem "Explicitly deleted " (by simp) _
  | unitReceived => exact opensAsLine_of_mem "Unit " (by simp) _
  | clauseReceived => exact opensAsLine_of_mem "Clause " (by simp) _
  | pollAdmitted requests =>
      have begins :=
        opensAsLine_of_mem "Admitted after " (by simp) (toString requests ++ " requests")
      rwa [← String.append_assoc] at begins
  | _ => rfl

theorem tellsLine_iff {notice : Notice} : notice.tellsLine = true ↔
    ∃ action literals sources, notice = .lineTraced action literals sources := by
  constructor
  · intro tells
    cases notice with
    | lineTraced action literals sources => exact ⟨action, literals, sources, rfl⟩
    | _ =>
        rw [tellsLine_eq_false (by intro _ _ _ same; cases same)] at tells
        cases tells
  · rintro ⟨action, literals, sources, rfl⟩
    exact tellsLine_lineTraced action literals sources

end Notice

namespace Channel

/-- The notices of lines in a journal, oldest first. -/
def lineNotices (channel : Channel) : List Notice :=
  channel.journal.toList.filter Notice.tellsLine

variable {channel : Channel}

theorem lineNotices_note (channel : Channel) (notice : Notice) :
    (channel.note notice).lineNotices =
      channel.lineNotices ++ if notice.tellsLine then [notice] else [] := by
  rw [lineNotices, lineNotices, note, Array.toList_push, List.filter_append]
  cases tells : notice.tellsLine <;> simp [tells]

@[simp] theorem lineNotices_note_of_other {notice : Notice} (other : notice.tellsLine = false) :
    (channel.note notice).lineNotices = channel.lineNotices := by
  simp [lineNotices_note, other]

theorem lineNotices_connect (channel : Channel) :
    channel.connect.2.lineNotices = channel.lineNotices := by
  unfold connect
  cases channel.store.connect channel.session.host channel.session.port with
  | ok store => rfl
  | error error => exact lineNotices_note_of_other rfl

theorem lineNotices_write (written : Nat) (records : List Bytes) (channel : Channel) :
    (channel.write written records).2.lineNotices = channel.lineNotices := by
  induction records generalizing written channel with
  | nil => rfl
  | cons record records induction =>
      unfold write
      dsimp only
      cases channel.store.set (Key.outgoing channel.session.nextOutgoing) record with
      | error error => exact lineNotices_note_of_other rfl
      | ok store =>
          dsimp only
          cases channel.session.advanceOutgoing? with
          | none => rfl
          | some session => exact induction (written + 1) { channel with store, session }

theorem lineNotices_send (records : List Bytes) (channel : Channel) :
    (channel.send records).2.lineNotices = channel.lineNotices := by
  have connecting := lineNotices_connect channel
  unfold send
  split
  · rfl
  · generalize channel.connect = outcome at connecting ⊢
    obtain ⟨_ | _, connected⟩ := outcome
    · exact connecting
    · exact (lineNotices_write 0 records connected).trans connecting

end Channel

end ClauseExchange
