import ClauseExchange.Proofs.Channel.Twins

/-!
What a channel does is told by its session and its store. Two channels that have these in common do the
same, and write the same in their journals.
-/

namespace ClauseExchange.Channel

/-- One session and one store, and journals in a relation. -/
structure SameBut (journals : Journal → Journal → Prop) (first second : Channel) : Prop where
  session : first.session = second.session
  store : first.store = second.store
  journal : journals first.journal second.journal

/-- Journals stay in relation when one notice is added to both. -/
def KeptByNotices (journals : Journal → Journal → Prop) : Prop :=
  ∀ {first second : Journal}, journals first second →
    ∀ notice, journals (first.push notice) (second.push notice)

namespace SameBut

variable {journals : Journal → Journal → Prop} {first second : Channel}

theorem note (same : SameBut journals first second) {one other : Notice}
    (noted : journals (first.journal.push one) (second.journal.push other)) :
    SameBut journals (first.note one) (second.note other) :=
  ⟨same.session, same.store, noted⟩

theorem connect (kept : KeptByNotices journals) (same : SameBut journals first second) :
    Agree (SameBut journals) first.connect second.connect := by
  unfold Channel.connect
  rw [← same.session, ← same.store]
  cases first.store.connect first.session.host first.session.port with
  | ok store => exact ⟨rfl, rfl, rfl, same.journal⟩
  | error error => exact ⟨rfl, same.note (kept same.journal _)⟩

theorem write (kept : KeptByNotices journals) (same : SameBut journals first second) (written : Nat)
    (records : List Bytes) :
    Agree (SameBut journals) (first.write written records) (second.write written records) := by
  induction records generalizing written first second with
  | nil => exact ⟨rfl, same⟩
  | cons record records induction =>
      unfold Channel.write
      rw [← same.session, ← same.store]
      dsimp only
      cases first.store.set (Key.outgoing first.session.nextOutgoing) record with
      | error error => exact ⟨rfl, same.note (kept same.journal _)⟩
      | ok store =>
          dsimp only
          cases first.session.advanceOutgoing? with
          | none => exact ⟨rfl, rfl, rfl, same.journal⟩
          | some session =>
              have moved : SameBut journals { first with store, session }
                  { second with store, session } := ⟨rfl, rfl, same.journal⟩
              exact induction moved (written + 1)

theorem send (kept : KeptByNotices journals) (same : SameBut journals first second)
    (records : List Bytes) :
    Agree (SameBut journals) (first.send records) (second.send records) := by
  unfold Channel.send
  split
  · exact ⟨rfl, same⟩
  · have connecting := same.connect kept
    generalize first.connect = one at connecting ⊢
    generalize second.connect = other at connecting ⊢
    obtain ⟨reached, left⟩ := one
    obtain ⟨_, right⟩ := other
    obtain ⟨rfl, connected⟩ := connecting
    cases reached with
    | false => exact ⟨rfl, connected⟩
    | true => exact connected.write kept 0 records

end SameBut

end ClauseExchange.Channel
