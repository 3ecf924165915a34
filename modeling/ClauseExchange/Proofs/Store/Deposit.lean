import ClauseExchange.Proofs.Store.Entries

/-!
Records laid down in a store under successive outgoing numbers, at one go or with deeds of others in
between.
-/

namespace ClauseExchange.Store

variable {store : Store}

/-- A store with records laid down from a number on, one write to each. -/
def deposit (store : Store) : Nat → List Bytes → Store
  | _, [] => store
  | number, record :: records =>
      (store.spend.insert (Key.outgoing number) record).deposit (number + 1) records

theorem deposit_append (store : Store) (number : Nat) (first second : List Bytes) :
    store.deposit number (first ++ second) =
      (store.deposit number first).deposit (number + first.length) second := by
  induction first generalizing store number with
  | nil => rfl
  | cons record first induction =>
      rw [List.cons_append, deposit, deposit, induction, List.length_cons,
        Nat.add_right_comm, Nat.add_assoc]

@[simp] theorem reachable_deposit (store : Store) (number : Nat) (records : List Bytes) :
    (store.deposit number records).reachable = store.reachable := by
  induction records generalizing store number with
  | nil => rfl
  | cons record records induction => exact induction _ _

theorem allowance_deposit (store : Store) (number : Nat) (records : List Bytes) :
    (store.deposit number records).allowance = store.allowance.map (· - records.length) := by
  induction records generalizing store number with
  | nil => simp [deposit]
  | cons record records induction =>
      rw [deposit, induction]
      simp only [insert, spend, Option.map_map, List.length_cons]
      congr 1
      funext left
      simp only [Function.comp_apply]
      omega

theorem deposit_connections (store : Store) (number : Nat) (records : List Bytes)
    (connections : Nat) :
    ({ store with connections } : Store).deposit number records =
      { store.deposit number records with connections } := by
  induction records generalizing store number with
  | nil => rfl
  | cons record records induction =>
      exact induction (store.spend.insert (Key.outgoing number) record) (number + 1)

theorem value?_deposit_of_ne {number : Nat} {records : List Bytes} {key : String}
    (other : ∀ index < records.length, Key.outgoing (number + index) ≠ key) :
    (store.deposit number records).value? key = store.value? key := by
  induction records generalizing store number with
  | nil => rfl
  | cons record records induction =>
      have first : Key.outgoing number ≠ key := other 0 (Nat.zero_lt_succ _)
      have rest : ∀ index < records.length, Key.outgoing (number + 1 + index) ≠ key := by
        intro index inside
        rw [Nat.add_assoc, Nat.add_comm 1]
        exact other (index + 1) (Nat.succ_lt_succ inside)
      rw [deposit, induction rest, value?_insert, if_neg first]
      rfl

theorem value?_deposit (store : Store) (number : Nat) (records : List Bytes) {index : Nat}
    {record : Bytes} (held : records[index]? = some record) :
    (store.deposit number records).value? (Key.outgoing (number + index)) = some record := by
  induction records generalizing store number index with
  | nil => cases held
  | cons first records induction =>
      cases index with
      | zero =>
          cases held
          have later : ∀ index < records.length,
              Key.outgoing (number + 1 + index) ≠ Key.outgoing number := by
            intro index _ same
            have numbers := Key.outgoing_injective same
            omega
          calc
            _ = (store.spend.insert (Key.outgoing number) record).value? (Key.outgoing number) :=
              value?_deposit_of_ne later
            _ = some record := by rw [value?_insert, if_pos rfl]
      | succ index =>
          rw [deposit, ← Nat.add_assoc, Nat.add_right_comm]
          exact induction (store.spend.insert (Key.outgoing number) first) (number + 1) held

/-- One store comes from another by records laid down, and by connections. -/
def Receives (number : Nat) (records : List Bytes) (before after : Store) : Prop :=
  ∃ connections, after = { before.deposit number records with connections }

namespace Receives

variable {number : Nat} {first second : List Bytes} {before middle after : Store}

theorem refl (number : Nat) (store : Store) : Receives number [] store store :=
  ⟨store.connections, rfl⟩

theorem trans (earlier : Receives number first before middle)
    (later : Receives (number + first.length) second middle after) :
    Receives number (first ++ second) before after := by
  obtain ⟨_, rfl⟩ := earlier
  obtain ⟨connections, rfl⟩ := later
  exact ⟨connections, by rw [deposit_connections, deposit_append]⟩

theorem isOpen (receives : Receives number first before after) (isOpen : before.IsOpen) :
    after.IsOpen := by
  obtain ⟨connections, rfl⟩ := receives
  refine ⟨?_, ?_⟩
  · rw [← isOpen.1]
    exact reachable_deposit before number first
  · change (before.deposit number first).allowance = none
    rw [allowance_deposit, isOpen.2]
    rfl

theorem value?_of_ne (receives : Receives number first before after) {key : String}
    (other : ∀ index < first.length, Key.outgoing (number + index) ≠ key) :
    after.value? key = before.value? key := by
  obtain ⟨connections, rfl⟩ := receives
  exact value?_deposit_of_ne other

theorem value? (receives : Receives number first before after) {index : Nat} {record : Bytes}
    (held : first[index]? = some record) :
    after.value? (Key.outgoing (number + index)) = some record := by
  obtain ⟨connections, rfl⟩ := receives
  exact value?_deposit before number first held

end Receives

/-- The course of a store: records are laid down from a number on, one write to each number, and
others do their deeds in between. -/
inductive Course (number : Nat) : List Bytes → List Deed → Store → Store → Prop where
  | start (store : Store) : Course number [] [] store store
  | receive {records more : List Bytes} {deeds : List Deed} {before middle after : Store}
      (earlier : Course number records deeds before middle)
      (received : Receives (number + records.length) more middle after) :
      Course number (records ++ more) deeds before after
  | undergo {records : List Bytes} {deeds : List Deed} {before middle : Store}
      (earlier : Course number records deeds before middle) (deed : Deed) :
      Course number records (deeds ++ [deed]) before (middle.undergo deed)

namespace Course

variable {number : Nat} {first second : List Bytes} {deeds others : List Deed}
  {before middle after : Store}

theorem ofReceives (received : Receives number first before after) :
    Course number first [] before after :=
  (Course.start before).receive received

theorem trans (earlier : Course number first deeds before middle)
    (later : Course (number + first.length) second others middle after) :
    Course number (first ++ second) (deeds ++ others) before after := by
  induction later with
  | start =>
      rw [List.append_nil, List.append_nil]
      exact earlier
  | receive later received induction =>
      rw [← List.append_assoc]
      refine (induction earlier).receive ?_
      rw [List.length_append, ← Nat.add_assoc]
      exact received
  | undergo later deed induction =>
      rw [← List.append_assoc]
      exact (induction earlier).undergo deed

theorem isOpen (course : Course number first deeds before after)
    (keeps : ∀ deed ∈ deeds, deed.KeepsOpen) (isOpen : before.IsOpen) : after.IsOpen := by
  induction course with
  | start => exact isOpen
  | receive earlier received induction => exact received.isOpen (induction keeps isOpen)
  | undergo earlier deed induction =>
      have middle := induction (fun deed member => keeps deed (List.mem_append_left _ member)) isOpen
      exact middle.undergo (keeps deed (List.mem_append_right _ (List.mem_singleton_self deed)))

theorem value?_of_ne (course : Course number first deeds before after)
    (spares : ∀ deed ∈ deeds, deed.Spares Key.outgoingStem) {other : Nat}
    (outside : other < number ∨ number + first.length ≤ other) :
    after.value? (Key.outgoing other) = before.value? (Key.outgoing other) := by
  induction course with
  | start => rfl
  | @receive records more _ _ _ _ earlier received induction =>
      rw [List.length_append] at outside
      rw [received.value?_of_ne, induction spares (by omega)]
      intro index inside same
      have numbers := Key.outgoing_injective same
      omega
  | undergo earlier deed induction =>
      rw [← induction (fun deed member => spares deed (List.mem_append_left _ member)) outside]
      have spared := spares deed (List.mem_append_right _ (List.mem_singleton_self deed))
      exact value?_undergo_of_spares spared _ other

theorem value? (course : Course number first deeds before after)
    (spares : ∀ deed ∈ deeds, deed.Spares Key.outgoingStem) {index : Nat} {record : Bytes}
    (held : first[index]? = some record) :
    after.value? (Key.outgoing (number + index)) = some record := by
  induction course with
  | start => cases held
  | @receive records more _ _ _ _ earlier received induction =>
      rcases getElem?_append_cases held with early | ⟨rest, rfl, late⟩
      · rw [received.value?_of_ne, induction spares early]
        intro other _ same
        have numbers := Key.outgoing_injective same
        have inside := (List.getElem?_eq_some_iff.mp early).1
        omega
      · rw [← Nat.add_assoc]
        exact received.value? late
  | undergo earlier deed induction =>
      rw [← induction (fun deed member => spares deed (List.mem_append_left _ member)) held]
      have spared := spares deed (List.mem_append_right _ (List.mem_singleton_self deed))
      exact value?_undergo_of_spares spared _ (number + index)

theorem receives (course : Course number first [] before after) :
    Receives number first before after := by
  generalize nothing : ([] : List Deed) = deeds at course
  induction course with
  | start => exact Receives.refl _ _
  | receive earlier received induction => exact (induction nothing).trans received
  | undergo earlier deed => exact absurd nothing.symm (List.append_ne_nil_of_right_ne_nil _ nofun)

end Course

end ClauseExchange.Store
