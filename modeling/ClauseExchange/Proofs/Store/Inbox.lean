import ClauseExchange.Proofs.Store.Deposit

/-!
What polls see of a store: whether it can be reached, the lists, and the values in their way. What
solvers write is not among it.
-/

namespace ClauseExchange.Store

/-- Two stores without a limit on writes that look the same to polls. -/
structure SameInbox (first second : Store) : Prop where
  lists : first.lists = second.lists
  reachable : first.reachable = second.reachable
  values : ∀ number, first.value? (Key.incoming number) = second.value? (Key.incoming number)
  unlimited : first.allowance = none ∧ second.allowance = none

/-- A deed that leaves the writes of a store without a limit. -/
def Deed.SetsNoLimit : Deed → Prop
  | .limit allowance => allowance = none
  | _ => True

theorem admitWrite_of_unlimited {store : Store} (unlimited : store.allowance = none) :
    store.admitWrite = if store.reachable then .ok store else .error .connectionLost := by
  unfold admitWrite
  rw [unlimited]

theorem lists_deposit (store : Store) (number : Nat) (records : List Bytes) :
    (store.deposit number records).lists = store.lists := by
  induction records generalizing store number with
  | nil => rfl
  | cons record records induction => exact induction _ _

namespace SameInbox

variable {first second after : Store}

theorem refl {store : Store} (unlimited : store.allowance = none) : SameInbox store store :=
  ⟨rfl, rfl, fun _ => rfl, unlimited, unlimited⟩

/-- Records go by an inbox unnoticed. -/
theorem receives (same : SameInbox first second) {number : Nat} {records : List Bytes}
    (received : Receives number records first after) : SameInbox after second where
  lists := by
    obtain ⟨connections, rfl⟩ := received
    exact (lists_deposit first number records).trans same.lists
  reachable := by
    obtain ⟨connections, rfl⟩ := received
    exact (reachable_deposit first number records).trans same.reachable
  values := by
    intro incoming
    rw [received.value?_of_ne fun index _ => Key.outgoing_ne_incoming _ incoming]
    exact same.values incoming
  unlimited := by
    obtain ⟨connections, rfl⟩ := received
    refine ⟨?_, same.unlimited.2⟩
    change (first.deposit number records).allowance = none
    rw [allowance_deposit, same.unlimited.1]
    rfl

theorem undergo (same : SameInbox first second) {deed : Deed} (unlimited : deed.SetsNoLimit) :
    SameInbox (first.undergo deed) (second.undergo deed) := by
  cases deed with
  | reach reachable => exact ⟨same.lists, rfl, same.values, same.unlimited⟩
  | limit allowance => exact ⟨same.lists, same.reachable, same.values, unlimited, unlimited⟩
  | set key value =>
      unfold Store.undergo Store.set
      dsimp only
      rw [admitWrite_of_unlimited same.unlimited.1, admitWrite_of_unlimited same.unlimited.2,
        ← same.reachable]
      split
      · refine ⟨same.lists, same.reachable, ?_, same.unlimited⟩
        intro number
        change (first.insert key value).value? _ = (second.insert key value).value? _
        rw [value?_insert, value?_insert, same.values]
      · exact same
  | push key element =>
      unfold Store.undergo Store.push
      dsimp only
      rw [admitWrite_of_unlimited same.unlimited.1, admitWrite_of_unlimited same.unlimited.2,
        ← same.reachable]
      split
      · refine ⟨?_, same.reachable, same.values, same.unlimited⟩
        change (first.append key element).lists = (second.append key element).lists
        unfold Store.append
        rw [same.lists]
      · exact same

theorem range (same : SameInbox first second) (number : Nat) (start stop : Int) :
    first.range (Key.incoming number) start stop =
      second.range (Key.incoming number) start stop := by
  unfold Store.range list
  rw [same.reachable, same.values, same.lists]

end SameInbox

end ClauseExchange.Store
