import ClauseExchange.Proofs.Store.Entries
import Mathlib.Data.List.Infix
import Mathlib.Data.List.Nodup

/-!
The lists of a store only grow. A list that is left under a number in one go stays as it is, and since
every list has a key of its own, some number is soon found to have none.
-/

namespace ClauseExchange.Store

variable {store : Store}

theorem list_undergo_of_ne {deed : Deed} {key : String} (other : ∀ element, deed ≠ .push key element)
    (store : Store) : (store.undergo deed).list key = store.list key := by
  rcases store.undergo_cases deed with same | ⟨_, rfl, after⟩ | ⟨_, rfl, after⟩ |
      ⟨_, _, rfl, after⟩ | ⟨pushed, element, rfl, after⟩
  · rw [same]
  · rw [after]
    rfl
  · rw [after]
    rfl
  · rw [after]
    rfl
  · have different : pushed ≠ key := fun same => other element (same ▸ rfl)
    rw [after, list_append, if_neg different]
    rfl

theorem list_undergo_of_spares {stem : String} {deed : Deed} (spares : deed.Spares stem)
    (store : Store) (number : Nat) :
    (store.undergo deed).list (Key.numbered stem number) =
      store.list (Key.numbered stem number) := by
  apply list_undergo_of_ne
  rintro element rfl
  exact spares number rfl

theorem list_prefix_append (store : Store) (key : String) (element : Bytes) (other : String) :
    (store.list other).toList <+: ((store.append key element).list other).toList := by
  rw [list_append]
  split
  case isTrue same =>
      rw [same, Array.toList_push]
      exact List.prefix_append _ _
  case isFalse => exact List.prefix_rfl

theorem list_prefix_undergo (store : Store) (deed : Deed) (key : String) :
    (store.list key).toList <+: ((store.undergo deed).list key).toList := by
  rcases store.undergo_cases deed with same | ⟨_, _, after⟩ | ⟨_, _, after⟩ |
      ⟨_, _, _, after⟩ | ⟨other, element, _, after⟩
  · rw [same]
  · rw [after]
    exact List.prefix_rfl
  · rw [after]
    exact List.prefix_rfl
  · rw [after]
    exact List.prefix_rfl
  · rw [after]
    exact store.spend.list_prefix_append other element key

/-! A list left in one go. -/

theorem pushAll_entries {key : String} {elements : List Bytes} {after : Store}
    (pushed : store.pushAll key elements = (.ok (), after)) (other : String) :
    after.value? other = store.value? other ∧
      (after.list other).toList =
        (store.list other).toList ++ if key = other then elements else [] := by
  induction elements generalizing store with
  | nil =>
      cases pushed
      simp
  | cons element elements induction =>
      unfold pushAll at pushed
      rcases store.admitWrite_cases with ⟨error, refused⟩ | admitted
      · rw [refused] at pushed
        cases pushed
      · rw [admitted] at pushed
        obtain ⟨values, grown⟩ := induction pushed
        refine ⟨values, ?_⟩
        rw [grown, list_append]
        by_cases same : key = other
        · subst same
          rw [if_pos rfl, if_pos rfl, if_pos rfl, Array.toList_push, List.append_assoc]
          rfl
        · rw [if_neg same, if_neg same, if_neg same]
          rfl

theorem reachable_of_admitted {count : Nat} (some : 0 < count)
    (admits : store.admitted count = count) : store.reachable = true := by
  by_contra unreachable
  rw [admitted, if_neg unreachable] at admits
  omega

theorem pushAll_of_admitted {elements : List Bytes} (key : String)
    (admits : store.admitted elements.length = elements.length) :
    (store.pushAll key elements).1 = .ok () ∧
      (store.pushAll key elements).2.reachable = store.reachable := by
  induction elements generalizing store with
  | nil => exact ⟨rfl, rfl⟩
  | cons element elements induction =>
      have reachable := reachable_of_admitted (Nat.succ_pos elements.length) admits
      have remaining : store.allowance ≠ some 0 := by
        intro spent
        simp [admitted, reachable, spent] at admits
      have others : (store.spend.append key element).admitted elements.length = elements.length := by
        rw [List.length_cons, admitted_succ reachable remaining] at admits
        exact Nat.succ.inj admits
      have spent : store.admitWrite = .ok store.spend := by
        rw [admitWrite_of_reachable reachable, if_neg remaining]
      rw [pushAll, spent]
      exact induction others

/-- Leaves a list under an incoming number that has none yet: all of its elements, or, where the store
refuses one, none. -/
def contribute (store : Store) (number : Nat) (elements : List Bytes) : Store :=
  if (store.list (Key.incoming number)).isEmpty then
    match store.pushAll (Key.incoming number) elements with
    | (.ok (), after) => after
    | (.error _, _) => store
  else
    store

theorem contribute_cases (store : Store) (number : Nat) (elements : List Bytes) :
    store.contribute number elements = store ∨
      store.list (Key.incoming number) = #[] ∧
        store.pushAll (Key.incoming number) elements =
          (.ok (), store.contribute number elements) := by
  unfold contribute
  split
  case isTrue empty =>
      rcases outcome : store.pushAll (Key.incoming number) elements with ⟨error | ⟨⟩, after⟩
      · exact Or.inl rfl
      · exact Or.inr ⟨Array.isEmpty_iff.mp empty, rfl⟩
  case isFalse => exact Or.inl rfl

theorem value?_contribute (store : Store) (number : Nat) (elements : List Bytes) (key : String) :
    (store.contribute number elements).value? key = store.value? key := by
  rcases store.contribute_cases number elements with same | ⟨_, pushed⟩
  · rw [same]
  · exact (pushAll_entries pushed key).1

theorem list_contribute_of_ne {number : Nat} {key : String} (other : Key.incoming number ≠ key)
    (store : Store) (elements : List Bytes) :
    (store.contribute number elements).list key = store.list key := by
  rcases store.contribute_cases number elements with same | ⟨_, pushed⟩
  · rw [same]
  · apply Array.toList_inj.mp
    rw [(pushAll_entries pushed key).2, if_neg other, List.append_nil]

theorem list_contribute {key : String} (present : store.list key ≠ #[]) (number : Nat)
    (elements : List Bytes) : (store.contribute number elements).list key = store.list key := by
  rcases store.contribute_cases number elements with same | ⟨absent, _⟩
  · rw [same]
  · have other : Key.incoming number ≠ key := by
      rintro rfl
      exact present absent
    exact list_contribute_of_ne other store elements

theorem list_prefix_contribute (store : Store) (number : Nat) (elements : List Bytes)
    (key : String) :
    (store.list key).toList <+: ((store.contribute number elements).list key).toList := by
  rcases store.contribute_cases number elements with same | ⟨_, pushed⟩
  · rw [same]
  · rw [(pushAll_entries pushed key).2]
    exact List.prefix_append _ _

/-! Reading lists. -/

theorem range_whole {key : String} (reachable : store.reachable = true)
    (list : store.value? key = none) : store.range key 0 (-1) = .ok (store.list key).toList := by
  unfold range
  rw [if_pos reachable, list]
  have start : Span.start (store.list key).size 0 = 0 := by simp [Span.start, Span.fromFront]
  have stop : Span.stop (store.list key).size (-1) = (store.list key).size := by
    unfold Span.stop Span.fromFront
    rw [if_pos (by decide), Int.neg_add_cancel_right]
    exact Nat.min_self _
  dsimp only
  rw [start, stop, Array.extract_size]

theorem range_blocked {key : String} {value : Bytes} (reachable : store.reachable = true)
    (blocked : store.value? key = some value) (first last : Int) :
    store.range key first last = .error (.wrongType key) := by
  unfold range
  rw [if_pos reachable, blocked]

/-- The lists under successive numbers are fewer than the lists there are, and one more. -/
theorem exists_list_eq_empty (store : Store) (first : Nat) :
    ∃ index, index < store.lists.size + 1 ∧ store.list (Key.incoming (first + index)) = #[] := by
  by_contra none
  have keyed : ∀ index < store.lists.size + 1,
      Key.incoming (first + index) ∈ store.lists.keys := by
    intro index inside
    rw [Std.TreeMap.mem_keys]
    by_contra absent
    apply none
    refine ⟨index, inside, ?_⟩
    unfold list
    rw [Std.TreeMap.getElem?_eq_none absent]
    rfl
  let keys := (List.range (store.lists.size + 1)).map fun index => Key.incoming (first + index)
  have distinct : keys.Nodup := by
    apply List.nodup_range.map
    intro one other same
    have numbers := Key.incoming_injective same
    exact Nat.add_left_cancel numbers
  have subset : keys ⊆ store.lists.keys := by
    intro key member
    obtain ⟨index, inside, rfl⟩ := List.mem_map.mp member
    exact keyed index (List.mem_range.mp inside)
  have most := distinct.length_le_of_subset subset
  rw [List.length_map, List.length_range, Std.TreeMap.length_keys] at most
  omega

end ClauseExchange.Store
