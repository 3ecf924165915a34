import ClauseExchange.Proofs.Store.Key
import ClauseExchange.Store

/-!
What the entries of a store are after a write, and after what others do to the store.
-/

namespace ClauseExchange

theorem getElem?_append_cases {α : Type} {first second : List α} {index : Nat} {entry : α}
    (here : (first ++ second)[index]? = some entry) :
    first[index]? = some entry ∨
      ∃ rest, index = first.length + rest ∧ second[rest]? = some entry := by
  by_cases early : index < first.length
  · rw [List.getElem?_append_left early] at here
    exact Or.inl here
  · rw [List.getElem?_append_right (Nat.le_of_not_lt early)] at here
    exact Or.inr ⟨_, (Nat.add_sub_cancel' (Nat.le_of_not_lt early)).symm, here⟩

theorem getElem?_of_prefix {α : Type} {first second : List α} (begins : first <+: second)
    {index : Nat} {entry : α} (here : first[index]? = some entry) : second[index]? = some entry := by
  obtain ⟨inside, rfl⟩ := List.getElem?_eq_some_iff.mp here
  exact List.prefix_iff_getElem?.mp begins index inside

namespace Store

variable {store : Store}

theorem value?_insert (store : Store) (key : String) (value : Bytes) (other : String) :
    (store.insert key value).value? other =
      if key = other then some value else store.value? other := by
  simp [value?, insert, Std.TreeMap.getElem?_insert]

theorem list_append (store : Store) (key : String) (element : Bytes) (other : String) :
    (store.append key element).list other =
      if key = other then (store.list key).push element else store.list other := by
  by_cases same : key = other
  · subst same
    simp [list, append]
  · simp [list, append, Std.TreeMap.getElem?_alter, same]

/-! What a store admits. -/

/-- A store that takes every write. -/
def IsOpen (store : Store) : Prop :=
  store.reachable = true ∧ store.allowance = none

/-- The number of writes that a store lets in when so many are tried one after another. -/
def admitted (store : Store) (count : Nat) : Nat :=
  if store.reachable then store.allowance.elim count (min count) else 0

theorem admitted_le (store : Store) (count : Nat) : store.admitted count ≤ count := by
  unfold admitted
  split
  · cases store.allowance with
    | none => exact Nat.le_refl count
    | some left => exact Nat.min_le_left count left
  · exact Nat.zero_le count

theorem IsOpen.admitted_eq (isOpen : store.IsOpen) (count : Nat) :
    store.admitted count = count := by
  simp [admitted, isOpen.1, isOpen.2]

def spend (store : Store) : Store :=
  { store with allowance := store.allowance.map (· - 1) }

theorem admitWrite_of_reachable (reachable : store.reachable = true) :
    store.admitWrite =
      if store.allowance = some 0 then .error .writeRefused else .ok store.spend := by
  unfold admitWrite spend
  rw [if_pos reachable]
  rcases store with ⟨values, lists, _, allowance, connections⟩
  cases allowance with
  | none => simp
  | some left => cases left <;> simp

theorem admitted_succ (reachable : store.reachable = true)
    (remaining : store.allowance ≠ some 0) (count : Nat) :
    store.admitted (count + 1) = store.spend.admitted count + 1 := by
  rcases store with ⟨values, lists, _, allowance, connections⟩
  cases reachable
  cases allowance with
  | none => rfl
  | some left =>
      have positive : left ≠ 0 := fun zero => remaining (congrArg some zero)
      simp only [admitted, spend, if_true, Option.elim_some, Option.map_some]
      omega

/-! What others do to a store. -/

inductive Deed where
  | reach (reachable : Bool)
  | limit (allowance : Option Nat)
  | set (key : String) (value : Bytes)
  | push (key : String) (element : Bytes)

/-- A write that a store refuses leaves it as it was. -/
def undergo (store : Store) : Deed → Store
  | .reach reachable => { store with reachable }
  | .limit allowance => { store with allowance }
  | .set key value => (store.set key value).toOption.getD store
  | .push key element => (store.push key element).toOption.getD store

namespace Deed

/-- A deed that writes under no numbered key of a stem. -/
def Spares (stem : String) : Deed → Prop
  | .set key _ | .push key _ => ∀ number, key ≠ Key.numbered stem number
  | _ => True

/-- A deed that neither puts a store out of reach nor limits its writes. -/
def KeepsOpen : Deed → Prop
  | .reach reachable => reachable = true
  | .limit allowance => allowance = none
  | _ => True

end Deed

theorem admitWrite_cases (store : Store) :
    (∃ error, store.admitWrite = .error error) ∨ store.admitWrite = .ok store.spend := by
  cases reachable : store.reachable with
  | false => exact Or.inl ⟨.connectionLost, by simp [admitWrite, reachable]⟩
  | true =>
      rw [admitWrite_of_reachable reachable]
      split
      · exact Or.inl ⟨_, rfl⟩
      · exact Or.inr rfl

theorem connections_of_set {store after : Store} {key : String} {value : Bytes}
    (admitted : store.set key value = .ok after) : after.connections = store.connections := by
  unfold set at admitted
  rcases store.admitWrite_cases with ⟨error, refused⟩ | spent
  · rw [refused] at admitted
    cases admitted
  · rw [spent] at admitted
    cases admitted
    rfl

theorem undergo_cases (store : Store) (deed : Deed) :
    store.undergo deed = store ∨
    (∃ reachable, deed = .reach reachable ∧ store.undergo deed = { store with reachable }) ∨
    (∃ allowance, deed = .limit allowance ∧ store.undergo deed = { store with allowance }) ∨
    (∃ key value, deed = .set key value ∧
      store.undergo deed = store.spend.insert key value) ∨
    (∃ key element, deed = .push key element ∧
      store.undergo deed = store.spend.append key element) := by
  cases deed with
  | reach reachable => exact Or.inr (Or.inl ⟨reachable, rfl, rfl⟩)
  | limit allowance => exact Or.inr (Or.inr (Or.inl ⟨allowance, rfl, rfl⟩))
  | set key value =>
      rcases store.admitWrite_cases with ⟨error, refused⟩ | admitted
      · left
        simp [undergo, set, refused, Except.map, Except.toOption]
      · refine Or.inr (Or.inr (Or.inr (Or.inl ⟨key, value, rfl, ?_⟩)))
        simp [undergo, set, admitted, Except.map, Except.toOption]
  | push key element =>
      rcases store.admitWrite_cases with ⟨error, refused⟩ | admitted
      · left
        simp [undergo, push, refused, Except.map, Except.toOption]
      · refine Or.inr (Or.inr (Or.inr (Or.inr ⟨key, element, rfl, ?_⟩)))
        simp [undergo, push, admitted, Except.map, Except.toOption]

/-! Connections made have no effect. -/

/-- Two stores that differ at most in the connections made. -/
def Alike (first second : Store) : Prop :=
  ∃ connections, second = { first with connections }

namespace Alike

variable {first second third : Store}

theorem refl (store : Store) : Alike store store :=
  ⟨store.connections, rfl⟩

theorem trans (earlier : Alike first second) (later : Alike second third) : Alike first third := by
  obtain ⟨_, rfl⟩ := earlier
  obtain ⟨connections, rfl⟩ := later
  exact ⟨connections, rfl⟩

theorem symm (alike : Alike first second) : Alike second first := by
  obtain ⟨_, rfl⟩ := alike
  exact ⟨first.connections, rfl⟩

theorem admitWrite (alike : Alike first second) :
    (∃ error, first.admitWrite = .error error ∧ second.admitWrite = .error error) ∨
      ∃ one other, first.admitWrite = .ok one ∧ second.admitWrite = .ok other ∧
        Alike one other := by
  obtain ⟨connections, rfl⟩ := alike
  obtain ⟨values, lists, reachable, allowance, made⟩ := first
  cases reachable with
  | false => exact Or.inl ⟨_, rfl, rfl⟩
  | true =>
      rcases allowance with _ | _ | left
      · exact Or.inr ⟨_, _, rfl, rfl, connections, rfl⟩
      · exact Or.inl ⟨_, rfl, rfl⟩
      · exact Or.inr ⟨_, _, rfl, rfl, connections, rfl⟩

theorem set (alike : Alike first second) (key : String) (value : Bytes) :
    (∃ error, first.set key value = .error error ∧ second.set key value = .error error) ∨
      ∃ one other, first.set key value = .ok one ∧ second.set key value = .ok other ∧
        Alike one other := by
  unfold Store.set
  rcases alike.admitWrite with ⟨error, one, other⟩ | ⟨_, _, one, other, connections, rfl⟩
  · exact Or.inl ⟨error, by rw [one]; rfl, by rw [other]; rfl⟩
  · exact Or.inr ⟨_, _, by rw [one]; rfl, by rw [other]; rfl, connections, rfl⟩

theorem undergo (alike : Alike first second) (deed : Deed) :
    Alike (first.undergo deed) (second.undergo deed) := by
  cases deed with
  | reach reachable =>
      obtain ⟨connections, rfl⟩ := alike
      exact ⟨connections, rfl⟩
  | limit allowance =>
      obtain ⟨connections, rfl⟩ := alike
      exact ⟨connections, rfl⟩
  | set key value =>
      unfold Store.undergo
      dsimp only
      rcases alike.set key value with ⟨error, one, other⟩ | ⟨_, _, one, other, later⟩
      · rw [one, other]
        exact alike
      · rw [one, other]
        exact later
  | push key element =>
      unfold Store.undergo push
      dsimp only
      rcases alike.admitWrite with ⟨error, one, other⟩ | ⟨_, _, one, other, connections, rfl⟩
      · rw [one, other]
        exact alike
      · rw [one, other]
        exact ⟨connections, rfl⟩

end Alike

theorem value?_undergo_of_spares {stem : String} {deed : Deed} (spares : deed.Spares stem)
    (store : Store) (number : Nat) :
    (store.undergo deed).value? (Key.numbered stem number) =
      store.value? (Key.numbered stem number) := by
  rcases store.undergo_cases deed with same | ⟨_, rfl, after⟩ | ⟨_, rfl, after⟩ |
      ⟨key, value, rfl, after⟩ | ⟨key, element, rfl, after⟩
  · rw [same]
  · rw [after]
    rfl
  · rw [after]
    rfl
  · rw [after, value?_insert, if_neg (spares number)]
    rfl
  · rw [after]
    rfl

theorem IsOpen.undergo (isOpen : store.IsOpen) {deed : Deed} (keeps : deed.KeepsOpen) :
    (store.undergo deed).IsOpen := by
  rcases store.undergo_cases deed with same | ⟨_, rfl, after⟩ | ⟨_, rfl, after⟩ |
      ⟨key, value, rfl, after⟩ | ⟨key, element, rfl, after⟩
  · rwa [same]
  · rw [after]
    exact ⟨keeps, isOpen.2⟩
  · rw [after]
    exact ⟨isOpen.1, keeps⟩
  · rw [after]
    exact ⟨isOpen.1, by simp [insert, spend, isOpen.2]⟩
  · rw [after]
    exact ⟨isOpen.1, by simp [append, spend, isOpen.2]⟩

end Store

end ClauseExchange
