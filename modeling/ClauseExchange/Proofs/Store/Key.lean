import ClauseExchange.Proofs.Numeral.Decimal
import ClauseExchange.Store.Key

/-!
Different numbers have different keys, and the two directions share no key.
-/

namespace ClauseExchange.Key

theorem numbered_injective (stem : String) : Function.Injective (numbered stem) := by
  intro first second same
  apply Decimal.ofNat_injective
  apply String.ofList_injective
  exact String.append_right_inj (lead stem) |>.mp same

theorem outgoing_injective : Function.Injective outgoing :=
  numbered_injective outgoingStem

theorem incoming_injective : Function.Injective incoming :=
  numbered_injective incomingStem

theorem outgoing_ne_incoming (first second : Nat) : outgoing first ≠ incoming second := by
  intro same
  have heads := congrArg (fun key : String => key.toList.head?) same
  simp [outgoing, incoming, numbered, lead, outgoingStem, incomingStem] at heads

end ClauseExchange.Key
