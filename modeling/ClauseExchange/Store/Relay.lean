import ClauseExchange.Fault
import ClauseExchange.Line.Record
import ClauseExchange.Store

/-!
A relay is a peer that passes on what a solver sent: it reads the records of the solver's proof, and
leaves every clause added there as a contribution of its own, one numeral to an element.
-/

namespace ClauseExchange.Store

/-- How far a relay has come: the number of its next contribution, and the records it could not read. -/
structure Relay where
  next : Nat
  unreadable : Nat := 0

/-- Passes records on. Deletions and the empty clause are no contributions. -/
def relayRecords (encoding : Encoding) (relay : Relay) :
    List Bytes → Store → Except Fault (Except StoreError Relay) × Store
  | [], store => (.ok (.ok relay), store)
  | record :: records, store =>
      match Line.read? encoding record with
      | none =>
          relayRecords encoding { relay with unreadable := relay.unreadable + 1 } records store
      | some ⟨.add, literal :: literals⟩ =>
          match store.pushAll (Key.incoming relay.next)
              ((literal :: literals).map Literal.numeral) with
          | (.error error, store) => (.ok (.error error), store)
          | (.ok (), store) =>
              match Key.next? relay.next with
              | none => (.error .numbersExhausted, store)
              | some next => relayRecords encoding { relay with next } records store
      | some _ => relayRecords encoding relay records store

def relay (store : Store) (encoding : Encoding) (first : Nat) :
    Except Fault (Except StoreError Relay) × Store :=
  relayRecords encoding { next := first } (store.sequence Key.outgoingStem) store

end ClauseExchange.Store
