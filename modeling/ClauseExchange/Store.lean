import ClauseExchange.Error
import ClauseExchange.Store.Key
import ClauseExchange.Store.Span
import Std.Data.TreeMap

/-!
A store of values and lists under textual keys, shared by everybody who connects to it. It can be out
of reach, and it can be set to refuse writes after a number of further ones. A command that fails
returns no store, so it leaves the store as it was.
-/

namespace ClauseExchange

structure Store where
  values : Std.TreeMap String Bytes := {}
  lists : Std.TreeMap String (Array Bytes) := {}
  reachable : Bool := true
  allowance : Option Nat := none
  connections : Nat := 0

namespace Store

def value? (store : Store) (key : String) : Option Bytes :=
  store.values[key]?

/-- A key without a list has the empty list. -/
def list (store : Store) (key : String) : Array Bytes :=
  store.lists[key]?.getD #[]

/-- The values numbered from zero under a stem, up to the first number without one. -/
def sequence (store : Store) (stem : String) : List Bytes :=
  let values := (List.range store.values.size).map fun number =>
    store.value? (Key.numbered stem number)
  (values.takeWhile Option.isSome).reduceOption

/-- The number of values whose key begins like the numbered keys of a stem. -/
def count (store : Store) (stem : String) : Nat :=
  store.values.keys.countP fun key => (Key.lead stem).toList.isPrefixOf key.toList

def connect (store : Store) (host : String) (port : UInt16) : Except StoreError Store :=
  if store.reachable then
    .ok { store with connections := store.connections + 1 }
  else
    .error (.connectionRefused host port)

/-- Lets one write in, which a limited allowance pays for. -/
def admitWrite (store : Store) : Except StoreError Store :=
  if store.reachable then
    match store.allowance with
    | none => .ok store
    | some 0 => .error .writeRefused
    | some (left + 1) => .ok { store with allowance := some left }
  else
    .error .connectionLost

/-- Sets a value, whatever the store admits. -/
def insert (store : Store) (key : String) (value : Bytes) : Store :=
  { store with values := store.values.insert key value }

/-- Adds an element at the end of a list, whatever the store admits. -/
def append (store : Store) (key : String) (element : Bytes) : Store :=
  { store with
    lists := store.lists.alter key fun list => some ((list.getD #[]).push element) }

def set (store : Store) (key : String) (value : Bytes) : Except StoreError Store :=
  store.admitWrite.map fun admitted => admitted.insert key value

def push (store : Store) (key : String) (element : Bytes) : Except StoreError Store :=
  store.admitWrite.map fun admitted => admitted.append key element

/-- Pushes elements one by one; those pushed before a failure stay. -/
def pushAll (store : Store) (key : String) : List Bytes → Except StoreError Unit × Store
  | [] => (.ok (), store)
  | element :: elements =>
      match store.admitWrite with
      | .ok admitted => (admitted.append key element).pushAll key elements
      | .error error => (.error error, store)

def range (store : Store) (key : String) (first last : Int) :
    Except StoreError (List Bytes) :=
  if store.reachable then
    match store.value? key with
    | some _ => .error (.wrongType key)
    | none =>
        let list := store.list key
        .ok (list.extract (Span.start list.size first) (Span.stop list.size last)).toList
  else
    .error .connectionLost

end Store

end ClauseExchange
