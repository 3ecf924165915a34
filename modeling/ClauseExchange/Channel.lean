import ClauseExchange.Fault
import ClauseExchange.Journal
import ClauseExchange.Settings
import ClauseExchange.Store
import ClauseExchange.Throttle

/-!
A channel is a session with a store: where the store is, how far the records have been numbered in
either direction, and a journal of what happened on the way. Records go out under successive numbers,
and a number is used up only by a record that was written.
-/

namespace ClauseExchange

structure Session where
  host : String
  port : UInt16
  nextOutgoing : Nat := 0
  nextIncoming : Nat := 0
  throttle : Throttle := {}
deriving DecidableEq

namespace Session

def ofSettings (settings : Settings) : Session where
  host := settings.host
  port := settings.port
  throttle := { limit := settings.throttleLimit }

def advanceOutgoing? (session : Session) : Option Session :=
  (Key.next? session.nextOutgoing).map fun nextOutgoing => { session with nextOutgoing }

def advanceIncoming? (session : Session) : Option Session :=
  (Key.next? session.nextIncoming).map fun nextIncoming => { session with nextIncoming }

end Session

structure Channel where
  session : Session
  store : Store
  journal : Journal := #[]

namespace Channel

def note (channel : Channel) (notice : Notice) : Channel :=
  { channel with journal := channel.journal.push notice }

/-- Connects to the store. A store out of reach is noted, and there is nothing to do then. -/
def connect (channel : Channel) : Bool × Channel :=
  match channel.store.connect channel.session.host channel.session.port with
  | .ok store => (true, { channel with store })
  | .error error =>
      (false,
        channel.note (.storeUnavailable channel.session.host channel.session.port error))

/-- Writes records until one fails, and counts on from `written`. -/
def write (written : Nat) : List Bytes → Channel → Except Fault Nat × Channel
  | [], channel => (.ok written, channel)
  | record :: records, channel =>
      let key := Key.outgoing channel.session.nextOutgoing
      match channel.store.set key record with
      | .error error => (.ok written, channel.note (.writeFailed key error))
      | .ok store =>
          match channel.session.advanceOutgoing? with
          | none => (.error .numbersExhausted, { channel with store })
          | some session => write (written + 1) records { channel with store, session }

/-- Sends records, and counts those written. Where there are none, no connection is made. -/
def send (records : List Bytes) (channel : Channel) : Except Fault Nat × Channel :=
  if records.isEmpty then
    (.ok 0, channel)
  else
    match channel.connect with
    | (true, channel) => channel.write 0 records
    | (false, channel) => (.ok 0, channel)

/-- Asks whether to poll, on behalf of a solver that does so again and again. -/
def requestPoll (channel : Channel) : Bool × Channel :=
  match channel.session.throttle.request with
  | (some requests, throttle) =>
      (true,
        { channel with session := { channel.session with throttle } }.note
          (.pollAdmitted requests))
  | (none, throttle) =>
      (false, { channel with session := { channel.session with throttle } })

end Channel

end ClauseExchange
