import ClauseExchange.Proofs.Store.Census

/-!
A store keeps what the commands that succeeded have left in it, and nothing else. Its connections share
the one store and hold nothing of their own, so what a command does depends on the store alone: on
whether it is within reach now, not on whether it was when the connection was made.
-/

namespace ClauseExchange.Store

/-- What may be asked of a store, from outside or over one of its connections. -/
inductive Command where
  | connect (host : String) (port : UInt16)
  | set (connection : Nat) (key : String) (value : Bytes)
  | push (connection : Nat) (key : String) (element : Bytes)
  | range (connection : Nat) (key : String) (first last : Int)
  | reach (reachable : Bool)
  | limit (allowance : Option Nat)

namespace Command

def value? (key : String) : Command → Option Bytes
  | .set _ other value => if other = key then some value else none
  | _ => none

def element? (key : String) : Command → Option Bytes
  | .push _ other element => if other = key then some element else none
  | _ => none

def reach? : Command → Option Bool
  | .reach reachable => some reachable
  | _ => none

def limit? : Command → Option (Option Nat)
  | .limit allowance => some allowance
  | _ => none

def connects : Command → Bool
  | .connect _ _ => true
  | _ => false

def writes : Command → Bool
  | .set _ _ _ | .push _ _ _ => true
  | _ => false

variable {command : Command}

theorem value?_of_reads (reads : command.writes = false) (key : String) :
    command.value? key = none := by
  cases command with
  | set => cases reads
  | _ => rfl

theorem element?_of_reads (reads : command.writes = false) (key : String) :
    command.element? key = none := by
  cases command with
  | push => cases reads
  | _ => rfl

theorem reads_of_limit {allowance : Option Nat} (limits : command.limit? = some allowance) :
    command.writes = false := by
  cases command with
  | limit => rfl
  | _ => cases limits

end Command

/-- The commands that have succeeded, in their order. -/
abbrev History := List Command

namespace History

variable (history : History)

/-- What the last set of a key has set. -/
def value? (key : String) : Option Bytes :=
  (history.filterMap (Command.value? key)).getLast?

/-- What the pushes to a key have pushed, over all connections. -/
def list (key : String) : List Bytes :=
  history.filterMap (Command.element? key)

def reachable : Bool :=
  (history.filterMap Command.reach?).getLast?.getD true

/-- The last limit that was set to the writes. -/
def limit : Option Nat :=
  (history.filterMap Command.limit?).getLast?.join

/-- The writes since a limit was last set. -/
def writesSince : Nat :=
  (history.reverse.takeWhile fun command => command.limit?.isNone).countP Command.writes

def connections : Nat :=
  history.countP Command.connects

/-- The answer to a write: it fails where the store is out of reach, and where as many writes as the
last limit allows have succeeded since. -/
def answerToWrite : Except StoreError (List Bytes) :=
  if history.reachable then
    if history.limit = some history.writesSince then .error .writeRefused else .ok []
  else
    .error .connectionLost

/-- The answer to a command after others. Nothing is read but by a range. -/
def answer : Command → Except StoreError (List Bytes)
  | .connect host port =>
      if history.reachable then .ok [] else .error (.connectionRefused host port)
  | .set _ _ _ | .push _ _ _ => history.answerToWrite
  | .range _ key first last =>
      if history.reachable then
        if (history.value? key).isSome then
          .error (.wrongType key)
        else
          let list := history.list key
          .ok (list.extract (Span.start list.length first) (Span.stop list.length last))
      else
        .error .connectionLost
  | .reach _ | .limit _ => .ok []

variable {history : History}

theorem value?_concat (command : Command) (key : String) :
    value? (history ++ [command]) key = (command.value? key).or (history.value? key) := by
  cases set : command.value? key <;> simp [value?, set]

theorem list_concat (command : Command) (key : String) :
    list (history ++ [command]) key = history.list key ++ (command.element? key).toList := by
  cases pushed : command.element? key <;> simp [list, pushed]

theorem reachable_concat (command : Command) :
    reachable (history ++ [command]) = command.reach?.getD history.reachable := by
  cases reached : command.reach? <;> simp [reachable, reached]

theorem limit_concat (command : Command) :
    limit (history ++ [command]) = command.limit?.getD history.limit := by
  cases limited : command.limit? <;> simp [limit, limited]

theorem writesSince_concat (command : Command) :
    writesSince (history ++ [command]) =
      if command.limit?.isSome then 0
      else history.writesSince + if command.writes then 1 else 0 := by
  cases limited : command.limit? <;> simp [writesSince, limited, List.countP_cons]

theorem connections_concat (command : Command) :
    connections (history ++ [command]) =
      history.connections + if command.connects then 1 else 0 := by
  simp [connections, List.countP_cons]

end History

/-- A store that fails to do something is the store it was. -/
def settle (store : Store) : Except StoreError Store → Except StoreError (List Bytes) × Store
  | .ok after => (.ok [], after)
  | .error error => (.error error, store)

def obey (store : Store) : Command → Except StoreError (List Bytes) × Store
  | .connect host port => store.settle (store.connect host port)
  | .set _ key value => store.settle (store.set key value)
  | .push _ key element => store.settle (store.push key element)
  | .range _ key first last => (store.range key first last, store)
  | .reach reachable => (.ok [], { store with reachable })
  | .limit allowance => (.ok [], { store with allowance })

/-- The commands among some that succeed, and the store that they leave. -/
def serve (store : Store) : List Command → History × Store
  | [] => ([], store)
  | command :: commands =>
      let (answer, after) := store.obey command
      let (history, last) := after.serve commands
      (if answer.isOk then command :: history else history, last)

/-! What a command does. -/

/-- What a command that succeeds makes of a store. A write takes one from a limited allowance. -/
structure Effect (command : Command) (store after : Store) : Prop where
  value (key : String) : after.value? key = (command.value? key).or (store.value? key)
  list (key : String) :
    (after.list key).toList = (store.list key).toList ++ (command.element? key).toList
  reachable : after.reachable = command.reach?.getD store.reachable
  allowance : after.allowance.map (· + if command.writes then 1 else 0) =
    command.limit?.getD store.allowance
  connections : after.connections = store.connections + if command.connects then 1 else 0

variable {store after : Store} {history : History}

/-- The entries that a command does not write stay as they are. -/
theorem effect_of_reads {command : Command} (reads : command.writes = false)
    (values : after.values = store.values) (lists : after.lists = store.lists)
    (reachable : after.reachable = command.reach?.getD store.reachable)
    (allowance : after.allowance = command.limit?.getD store.allowance)
    (connections : after.connections = store.connections + if command.connects then 1 else 0) :
    Effect command store after where
  value key := by
    rw [Command.value?_of_reads reads, Option.none_or, value?, value?, values]
  list key := by
    rw [Command.element?_of_reads reads, Option.toList_none, List.append_nil, Store.list, Store.list,
      lists]
  reachable := reachable
  allowance := by simpa [reads] using allowance
  connections := connections

theorem effect_set (paid : store.spend.allowance.map (· + 1) = store.allowance)
    (connection : Nat) (key : String) (value : Bytes) :
    Effect (.set connection key value) store (store.spend.insert key value) where
  value other := by
    rw [value?_insert, Command.value?]
    split <;> rfl
  list _ := (List.append_nil _).symm
  reachable := rfl
  allowance := paid
  connections := rfl

theorem effect_push (paid : store.spend.allowance.map (· + 1) = store.allowance)
    (connection : Nat) (key : String) (element : Bytes) :
    Effect (.push connection key element) store (store.spend.append key element) where
  value _ := rfl
  list other := by
    rw [list_append, Command.element?]
    by_cases same : key = other
    · subst same
      simp [spend, Store.list]
    · simp [same, spend, Store.list]
  reachable := rfl
  allowance := paid
  connections := rfl

/-- A write either fails or is done after a piece of the allowance is spent on it. -/
theorem settle_admitWrite_cases (store : Store) (write : Store → Store) :
    (∃ error, store.settle (store.admitWrite.map write) = (.error error, store)) ∨
      store.settle (store.admitWrite.map write) = (.ok [], write store.spend) ∧
        store.spend.allowance.map (· + 1) = store.allowance := by
  rcases store with ⟨values, lists, reachable, allowance, connections⟩
  cases reachable with
  | false => exact Or.inl ⟨_, rfl⟩
  | true =>
      rcases allowance with _ | _ | left
      · exact Or.inr ⟨rfl, rfl⟩
      · exact Or.inl ⟨_, rfl⟩
      · exact Or.inr ⟨rfl, rfl⟩

/-- A command either fails and changes nothing, or succeeds and does just what it is for. -/
theorem obey_cases (store : Store) (command : Command) :
    (∃ error, store.obey command = (.error error, store)) ∨
      ∃ elements after, store.obey command = (.ok elements, after) ∧
        Effect command store after := by
  cases command with
  | connect host port =>
      rw [obey, Store.connect]
      split
      case isTrue => exact Or.inr ⟨_, _, rfl, effect_of_reads rfl rfl rfl rfl rfl rfl⟩
      case isFalse => exact Or.inl ⟨_, rfl⟩
  | set connection key value =>
      rcases store.settle_admitWrite_cases fun admitted => admitted.insert key value with
        failed | ⟨succeeded, paid⟩
      · exact Or.inl failed
      · exact Or.inr ⟨_, _, succeeded, effect_set paid connection key value⟩
  | push connection key element =>
      rcases store.settle_admitWrite_cases fun admitted => admitted.append key element with
        failed | ⟨succeeded, paid⟩
      · exact Or.inl failed
      · exact Or.inr ⟨_, _, succeeded, effect_push paid connection key element⟩
  | range connection key first last =>
      rw [obey]
      cases store.range key first last with
      | error error => exact Or.inl ⟨error, rfl⟩
      | ok elements => exact Or.inr ⟨_, _, rfl, effect_of_reads rfl rfl rfl rfl rfl rfl⟩
  | reach reachable => exact Or.inr ⟨_, _, rfl, effect_of_reads rfl rfl rfl rfl rfl rfl⟩
  | limit allowance => exact Or.inr ⟨_, _, rfl, effect_of_reads rfl rfl rfl rfl rfl rfl⟩

theorem obey_of_failed {command : Command} (failed : (store.obey command).1.isOk = false) :
    (store.obey command).2 = store := by
  rcases store.obey_cases command with ⟨error, refused⟩ | ⟨elements, after, succeeded, _⟩
  · rw [refused]
  · rw [succeeded] at failed
    cases failed

/-! What a run of commands does. -/

theorem serve_of_refused {error : StoreError} (refused : store.admitWrite = .error error)
    (connection : Nat) (key : String) (elements : List Bytes) :
    (store.serve (elements.map (.push connection key))).2 = store := by
  induction elements with
  | nil => rfl
  | cons element elements induction =>
      simpa [serve, obey, push, refused, Except.map, settle, Except.isOk, Except.toBool]
        using induction

/-- Elements that are pushed in one go are pushed one by one: behind one that is refused, the others
would be refused as well. -/
theorem pushAll_eq_serve (store : Store) (connection : Nat) (key : String) (elements : List Bytes) :
    (store.pushAll key elements).2 = (store.serve (elements.map (.push connection key))).2 := by
  induction elements generalizing store with
  | nil => rfl
  | cons element elements induction =>
      rw [pushAll]
      cases admission : store.admitWrite with
      | ok admitted => simpa [serve, obey, push, admission, Except.map, settle] using induction _
      | error error => exact (serve_of_refused admission connection key (element :: elements)).symm

/-- A store is what the commands that succeeded have made of an empty one. -/
structure Keeps (history : History) (store : Store) : Prop where
  value (key : String) : store.value? key = history.value? key
  list (key : String) : (store.list key).toList = history.list key
  reachable : store.reachable = history.reachable
  allowance : store.allowance.map (· + history.writesSince) = history.limit
  connections : store.connections = history.connections

theorem keeps_empty : Keeps [] {} where
  value _ := rfl
  list _ := rfl
  reachable := rfl
  allowance := rfl
  connections := rfl

namespace Keeps

theorem concat (keeps : Keeps history store) {command : Command}
    (effect : Effect command store after) : Keeps (history ++ [command]) after where
  value key := by rw [effect.value, History.value?_concat, keeps.value]
  list key := by rw [effect.list, History.list_concat, keeps.list]
  reachable := by rw [effect.reachable, History.reachable_concat, keeps.reachable]
  allowance := by
    have paid := effect.allowance
    rw [History.writesSince_concat, History.limit_concat, ← keeps.allowance]
    cases limited : command.limit? with
    | some allowance =>
        have reads := Command.reads_of_limit limited
        simpa [limited, reads] using paid
    | none =>
        rw [limited, Option.getD_none] at paid
        rw [← paid, Option.map_map]
        simp [Function.comp_def, Nat.add_assoc, Nat.add_comm]
  connections := by rw [effect.connections, History.connections_concat, keeps.connections]

/-- An allowance is used up when as many writes have been as the last limit lets through. -/
theorem limit_eq_writesSince_iff (keeps : Keeps history store) :
    history.limit = some history.writesSince ↔ store.allowance = some 0 := by
  rw [← keeps.allowance]
  simp

theorem settle_admitWrite (keeps : Keeps history store) (write : Store → Store) :
    (store.settle (store.admitWrite.map write)).1 = history.answerToWrite := by
  unfold History.answerToWrite
  rw [← keeps.reachable]
  cases reachable : store.reachable with
  | false =>
      simp only [admitWrite, reachable]
      rfl
  | true =>
      rw [admitWrite_of_reachable reachable, if_pos rfl]
      by_cases spent : store.allowance = some 0
      · rw [if_pos spent, if_pos (keeps.limit_eq_writesSince_iff.mpr spent)]
        rfl
      · rw [if_neg spent, if_neg (mt keeps.limit_eq_writesSince_iff.mp spent)]
        rfl

theorem answer (keeps : Keeps history store) (command : Command) :
    (store.obey command).1 = history.answer command := by
  cases command with
  | connect host port =>
      rw [obey, Store.connect, History.answer, ← keeps.reachable]
      split <;> rfl
  | set connection key value =>
      exact keeps.settle_admitWrite fun admitted => admitted.insert key value
  | push connection key element =>
      exact keeps.settle_admitWrite fun admitted => admitted.append key element
  | range connection key first last =>
      rw [obey, Store.range, History.answer, ← keeps.reachable, ← keeps.value, ← keeps.list]
      cases store.value? key <;> simp
  | reach reachable => rfl
  | limit allowance => rfl

theorem serve (keeps : Keeps history store) (commands : List Command) :
    Keeps (history ++ (store.serve commands).1) (store.serve commands).2 := by
  induction commands generalizing history store with
  | nil => simpa [Store.serve] using keeps
  | cons command commands induction =>
      rcases store.obey_cases command with ⟨error, failed⟩ | ⟨elements, after, succeeded, effect⟩
      · simpa [Store.serve, failed, Except.isOk, Except.toBool] using induction keeps
      · simpa [Store.serve, succeeded, Except.isOk, Except.toBool]
          using induction (keeps.concat effect)

end Keeps

/-- At any time a store holds what the commands that have succeeded so far have left in it, and they
tell the answer to any further command. One that fails changes nothing. Elements pushed in one go are so
many commands. -/
theorem serve_keeps_history (commands : List Command) (command : Command) :
    let (history, store) := ({} : Store).serve commands
    let (answer, after) := store.obey command
    Keeps history store ∧
      (∀ stem, ∀ number ≤ (store.sequence stem).length,
        (store.sequence stem)[number]? = history.value? (Key.numbered stem number)) ∧
      answer = history.answer command ∧
      (answer.isOk = false → after = store) ∧
      ∀ connection key elements, (store.pushAll key elements).2 =
        (store.serve (elements.map (.push connection key))).2 := by
  have keeps := keeps_empty.serve commands
  rw [List.nil_append] at keeps
  refine ⟨keeps, ?_, keeps.answer command, obey_of_failed, pushAll_eq_serve _⟩
  intro stem number within
  rw [getElem?_sequence within, keeps.value]

/-- Writes that fail while the store is out of reach are not taken from the allowance. -/
example :
    (({} : Store).serve [.connect "host" 1, .limit (some 1), .reach false, .push 0 "list" [48],
      .reach true, .push 0 "list" [49], .push 0 "list" [50]]).2.list "list" = #[[49]] := by
  cbv

end ClauseExchange.Store
