import ShieldWard.Control.Signing
import ShieldWard.Lib.Channel
import ShieldWard.Lib.System
import Mathlib.Data.List.Perm.Basic
import Mathlib.Logic.Function.Basic

/-!
# The store of the control plane

`internal/server/store.go`. The goroutines that run `Publish`, `Subscribe` and `cancel` meet
in the mutex, so the state holds at most one position inside a critical section, and each
statement of it that another goroutine can observe is a step: the store of the snapshot, the
three selects of `pushLatest`, the load and the send of `Subscribe`, the close of `cancel`.
Receives interleave with all of them. What a subscriber has received and what has been
published are kept as history.
-/

namespace ShieldWard.Control

structure Snapshot where
  body : Json
  etag : String
  version : String

def newSnapshot (G : GoPlatform) (envelope : Envelope) : Except String Snapshot :=
  if envelope.algorithm = "" then .error "envelope algorithm must not be empty"
  else if envelope.keyID = "" then .error "envelope key ID must not be empty"
  else if envelope.bundle.version = "" then .error "bundle version must not be empty"
  else if envelope.signature = "" then .error "envelope signature must not be empty"
  else
    .ok { body := envelope.toJson, etag := quote G envelope.bundle.version,
          version := envelope.bundle.version }

namespace Store

/-- The goroutine in the critical section, by the statement that it runs next. -/
inductive Holder
  /-- `Publish`: `store.current.Store(snapshot)`. -/
  | publishing (snapshot : Snapshot) (order : List ℕ)
  /-- `Publish`: the head of the loop over the subscribers that remain. -/
  | ranging (snapshot : Snapshot) (remaining : List ℕ)
  /-- `pushLatest`: the first select. -/
  | trySend (snapshot : Snapshot) (id : ℕ) (remaining : List ℕ)
  /-- `pushLatest`: the second select. -/
  | drain (snapshot : Snapshot) (id : ℕ) (remaining : List ℕ)
  /-- `pushLatest`: the third select. -/
  | sendAgain (snapshot : Snapshot) (id : ℕ) (remaining : List ℕ)
  /-- `Subscribe`: `store.current.Load()`. -/
  | registered (id : ℕ)
  /-- `Subscribe`: `updates <- snapshot.version`. -/
  | loaded (id : ℕ) (version : String)
  /-- `cancel`: the lookup and the deletion. -/
  | canceling (id : ℕ)
  /-- `cancel`: `close(existing)`. -/
  | closing (id : ℕ)
  /-- The unlock. -/
  | unlocking

/-- A call of `Subscribe`: its channel, whether its `once` has run, and its history. -/
structure Subscription where
  updates : Channel String
  canceled : Bool
  /-- The versions received so far. -/
  received : List String
  /-- The place in the publish order of the version current at the call. -/
  since : ℕ

/-- Subscriber IDs count up without an end; the counter of the source has 64 bits. -/
structure State where
  current : Option Snapshot
  lock : Option Holder
  nextSubscriberID : ℕ
  /-- The keys of the map `subscribers`. -/
  subscribers : List ℕ
  subscriptions : ℕ → Option Subscription
  /-- The versions stored so far, oldest first. -/
  published : List String

namespace State

def setChannel (s : State) (id : ℕ) (sub : Subscription) (updates : Channel String) : State :=
  { s with subscriptions := Function.update s.subscriptions id (some { sub with updates }) }

def setHolder (s : State) (holder : Holder) : State := { s with lock := some holder }

end State

/-- What a statement does: change the state, wait, or panic. -/
inductive Outcome
  | next (s : State)
  | blocked
  | panicked

/-- A select with a send and a default branch. -/
def selectSend (s : State) (id : ℕ) (version : String) (sent default : Holder) : Outcome :=
  match s.subscriptions id with
  | none => .panicked
  | some sub =>
    match sub.updates.send version with
    | .sent updates => .next ((s.setChannel id sub updates).setHolder sent)
    | .blocked => .next (s.setHolder default)
    | .panicked => .panicked

/-- The next statement of the goroutine in the critical section. -/
def statement (s : State) : Holder → Outcome
  | .publishing snapshot order =>
    .next { s with current := some snapshot, lock := some (.ranging snapshot order),
                   published := s.published ++ [snapshot.version] }
  | .ranging _ [] => .next (s.setHolder .unlocking)
  | .ranging snapshot (id :: remaining) => .next (s.setHolder (.trySend snapshot id remaining))
  | .trySend snapshot id remaining =>
    selectSend s id snapshot.version (.ranging snapshot remaining) (.drain snapshot id remaining)
  | .drain snapshot id remaining =>
    match s.subscriptions id with
    | none => .panicked
    | some sub =>
      match sub.updates.receive with
      | .received _ updates =>
        .next ((s.setChannel id sub updates).setHolder (.sendAgain snapshot id remaining))
      | .ended | .blocked => .next (s.setHolder (.sendAgain snapshot id remaining))
  | .sendAgain snapshot id remaining =>
    selectSend s id snapshot.version (.ranging snapshot remaining) (.ranging snapshot remaining)
  | .registered id =>
    match s.current with
    | none => .next (s.setHolder .unlocking)
    | some snapshot => .next (s.setHolder (.loaded id snapshot.version))
  | .loaded id version =>
    match s.subscriptions id with
    | none => .panicked
    | some sub =>
      match sub.updates.send version with
      | .sent updates => .next ((s.setChannel id sub updates).setHolder .unlocking)
      | .blocked => .blocked
      | .panicked => .panicked
  | .canceling id =>
    if id ∈ s.subscribers then
      .next { s with subscribers := s.subscribers.filter (· ≠ id), lock := some (.closing id) }
    else .next (s.setHolder .unlocking)
  | .closing id =>
    match s.subscriptions id with
    | none => .panicked
    | some sub =>
      match sub.updates.close with
      | some updates => .next ((s.setChannel id sub updates).setHolder .unlocking)
      | none => .panicked
  | .unlocking => .next { s with lock := none }

inductive Action
  /-- A `Publish` takes the mutex; `order` is the order of its loop over the map. -/
  | publish (envelope : Envelope) (order : List ℕ)
  /-- A `Subscribe` takes the mutex and enters its channel. -/
  | subscribe
  /-- A call of the `cancel` of a subscription; the first one takes the mutex. -/
  | cancel (id : ℕ)
  /-- The next statement in the critical section. -/
  | advance
  /-- A receive from the channel of a subscription. -/
  | receive (id : ℕ)

def step (G : GoPlatform) (s : State) : Action → Option State
  | .publish envelope order =>
    match newSnapshot G envelope with
    | .error _ => none
    | .ok snapshot =>
      if s.lock.isNone ∧ order.Perm s.subscribers then
        some (s.setHolder (.publishing snapshot order))
      else none
  | .subscribe =>
    if s.lock.isNone then
      let id := s.nextSubscriberID
      let sub : Subscription :=
        { updates := .make 1, canceled := false, received := [], since := s.published.length - 1 }
      some { s with nextSubscriberID := id + 1, subscribers := s.subscribers ++ [id],
                    subscriptions := Function.update s.subscriptions id (some sub),
                    lock := some (.registered id) }
    else none
  | .cancel id =>
    match s.subscriptions id with
    | none => none
    | some sub =>
      if sub.canceled then some s
      else if s.lock.isNone then
        some { s with subscriptions :=
                        Function.update s.subscriptions id (some { sub with canceled := true }),
                      lock := some (.canceling id) }
      else none
  | .advance =>
    match s.lock with
    | none => none
    | some holder =>
      match statement s holder with
      | .next s' => some s'
      | .blocked | .panicked => none
  | .receive id =>
    match s.subscriptions id with
    | none => none
    | some sub =>
      match sub.updates.receive with
      | .received version updates =>
        some { s with subscriptions := Function.update s.subscriptions id
                        (some { sub with updates, received := sub.received ++ [version] }) }
      | .ended => some s
      | .blocked => none

/-- `NewStore`. -/
def empty : State where
  current := none
  lock := none
  nextSubscriberID := 0
  subscribers := []
  subscriptions := fun _ => none
  published := []

def machine (G : GoPlatform) : System.Machine State Action where
  init s := s = empty
  step := step G

end Store
end ShieldWard.Control
