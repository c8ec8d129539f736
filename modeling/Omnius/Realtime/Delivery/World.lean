/-
# The delivery world: calls in progress, interleaved

A call of the hub's API is not one step.  `open_connection` asks the registry and only then takes
the hub's lock; a reservation is held while its message is encoded, checked against the registry
and at last admitted; `poll_recv` lets the lock go before it asks whether what it popped is still
wanted; `close_connection` and `finish_drain` call the registry after their section.  Here every
section and every registry call is one ACTION, and a call in progress is a value in a table: a
`Task`, a `Reservation` or a `Receiver` that remembers how far it has come.  A run is any
interleaving of actions, for any number of calls, connections and receivers.

* `openCheck`, `reserveCheck` start a call with its registry test; when the test fails the call
  returns an error and has done nothing, so the action is not enabled.
* `registry` is any operation of the registry by anyone; `poison` is a panic under ITS lock (the
  hub's own lock recovers from one).
* a `drain` may time out at any moment.

What no code keeps, and the statements need, is kept in four histories, newest first: `admitted`,
`removed`, `yielded` and `returned`.

Translated from `crates/realtime-core/src/delivery.rs`.
-/
import Omnius.Realtime.Delivery.Hub

namespace Omnius.Realtime.Delivery

open Omnius.Lib

/-! ## 1. Calls in progress -/

/-- How a message left its queue. -/
inductive Fate
  | popped (receiver : Nat)
  | revocationPurged | priorityPurged | closed | slow | forced

inductive ReservationPhase
  | held
  /-- `admit_stored` has made its registry check and not yet taken the lock. -/
  | checked (message : StoredMessage)
  /-- An admission failed or was stale; what is left is the drop. -/
  | failed

/-- A live reservation: one whose `active` is still set. -/
structure Reservation where
  connectionId : ConnectionId
  priority : DeliveryPriority
  (reservedBytes reservationEpoch : Nat)
  phase : ReservationPhase

inductive ReceiverPhase
  | idle
  /-- Back at the top of `poll_recv`'s loop after a stale message. -/
  | polling
  /-- A message is out of its queue and not yet checked. -/
  | popped (message : StoredMessage)
  /-- The check failed; `close_connection` comes next. -/
  | aborting
  /-- In `close_connection`, with these registry calls to make; `dropping` in the receiver's own
  `close`. -/
  | closing (todo : List RegistryOp) (dropping : Bool)

structure Receiver where
  connectionId : ConnectionId
  isOpen : Bool
  phase : ReceiverPhase

inductive Task
  /-- `open_connection` after its registry test. -/
  | opening (c : ConnectionId)
  /-- `reserve_addressed` after its registry test. -/
  | reserving (c : ConnectionId) (priority : DeliveryPriority) (bytes : Nat)
      (purge : Option Generation)
  /-- Registry calls left to make; a drain then returns its outcome. -/
  | calling (todo : List RegistryOp) (outcome : Option DeliveryDrainOutcome)
  /-- In the loop of `drain`. -/
  | draining
  /-- Before the section of `finish_drain`. -/
  | finishing (expired : Bool)

/-- What `poll_recv` hands to its caller. -/
inductive QueuedDelivery
  | message (message : StoredMessage)
  | terminal (terminal : DeliveryTerminal)

/-- The hub, the live reservations, and what came and went through the queues. -/
structure Core where
  hub : HubState
  reservations : Table Nat Reservation
  nextReservation : Nat
  admitted : List (ConnectionId × StoredMessage)
  removed : List (ConnectionId × StoredMessage × Fate)

structure World extends Core where
  registry : ConnectionRegistry
  receivers : Table Nat Receiver
  tasks : Table Nat Task
  nextId : Nat
  yielded : List (Nat × ConnectionId × QueuedDelivery)
  returned : List DeliveryDrainOutcome

def World.start (config : RegistryConfig) : World :=
  ⟨⟨.empty, ∅, 0, [], []⟩, .new config, ∅, ∅, 0, [], []⟩

/-- The message a caller hands to a reservation. -/
structure Payload where
  encoded : List UInt8
  messageType : MessageType
  generation : Option Generation

inductive Action
  | registry (op : RegistryOp)
  | poison
  | openCheck (c : ConnectionId)
  | openLock (task : Nat)
  | reserveCheck (c : ConnectionId) (priority : DeliveryPriority) (bytes : Nat)
      (purge : Option Generation)
  | reserveLock (task : Nat)
  | admitCheck (reservation : Nat) (payload : Payload)
  | admitLock (reservation : Nat)
  | release (reservation : Nat)
  | pollLock (receiver : Nat)
  | pollCheck (receiver : Nat)
  | abortLock (receiver : Nat)
  | dropLock (receiver : Nat)
  | receiverCall (receiver : Nat)
  | dropEnd (receiver : Nat)
  | closeLock (c : ConnectionId)
  | taskCall (task : Nat)
  | taskReturn (task : Nat)
  | beginDrain | drainStart
  | drainCheck (task : Nat)
  | drainTimeout (task : Nat)
  | finishLock (task : Nat) (order : List ConnectionId)
  | forceClose

/-! ## 2. Registry tests -/

def connectionIsActive (r : ConnectionRegistry) (c : ConnectionId) : Except DeliveryError Bool :=
  if r.poisoned then .error .unavailable
  else .ok ((r.state.connections.lookup c).any fun connection => connection.state = .active)

/-- The generation test before an admission and before a yield: by priority. -/
def generationIsCurrent (r : ConnectionRegistry) (priority : DeliveryPriority)
    (generation : Generation) : Except RegistryError Bool :=
  if r.poisoned then .error .unavailable
  else .ok (match priority with
    | .normal => r.state.isSubscriptionCurrentActive generation.1 generation.2
    | .high => r.state.isSubscriptionCurrentGeneration generation.1 generation.2)

/-! ## 3. The actions -/

def fated (c : ConnectionId) (fate : Fate) (messages : List StoredMessage) :
    List (ConnectionId × StoredMessage × Fate) :=
  messages.map fun m => (c, m, fate)

def fatedAll (fate : Fate) (messages : List (ConnectionId × StoredMessage)) :
    List (ConnectionId × StoredMessage × Fate) :=
  messages.map fun m => (m.1, m.2, fate)

namespace World

section

variable (w : World)

def spawn (task : Task) : World :=
  { w with tasks := w.tasks.insert w.nextId task, nextId := w.nextId + 1 }

def setReservation (id : Nat) (r : Reservation) : World :=
  { w with reservations := w.reservations.insert id r }

def setReceiver (id : Nat) (x : Receiver) : World :=
  { w with receivers := w.receivers.insert id x }

def openCheck (c : ConnectionId) : Option World :=
  match connectionIsActive w.registry c with
  | .ok true => some (w.spawn (.opening c))
  | _ => none

def openLock (task : Nat) : Option World :=
  match w.tasks.lookup task with
  | some (.opening c) =>
    let opened := w.hub.openConnection w.registry.config.maxConnections c
    match opened.1 with
    | .ok _ => some
        { w with
          hub := opened.2
          tasks := w.tasks.erase task
          receivers := w.receivers.insert w.nextId ⟨c, true, .idle⟩
          nextId := w.nextId + 1 }
    | .error _ => some { w with hub := opened.2, tasks := w.tasks.erase task }
  | _ => none

end

def reserveCheck (config : DeliveryQueueConfig) (w : World) (c : ConnectionId)
    (priority : DeliveryPriority) (bytes : Nat) (purge : Option Generation) : Option World :=
  if bytes = 0 ∨ maxEnvelopeBytes < bytes ∨ config.maxBytesPerConnection < bytes then none
  else
    match connectionIsActive w.registry c with
    | .ok true => some (w.spawn (.reserving c priority bytes purge))
    | _ => none

def reserveLock (config : DeliveryQueueConfig) (w : World) (task : Nat) : Option World :=
  match w.tasks.lookup task with
  | some (.reserving c priority bytes purge) =>
    let outcome := w.hub.reserveAddressed config c priority bytes purge
    let w' := { w with
      hub := outcome.state
      removed := fated c .slow outcome.cleared ++ fatedAll .priorityPurged outcome.evicted
        ++ fated c .revocationPurged outcome.purged ++ w.removed }
    match outcome.result with
    | .ok epoch => some
        { w' with
          reservations := w.reservations.insert w.nextReservation ⟨c, priority, bytes, epoch, .held⟩
          nextReservation := w.nextReservation + 1
          tasks := w.tasks.erase task }
    | .error _ =>
      if outcome.becameSlow then some
        { w' with tasks := w.tasks.insert task (.calling [.beginClose c, .close c] none) }
      else some { w' with tasks := w.tasks.erase task }
  | _ => none

/-- The message as `admit_message` and `admit_intent` build it: its priority is the
reservation's. -/
def stored (id : Nat) (r : Reservation) (payload : Payload) : StoredMessage :=
  ⟨payload.encoded, payload.messageType, r.priority, payload.generation, 0, id⟩

section

variable (w : World)

section

variable (id : Nat)

def admitCheck (payload : Payload) : Option World :=
  match w.reservations.lookup id with
  | some r =>
    match r.phase with
    | .held =>
      if r.reservedBytes < payload.encoded.length then
        some (w.setReservation id { r with phase := .failed })
      else
        match payload.generation with
        | none => some (w.setReservation id { r with phase := .checked (stored id r payload) })
        | some generation =>
          match generationIsCurrent w.registry r.priority generation with
          | .ok true =>
            some (w.setReservation id { r with phase := .checked (stored id r payload) })
          | _ => some (w.setReservation id { r with phase := .failed })
    | _ => none
  | none => none

def admitLock : Option World :=
  match w.reservations.lookup id with
  | some r =>
    match r.phase with
    | .checked m =>
      let outcome := w.hub.admitStored r.connectionId r.reservedBytes r.reservationEpoch m
      let w' := { w with
        hub := outcome.state
        removed := fated r.connectionId .revocationPurged outcome.purged ++ w.removed }
      match outcome.result with
      | .ok m' => some
          { w' with
            reservations := w.reservations.erase id
            admitted := (r.connectionId, m') :: w.admitted }
      | .error _ =>
        if outcome.released then some { w' with reservations := w.reservations.erase id }
        else some (w'.setReservation id { r with phase := .failed })
    | _ => none
  | none => none

/-- The drop of a reservation that is held or has failed. -/
def release : Option World :=
  match w.reservations.lookup id with
  | some r =>
    match r.phase with
    | .checked _ => none
    | _ => some
        { w with
          hub := w.hub.releaseReservationLocked r.connectionId r.reservedBytes r.reservationEpoch
          reservations := w.reservations.erase id }
  | none => none

def pollSection (x : Receiver) : World :=
  let polled := w.hub.pollRecv x.connectionId
  let w' := { w with hub := polled.2 }
  match polled.1 with
  | .missing | .ended => w'.setReceiver id { x with isOpen := false, phase := .idle }
  | .pending => w'.setReceiver id { x with phase := .idle }
  | .terminal terminal =>
    { w'.setReceiver id { x with phase := .idle } with
      yielded := (id, x.connectionId, .terminal terminal) :: w.yielded }
  | .message m =>
    let w' := { w' with removed := (x.connectionId, m, .popped id) :: w.removed }
    match m.generation with
    | none =>
      { w'.setReceiver id { x with phase := .idle } with
        yielded := (id, x.connectionId, .message m) :: w.yielded }
    | some _ => w'.setReceiver id { x with phase := .popped m }

def pollLock : Option World :=
  match w.receivers.lookup id with
  | some x =>
    match x.phase with
    | .idle | .polling => some (w.pollSection id x)
    | _ => none
  | none => none

def pollCheck : Option World :=
  match w.receivers.lookup id with
  | some x =>
    match x.phase with
    | .popped m =>
      match m.generation with
      | none => none
      | some generation =>
        match generationIsCurrent w.registry m.priority generation with
        | .ok true => some
            { w.setReceiver id { x with phase := .idle } with
              yielded := (id, x.connectionId, .message m) :: w.yielded }
        | .ok false => some (w.setReceiver id { x with phase := .polling })
        | .error _ => some (w.setReceiver id { x with phase := .aborting })
    | _ => none
  | none => none

/-- `close_connection`'s section, run by receiver `id`. -/
def closeSection (x : Receiver) (dropping : Bool) : World :=
  let closed := w.hub.closeConnection x.connectionId
  { w with
    hub := closed.1
    removed := fated x.connectionId .closed closed.2.1 ++ w.removed
    receivers := w.receivers.insert id
      { x with isOpen := false, phase := .closing closed.2.2 dropping } }

def abortLock : Option World :=
  match w.receivers.lookup id with
  | some x =>
    match x.phase with
    | .aborting => some (w.closeSection id x false)
    | _ => none
  | none => none

/-- The drop of a receiver, up to and including `close_connection`'s section. -/
def dropLock : Option World :=
  match w.receivers.lookup id with
  | some x =>
    match x.phase with
    | .idle =>
      if x.isOpen then some (w.closeSection id x true)
      else some (w.setReceiver id { x with phase := .closing [] true })
    | _ => none
  | none => none

def receiverCall : Option World :=
  match w.receivers.lookup id with
  | some x =>
    match x.phase with
    | .closing (op :: todo) dropping => some
        { w.setReceiver id { x with
            phase := if todo.isEmpty && !dropping then .idle else .closing todo dropping } with
          registry := (w.registry.apply op).2 }
    | _ => none
  | none => none

/-- The last section of a receiver's drop. -/
def dropEnd : Option World :=
  match w.receivers.lookup id with
  | some x =>
    match x.phase with
    | .closing [] true => some
        { w with
          hub := w.hub.closeReceiver x.connectionId
          receivers := w.receivers.erase id }
    | _ => none
  | none => none

end

def closeLock (c : ConnectionId) : Option World :=
  let closed := w.hub.closeConnection c
  some (spawn
    { w with hub := closed.1, removed := fated c .closed closed.2.1 ++ w.removed }
    (.calling closed.2.2 none))

variable (task : Nat)

def taskCall : Option World :=
  match w.tasks.lookup task with
  | some (.calling (op :: todo) outcome) => some
      { w with
        registry := (w.registry.apply op).2
        tasks := w.tasks.insert task (.calling todo outcome) }
  | _ => none

def taskReturn : Option World :=
  match w.tasks.lookup task with
  | some (.calling [] outcome) => some
      { w with tasks := w.tasks.erase task, returned := outcome.toList ++ w.returned }
  | _ => none

/-- `drain` reads the totals once per round. -/
def drainCheck : Option World :=
  match w.tasks.lookup task with
  | some .draining =>
    if w.hub.queuedMessages = 0 ∧ w.hub.reservedMessages = 0 then
      some { w with tasks := w.tasks.insert task (.finishing false) }
    else some w
  | _ => none

def drainTimeout : Option World :=
  match w.tasks.lookup task with
  | some .draining => some { w with tasks := w.tasks.insert task (.finishing true) }
  | _ => none

def finishLock (order : List ConnectionId) : Option World :=
  match w.tasks.lookup task with
  | some (.finishing expired) =>
    if order.Perm w.hub.queues.keys then
      let finished := w.hub.finishDrain expired order
      some
        { w with
          hub := finished.state
          removed := fatedAll .forced finished.dropped ++ w.removed
          tasks := w.tasks.insert task
            (.calling (finished.connections.flatMap fun c => [.beginClose c, .close c])
              (some finished.outcome)) }
    else none
  | _ => none

end

/-- The world after an action, or `none` when it is not enabled. -/
def step (config : DeliveryQueueConfig) (w : World) : Action → Option World
  | .registry op => some { w with registry := (w.registry.apply op).2 }
  | .poison => some { w with registry := { w.registry with poisoned := true } }
  | .openCheck c => w.openCheck c
  | .openLock task => w.openLock task
  | .reserveCheck c priority bytes purge => w.reserveCheck config c priority bytes purge
  | .reserveLock task => w.reserveLock config task
  | .admitCheck id payload => w.admitCheck id payload
  | .admitLock id => w.admitLock id
  | .release id => w.release id
  | .pollLock id => w.pollLock id
  | .pollCheck id => w.pollCheck id
  | .abortLock id => w.abortLock id
  | .dropLock id => w.dropLock id
  | .receiverCall id => w.receiverCall id
  | .dropEnd id => w.dropEnd id
  | .closeLock c => w.closeLock c
  | .taskCall task => w.taskCall task
  | .taskReturn task => w.taskReturn task
  | .beginDrain => some { w with hub := w.hub.beginDrain }
  | .drainStart => some (spawn { w with hub := w.hub.beginDrain } .draining)
  | .drainCheck task => w.drainCheck task
  | .drainTimeout task => w.drainTimeout task
  | .finishLock task order => w.finishLock task order
  | .forceClose => some (spawn { w with hub := w.hub.beginDrain } (.finishing true))

end World

/-- The machine of a hub and its registry. -/
def delivery (registryConfig : RegistryConfig) (config : DeliveryQueueConfig) :
    Machine World Action where
  start := .start registryConfig
  step := World.step config

end Omnius.Realtime.Delivery
