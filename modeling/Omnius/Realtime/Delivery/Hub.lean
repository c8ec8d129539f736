/-
# The delivery hub: one lock's worth of state, and the sections that run under it

`realtime-core/src/delivery.rs` keeps, behind one mutex, a queue per connection and FIVE running
totals over all queues.  A section of the source that holds that mutex is a function here from the
state it finds to the state it leaves; between two sections of one call other threads may run, and
that is the business of the next file.

**Counters.**  Every `-=` of the source on a `usize` is `usizeSub`, which wraps as a release build
does, and sets `underflow` for good: the flag is not in the source, it is how "no subtraction ever
underflows" is said.  Additions are over `Nat`.

**Messages.**  `ticket` is not in the source either: it names the reservation a message was
admitted through, so that two messages with equal contents are still two.  Functions that the
source gives a COUNT of removed messages return the messages themselves.

Wakers, the `changed` notification and the metrics have no effect on the state and are left out.
-/
import Omnius.Realtime.Registry

namespace Omnius.Realtime.Delivery

open Omnius.Lib

/-! ## 1. Types -/

def maxEnvelopeBytes : Nat := 16 * 1024

def maxDeliveryMessagesPerConnection : Nat := 4096

def maxDeliveryBytesPerConnection : Nat := 64 * 1024 * 1024

def maxDeliveryTotalBytes : Nat := 64 * 1024 * 1024 * 1024

/-- Drain deadlines, in nanoseconds. -/
def minDeliveryDrainTimeout : Nat := 10 * 1000000

def maxDeliveryDrainTimeout : Nat := 5 * 60 * 1000000000

inductive DeliveryQueueConfigError
  | zeroCapacity | exceedsHardLimit | perConnectionExceedsTotal | invalidDrainTimeout

structure DeliveryQueueConfig where
  (maxMessagesPerConnection maxBytesPerConnection maxTotalBytes drainTimeout : Nat)

def DeliveryQueueConfig.new (maxMessagesPerConnection maxBytesPerConnection maxTotalBytes
    drainTimeout : Nat) : Except DeliveryQueueConfigError DeliveryQueueConfig :=
  if maxMessagesPerConnection = 0 ∨ maxBytesPerConnection = 0 ∨ maxTotalBytes = 0 then
    .error .zeroCapacity
  else if maxDeliveryMessagesPerConnection < maxMessagesPerConnection
      ∨ maxDeliveryBytesPerConnection < maxBytesPerConnection
      ∨ maxDeliveryTotalBytes < maxTotalBytes then
    .error .exceedsHardLimit
  else if maxTotalBytes < maxBytesPerConnection then
    .error .perConnectionExceedsTotal
  else if drainTimeout < minDeliveryDrainTimeout ∨ maxDeliveryDrainTimeout < drainTimeout then
    .error .invalidDrainTimeout
  else
    .ok ⟨maxMessagesPerConnection, maxBytesPerConnection, maxTotalBytes, drainTimeout⟩

inductive DeliveryPriority
  | normal | high
deriving DecidableEq

inductive DeliveryTerminal
  | slowConsumer | draining

inductive DeliveryError
  | intakeClosed | connectionNotActive | receiverAlreadyOpen | connectionCapacity
  | reservationTooLarge | slowConsumer | closed | encoding | unavailable | connectionRequired

structure MessageType where
  text : String

/-- A subscription and the generation of it that a message was made for. -/
abbrev Generation := SubscriptionId × Nat

structure StoredMessage where
  encoded : List UInt8
  messageType : MessageType
  priority : DeliveryPriority
  generation : Option Generation
  (sequence ticket : Nat)

def bytesOf (messages : List StoredMessage) : Nat := (messages.map fun m => m.encoded.length).sum

structure QueueRecord where
  (high normal : List StoredMessage)
  (queuedBytes reservedMessages reservedBytes reservationEpoch : Nat)
  terminal : Option DeliveryTerminal
  (receiverOpen closed : Bool)

def QueueRecord.new : QueueRecord := ⟨[], [], 0, 0, 0, 0, none, true, false⟩

section

variable (q : QueueRecord)

def QueueRecord.queuedMessages : Nat := q.high.length + q.normal.length

/-- Neither `closed` nor terminal: the test before a reservation and before an admission. -/
def QueueRecord.isOpen : Bool := !q.closed && q.terminal.isNone

def QueueRecord.cleared : QueueRecord :=
  { q with high := [], normal := [], queuedBytes := 0 }

/-- What `invalidate_reservations_locked` leaves of a record: `wrapping_add(1)` on the epoch. -/
def QueueRecord.invalidated : QueueRecord :=
  { q with
    reservedMessages := 0
    reservedBytes := 0
    reservationEpoch := (q.reservationEpoch + 1) % 2 ^ 64 }

def QueueRecord.pushed (m : StoredMessage) : QueueRecord :=
  match m.priority with
  | .normal => { q with normal := q.normal ++ [m], queuedBytes := q.queuedBytes + m.encoded.length }
  | .high => { q with high := q.high ++ [m], queuedBytes := q.queuedBytes + m.encoded.length }

end

structure HubState where
  (intakeOpen draining : Bool)
  queues : Table ConnectionId QueueRecord
  (queuedMessages queuedBytes reservedMessages reservedBytes highPriorityMessages : Nat)
  nextNormalSequence : Nat
  underflow : Bool

def HubState.empty : HubState := ⟨true, false, ∅, 0, 0, 0, 0, 0, 0, false⟩

/-! ## 2. What sections report -/

structure ReserveOutcome where
  /-- The epoch of the new reservation. -/
  result : Except DeliveryError Nat
  state : HubState
  /-- Removed by the purge of a revoked generation. -/
  purged : List StoredMessage
  /-- Removed to make room for a high-priority message. -/
  evicted : List (ConnectionId × StoredMessage)
  /-- Removed because the connection became slow. -/
  cleared : List StoredMessage
  becameSlow : Bool

structure AdmitOutcome where
  /-- The message as it was queued, with its sequence number. -/
  result : Except DeliveryError StoredMessage
  state : HubState
  purged : List StoredMessage
  /-- Whether the reservation was given up in the section. -/
  released : Bool

/-- What one round of `poll_recv` finds under the lock. -/
inductive PollOutcome
  | missing
  | terminal (terminal : DeliveryTerminal)
  | message (message : StoredMessage)
  | ended | pending

structure DeliveryDrainOutcome where
  deadlineExpired : Bool
  droppedMessages : Nat

structure FinishOutcome where
  outcome : DeliveryDrainOutcome
  state : HubState
  dropped : List (ConnectionId × StoredMessage)
  connections : List ConnectionId

/-! ## 3. Subtraction -/

/-- `a - b` on a `usize`. -/
def usizeSub (a b : Nat) : Nat := if b ≤ a then a - b else a + 2 ^ 64 - b

theorem usizeSub_of_le {a b : Nat} (h : b ≤ a) : usizeSub a b = a - b := if_pos h

namespace HubState

section

variable (s : HubState)

/-- The totals of queued messages, less `messages` with `bytes`, `high` of them high-priority. -/
def subQueued (messages bytes high : Nat) : HubState :=
  { s with
    queuedMessages := usizeSub s.queuedMessages messages
    queuedBytes := usizeSub s.queuedBytes bytes
    highPriorityMessages := usizeSub s.highPriorityMessages high
    underflow := s.underflow || decide (s.queuedMessages < messages)
      || decide (s.queuedBytes < bytes) || decide (s.highPriorityMessages < high) }

/-- The totals of reservations, less `messages` with `bytes`. -/
def subReserved (messages bytes : Nat) : HubState :=
  { s with
    reservedMessages := usizeSub s.reservedMessages messages
    reservedBytes := usizeSub s.reservedBytes bytes
    underflow := s.underflow || decide (s.reservedMessages < messages)
      || decide (s.reservedBytes < bytes) }

variable (c : ConnectionId)

/-- Queue `q` of `c` keeps `high` and `normal`; `gone` are the messages that left, `highs` of them
counted as high-priority. -/
def dropMessages (q : QueueRecord)
    (high normal gone : List StoredMessage) (highs : Nat) : HubState :=
  let t := s.subQueued gone.length (bytesOf gone) highs
  { t with
    queues := s.queues.insert c
      { q with
        high := high, normal := normal, queuedBytes := usizeSub q.queuedBytes (bytesOf gone) }
    underflow := t.underflow || decide (q.queuedBytes < bytesOf gone) }

/-! ## 4. The `*_locked` helpers -/

def releaseReservationLocked (reservedBytes epoch : Nat) :
    HubState :=
  match s.queues.lookup c with
  | none => s
  | some q =>
    if q.reservationEpoch ≠ epoch then s
    else
      let q' := { q with
        reservedMessages := usizeSub q.reservedMessages 1
        reservedBytes := usizeSub q.reservedBytes reservedBytes }
      let t := s.subReserved 1 reservedBytes
      let t := { t with
        underflow := t.underflow || decide (q.reservedMessages < 1)
          || decide (q.reservedBytes < reservedBytes) }
      if q'.closed && !q'.receiverOpen && q'.reservedMessages == 0 then
        { t with queues := s.queues.erase c }
      else
        { t with queues := s.queues.insert c q' }

def invalidateReservationsLocked : HubState :=
  match s.queues.lookup c with
  | none => s
  | some q =>
    { s.subReserved q.reservedMessages q.reservedBytes with
      queues := s.queues.insert c q.invalidated }

/-- `clear_queue_locked`. -/
def clearQueueLocked : HubState × List StoredMessage :=
  match s.queues.lookup c with
  | none => (s, [])
  | some q =>
    ({ s.subQueued q.queuedMessages q.queuedBytes q.high.length with
        queues := s.queues.insert c q.cleared },
      q.high ++ q.normal)

/-- `purge_generation_locked`: only the normal deque is searched. -/
def purgeGenerationLocked (generation : Generation) :
    HubState × List StoredMessage :=
  match s.queues.lookup c with
  | none => (s, [])
  | some q =>
    let gone := q.normal.filter fun m => m.generation = some generation
    let kept := q.normal.filter fun m => ¬ m.generation = some generation
    (s.dropMessages c q q.high kept gone 0, gone)

end

/-- The loop of `make_room_for_high_locked` on the normal deque: what is popped and what is left.
`queue.queued_bytes` is only reduced after the loop, so the byte test reads the same number in
every round. -/
def roomLoop (config : DeliveryQueueConfig) (reservationBytes : Nat) (q : QueueRecord) :
    List StoredMessage → List StoredMessage × List StoredMessage
  | [] => ([], [])
  | m :: rest =>
    if config.maxMessagesPerConnection ≤ q.high.length + (m :: rest).length + q.reservedMessages
        ∨ config.maxBytesPerConnection < q.queuedBytes + q.reservedBytes + reservationBytes then
      (m :: (roomLoop config reservationBytes q rest).1,
        (roomLoop config reservationBytes q rest).2)
    else
      ([], m :: rest)

/-- `make_room_for_high_locked`. -/
def makeRoomForHighLocked (s : HubState) (c : ConnectionId) (reservationBytes : Nat)
    (config : DeliveryQueueConfig) : HubState × List StoredMessage :=
  match s.queues.lookup c with
  | none => (s, [])
  | some q =>
    let loop := roomLoop config reservationBytes q q.normal
    (s.dropMessages c q q.high loop.2 loop.1 0, loop.1)

/-- `min_by_key` over the fronts: the first of the smallest. -/
def minBySequence : List (ConnectionId × Nat) → Option (ConnectionId × Nat)
  | [] => none
  | x :: rest =>
    match minBySequence rest with
    | none => some x
    | some y => if x.2 ≤ y.2 then some x else some y

/-- The connection whose front normal message is the oldest. -/
def oldestNormal (s : HubState) : Option ConnectionId :=
  (minBySequence (s.queues.entries.filterMap fun e =>
    e.2.normal.head?.map fun m => (e.1, m.sequence))).map Prod.fst

/-- The loop of `make_global_room_for_high_locked`; every round pops one message, so as much fuel
as there are normal messages is enough. -/
def globalRoomLoop (reservationBytes : Nat) (config : DeliveryQueueConfig) :
    Nat → HubState → HubState × List (ConnectionId × StoredMessage)
  | 0, s => (s, [])
  | fuel + 1, s =>
    if s.queuedBytes + s.reservedBytes + reservationBytes ≤ config.maxTotalBytes then (s, [])
    else
      match s.oldestNormal with
      | none => (s, [])
      | some c =>
        match s.queues.lookup c with
        | none => (s, [])
        | some q =>
          match q.normal with
          | [] => (s, [])
          | m :: rest =>
            let next := globalRoomLoop reservationBytes config fuel
              (s.dropMessages c q q.high rest [m] 0)
            (next.1, (c, m) :: next.2)

section

variable (s : HubState)

/-- `make_global_room_for_high_locked`. -/
def makeGlobalRoomForHighLocked (reservationBytes : Nat)
    (config : DeliveryQueueConfig) : HubState × List (ConnectionId × StoredMessage) :=
  globalRoomLoop reservationBytes config (s.queues.total fun _ q => q.normal.length) s

/-- `mark_slow_locked`; the flag says whether the queue became slow. -/
def markSlowLocked (c : ConnectionId) : Bool × HubState × List StoredMessage :=
  match s.queues.lookup c with
  | none => (false, s, [])
  | some q =>
    if !q.isOpen then (false, s, [])
    else
      let (t, gone) := s.clearQueueLocked c
      let t := t.invalidateReservationsLocked c
      match t.queues.lookup c with
      | none => (true, t, gone)
      | some q' =>
        (true, { t with queues := t.queues.insert c { q' with terminal := some .slowConsumer } },
          gone)

/-! ## 5. The sections of the public operations -/

/-- The section of `open_connection`. -/
def openConnection (maxConnections : Nat) (c : ConnectionId) :
    Except DeliveryError Unit × HubState :=
  if !s.intakeOpen then (.error .intakeClosed, s)
  else if (s.queues.lookup c).isSome then (.error .receiverAlreadyOpen, s)
  else if maxConnections ≤ s.queues.size then (.error .connectionCapacity, s)
  else (.ok (), { s with queues := s.queues.insert c .new })

/-- The last part of the section, from the capacity test on. -/
def reserveSlot (config : DeliveryQueueConfig) (c : ConnectionId)
    (bytes : Nat) (purged : List StoredMessage) (evicted : List (ConnectionId × StoredMessage)) :
    ReserveOutcome :=
  let exceedsConnection := match s.queues.lookup c with
    | none => true
    | some q =>
      decide (config.maxMessagesPerConnection ≤ q.queuedMessages + q.reservedMessages)
        || decide (config.maxBytesPerConnection < q.queuedBytes + q.reservedBytes + bytes)
  let exceedsTotal := decide (config.maxTotalBytes < s.queuedBytes + s.reservedBytes + bytes)
  if exceedsConnection || exceedsTotal then
    let slow := s.markSlowLocked c
    ⟨.error .slowConsumer, slow.2.1, purged, evicted, slow.2.2, slow.1⟩
  else
    match s.queues.lookup c with
    | none => ⟨.error .closed, s, purged, evicted, [], false⟩
    | some q =>
      let q' := { q with
        reservedMessages := q.reservedMessages + 1
        reservedBytes := q.reservedBytes + bytes }
      ⟨.ok q.reservationEpoch,
        { s with
          queues := s.queues.insert c q'
          reservedMessages := s.reservedMessages + 1
          reservedBytes := s.reservedBytes + bytes },
        purged, evicted, [], false⟩

/-- The purge a caller may ask for. -/
def purgeIfAsked (c : ConnectionId) (purge : Option Generation) :
    HubState × List StoredMessage :=
  match purge with
  | none => (s, [])
  | some generation => s.purgeGenerationLocked c generation

/-- The room a high-priority reservation makes for itself: on its connection, then in the hub. -/
def makeRoom (config : DeliveryQueueConfig) (c : ConnectionId)
    (priority : DeliveryPriority) (bytes : Nat) : HubState × List (ConnectionId × StoredMessage) :=
  match priority with
  | .normal => (s, [])
  | .high =>
    let locally := s.makeRoomForHighLocked c bytes config
    let globally := locally.1.makeGlobalRoomForHighLocked bytes config
    (globally.1, locally.2.map (fun m => (c, m)) ++ globally.2)

/-- The section of `reserve_addressed`. -/
def reserveAddressed (config : DeliveryQueueConfig) (c : ConnectionId)
    (priority : DeliveryPriority) (bytes : Nat) (purge : Option Generation) : ReserveOutcome :=
  if !s.intakeOpen then ⟨.error .intakeClosed, s, [], [], [], false⟩
  else
    match s.queues.lookup c with
    | none => ⟨.error .connectionNotActive, s, [], [], [], false⟩
    | some q =>
      if !q.isOpen then ⟨.error .closed, s, [], [], [], false⟩
      else
        let purging := s.purgeIfAsked c purge
        let room := purging.1.makeRoom config c priority bytes
        room.1.reserveSlot config c bytes purging.2 room.2

/-- A normal message takes the next sequence number. -/
def stamp (m : StoredMessage) : StoredMessage × HubState :=
  match m.priority with
  | .normal =>
    ({ m with sequence := s.nextNormalSequence },
      { s with nextNormalSequence := s.nextNormalSequence + 1 })
  | .high => (m, s)

/-- The end of the section of `admit_stored`: the message goes to the back of its deque. -/
def push (c : ConnectionId) (q : QueueRecord) (m : StoredMessage) : HubState :=
  { s with
    queues := s.queues.insert c (q.pushed m)
    queuedMessages := s.queuedMessages + 1
    queuedBytes := s.queuedBytes + m.encoded.length
    highPriorityMessages := s.highPriorityMessages + if m.priority = .high then 1 else 0 }

/-- The section of `admit_stored`. -/
def admitStored (c : ConnectionId) (reservedBytes epoch : Nat)
    (stored : StoredMessage) : AdmitOutcome :=
  match s.queues.lookup c with
  | none => ⟨.error .closed, s, [], false⟩
  | some q =>
    if !q.isOpen then ⟨.error .closed, s, [], false⟩
    else
      let purging := s.purgeIfAsked c (if stored.priority = .high then stored.generation else none)
      -- `checked_add(1)` on the sequence, a `u64`
      if stored.priority = .normal ∧ 2 ^ 64 ≤ purging.1.nextNormalSequence + 1 then
        ⟨.error .unavailable, purging.1, purging.2, false⟩
      else
        let stamped := purging.1.stamp stored
        let t := stamped.2.releaseReservationLocked c reservedBytes epoch
        match t.queues.lookup c with
        | none => ⟨.error .closed, t, purging.2, true⟩
        | some q' => ⟨.ok stamped.1, t.push c q' stamped.1, purging.2, true⟩

/-- The section of `poll_recv`: the terminal first, then the high deque, then the normal one. -/
def pollRecv (c : ConnectionId) : PollOutcome × HubState :=
  match s.queues.lookup c with
  | none => (.missing, s)
  | some q =>
    match q.terminal with
    | some terminal =>
      (.terminal terminal,
        { s with queues := s.queues.insert c { q with terminal := none, closed := true } })
    | none =>
      match q.high, q.normal with
      | m :: high, normal =>
        (.message m,
          s.dropMessages c q high normal [m] (if m.priority = .high then 1 else 0))
      | [], m :: normal =>
        (.message m,
          s.dropMessages c q [] normal [m] (if m.priority = .high then 1 else 0))
      | [], [] => (if q.closed then .ended else .pending, s)

/-- `begin_drain`. -/
def beginDrain : HubState :=
  if s.draining then s else { s with intakeOpen := false, draining := true }

end

/-- The first loop of `finish_drain`, over a list of connections. -/
def dropAll : List ConnectionId → HubState → HubState × List (ConnectionId × StoredMessage)
  | [], s => (s, [])
  | c :: rest, s =>
    let cleared := s.clearQueueLocked c
    let next := dropAll rest (cleared.1.invalidateReservationsLocked c)
    (next.1, cleared.2.map (fun m => (c, m)) ++ next.2)

/-- Its second loop: the connections whose receiver gets the terminal. -/
def signalAll : List ConnectionId → HubState → HubState × List ConnectionId
  | [], s => (s, [])
  | c :: rest, s =>
    match s.queues.lookup c with
    | none => signalAll rest s
    | some q =>
      if q.receiverOpen && !q.closed then
        let next := signalAll rest
          { s with queues := s.queues.insert c { q with terminal := some .draining } }
        (next.1, c :: next.2)
      else signalAll rest s

variable (s : HubState)

/-- The section of `finish_drain`; `order` is the order in which the map's keys come. -/
def finishDrain (deadlineExpired : Bool) (order : List ConnectionId) :
    FinishOutcome :=
  let dropping := if deadlineExpired then dropAll order s else (s, [])
  let signalling := signalAll order dropping.1
  ⟨⟨deadlineExpired, if deadlineExpired then s.queuedMessages else 0⟩, signalling.1, dropping.2,
    signalling.2⟩

/-- The section of `close_connection`, and the registry calls that follow it. -/
def closeConnection (c : ConnectionId) :
    HubState × List StoredMessage × List RegistryOp :=
  match s.queues.lookup c with
  | none => (s, [], [.close c])
  | some _ =>
    let cleared := s.clearQueueLocked c
    let t := cleared.1.invalidateReservationsLocked c
    ({ t with queues := t.queues.erase c }, cleared.2, [.beginClose c, .close c])

/-- The last section of a receiver's `close`. -/
def closeReceiver (c : ConnectionId) : HubState :=
  match s.queues.lookup c with
  | none => s
  | some q =>
    if q.closed && q.reservedMessages == 0 then { s with queues := s.queues.erase c }
    else { s with queues := s.queues.insert c { q with receiverOpen := false } }

end HubState

end Omnius.Realtime.Delivery
