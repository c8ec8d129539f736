/-
# The connection registry

`realtime-core/src/registry.rs`: one mutex over three maps that say the same thing in three ways.
`connections` holds each connection with the ids of its subscriptions; `subscriptions` holds each
subscription with its owner, tenant and topic; `tenant_topics` holds, per tenant and topic, the
ids that a message may be delivered to.

Every operation is ONE critical section, so it is a function of the state it finds: it returns its
result TOGETHER with the state it leaves, whether the result is an error or not.  A poisoned lock
answers every operation with `Unavailable`.

`register` draws its identifier from `ConnectionId::new()`; the identifier is an argument here, and
the source's check that it is unused is kept.  Of a principal only the tenant and the subject are
read.
-/
import Omnius.Lib.Machine
import Omnius.Lib.SortedSet
import Omnius.Lib.Table

namespace Omnius.Realtime

open Omnius.Lib

/-! ## 1. Identifiers and records -/

structure ConnectionId where
  uuid : Nat
deriving DecidableEq

structure SubscriptionId where
  uuid : Nat
deriving DecidableEq

/-- Identifiers are ordered by their bytes. -/
instance : LinearOrder SubscriptionId :=
  LinearOrder.lift' SubscriptionId.uuid (by rintro ⟨_⟩ ⟨_⟩ rfl; rfl)

structure MessageId where
  uuid : Nat

structure TenantId where
  uuid : Nat
deriving DecidableEq

structure SubjectId where
  uuid : Nat

structure Topic where
  text : String
deriving DecidableEq

structure OpaqueCursor where
  text : String
deriving DecidableEq

/-- The part of an authenticated principal that the registry reads. -/
structure Principal where
  subjectId : SubjectId
  tenantId : Option TenantId

/-- `closed` is what `close` answers; no record holds it. -/
inductive ConnectionState
  | registered | active | closing | closed
deriving DecidableEq

inductive SubscriptionState
  | active | revoked | removed
deriving DecidableEq

inductive RegistryError
  | connectionCapacity | subscriptionCapacity | perConnectionSubscriptionCapacity
  | connectionNotFound | subscriptionNotFound | invalidState | duplicateSubscription
  | subscriptionConflict | tenantMismatch | unavailable

inductive RegistryConfigError
  | zeroCapacity | exceedsHardLimit | perConnectionExceedsTotal

structure RegistryConfig where
  (maxConnections maxSubscriptions maxSubscriptionsPerConnection : Nat)

def hardMaxConnections : Nat := 65536

def hardMaxSubscriptions : Nat := 262144

def hardMaxSubscriptionsPerConnection : Nat := 4096

/-- The bounds are checked in this order. -/
def RegistryConfig.new (maxConnections maxSubscriptions maxSubscriptionsPerConnection : Nat) :
    Except RegistryConfigError RegistryConfig :=
  if maxConnections = 0 ∨ maxSubscriptions = 0 ∨ maxSubscriptionsPerConnection = 0 then
    .error .zeroCapacity
  else if hardMaxConnections < maxConnections ∨ hardMaxSubscriptions < maxSubscriptions
      ∨ hardMaxSubscriptionsPerConnection < maxSubscriptionsPerConnection then
    .error .exceedsHardLimit
  else if maxSubscriptions < maxSubscriptionsPerConnection then
    .error .perConnectionExceedsTotal
  else
    .ok ⟨maxConnections, maxSubscriptions, maxSubscriptionsPerConnection⟩

structure ConnectionRecord where
  id : ConnectionId
  principal : Principal
  state : ConnectionState
  subscriptions : SortedSet SubscriptionId

/-- The subject is the one its connection had when it subscribed. -/
structure SubscriptionRecord where
  id : SubscriptionId
  connectionId : ConnectionId
  subjectId : SubjectId
  tenantId : TenantId
  topic : Topic
  cursor : Option OpaqueCursor
  generation : Nat
  state : SubscriptionState

/-- A subscription snapshot has the record's own fields. -/
abbrev SubscriptionSnapshot := SubscriptionRecord

structure ConnectionSnapshot where
  id : ConnectionId
  principal : Principal
  state : ConnectionState
  subscriptionCount : Nat

def ConnectionRecord.snapshot (r : ConnectionRecord) : ConnectionSnapshot :=
  ⟨r.id, r.principal, r.state, r.subscriptions.size⟩

/-- The eligible ids of each tenant and topic. -/
abbrev TenantTopics := Table TenantId (Table Topic (SortedSet SubscriptionId))

/-- What the mutex guards. -/
structure RegistryState where
  connections : Table ConnectionId ConnectionRecord
  subscriptions : Table SubscriptionId SubscriptionRecord
  tenantTopics : TenantTopics
  nextSubscriptionGeneration : Nat

def RegistryState.empty : RegistryState := ⟨∅, ∅, ∅, 0⟩

inductive RevocationReason
  | authorizationChanged | membershipChanged | identityRevoked | resourceRemoved

/-- The control output of a revocation, with the message id it was given. -/
structure SubscriptionRevoked where
  id : MessageId
  subscriptionId : SubscriptionId
  reason : RevocationReason

structure ControlIntent where
  connectionId : ConnectionId
  subscriptionId : SubscriptionId
  subscriptionGeneration : Nat
  output : SubscriptionRevoked

/-! ## 2. The topic index -/

/-- An absent tenant or topic has no ids. -/
def TenantTopics.ids (tenantTopics : TenantTopics) (tenant : TenantId) (topic : Topic) :
    SortedSet SubscriptionId :=
  ((tenantTopics.lookup tenant).bind fun topics => topics.lookup topic).getD .empty

/-- `entry(tenant).or_default().entry(topic).or_default().insert(id)`. -/
def insertTopicIndex (tenantTopics : TenantTopics) (tenant : TenantId) (topic : Topic)
    (id : SubscriptionId) : TenantTopics :=
  let topics := (tenantTopics.lookup tenant).getD ∅
  let ids := (topics.lookup topic).getD .empty
  tenantTopics.insert tenant (topics.insert topic (ids.insert id))

/-- The inner half of `remove_topic_index`: one tenant's topics without the id, and without a
topic that has none left. -/
def removeTopic (topics : Table Topic (SortedSet SubscriptionId)) (topic : Topic)
    (id : SubscriptionId) : Table Topic (SortedSet SubscriptionId) :=
  match topics.lookup topic with
  | none => topics
  | some ids =>
    if (ids.erase id).isEmpty then topics.erase topic else topics.insert topic (ids.erase id)

/-- The outer half: without a tenant that has no topic left. -/
def removeTopicIndex (tenantTopics : TenantTopics) (tenant : TenantId) (topic : Topic)
    (id : SubscriptionId) : TenantTopics :=
  match tenantTopics.lookup tenant with
  | none => tenantTopics
  | some topics =>
    if (removeTopic topics topic id).isEmpty then tenantTopics.erase tenant
    else tenantTopics.insert tenant (removeTopic topics topic id)

/-! ## 3. Operations on the locked state -/

namespace RegistryState

/-- An identifier in use is answered with `Unavailable`. -/
def register (config : RegistryConfig) (id : ConnectionId) (principal : Principal)
    (s : RegistryState) : Except RegistryError ConnectionSnapshot × RegistryState :=
  if config.maxConnections ≤ s.connections.size then
    (.error .connectionCapacity, s)
  else if (s.connections.lookup id).isSome then
    (.error .unavailable, s)
  else
    let record : ConnectionRecord := ⟨id, principal, .registered, .empty⟩
    (.ok record.snapshot, { s with connections := s.connections.insert id record })

/-- Idempotent on an active connection. -/
def activate (id : ConnectionId) (s : RegistryState) :
    Except RegistryError ConnectionSnapshot × RegistryState :=
  match s.connections.lookup id with
  | none => (.error .connectionNotFound, s)
  | some connection =>
    match connection.state with
    | .registered =>
      let connection := { connection with state := .active }
      (.ok connection.snapshot, { s with connections := s.connections.insert id connection })
    | .active => (.ok connection.snapshot, s)
    | .closing | .closed => (.error .invalidState, s)

/-- Idempotent on a closing connection. -/
def beginClose (id : ConnectionId) (s : RegistryState) :
    Except RegistryError ConnectionSnapshot × RegistryState :=
  match s.connections.lookup id with
  | none => (.error .connectionNotFound, s)
  | some connection =>
    match connection.state with
    | .registered | .active =>
      let connection := { connection with state := .closing }
      (.ok connection.snapshot, { s with connections := s.connections.insert id connection })
    | .closing => (.ok connection.snapshot, s)
    | .closed => (.error .invalidState, s)

/-- One round of `close`'s loop: the subscription and its index entry go together. -/
def dropSubscription (s : RegistryState) (id : SubscriptionId) : RegistryState :=
  match s.subscriptions.lookup id with
  | none => s
  | some subscription =>
    { s with
      subscriptions := s.subscriptions.erase id
      tenantTopics :=
        removeTopicIndex s.tenantTopics subscription.tenantId subscription.topic subscription.id }

/-- Closing an unknown connection succeeds. -/
def close (id : ConnectionId) (s : RegistryState) :
    Except RegistryError ConnectionState × RegistryState :=
  match s.connections.lookup id with
  | none => (.ok .closed, s)
  | some connection =>
    (.ok .closed,
      connection.subscriptions.elems.foldl dropSubscription
        { s with connections := s.connections.erase id })

/-- The repetition is refused before the capacities, the connection and its tenant are looked at. -/
def addSubscription (config : RegistryConfig) (connectionId : ConnectionId)
    (subscriptionId : SubscriptionId) (tenantId : TenantId) (topic : Topic)
    (cursor : Option OpaqueCursor) (s : RegistryState) :
    Except RegistryError SubscriptionSnapshot × RegistryState :=
  match s.subscriptions.lookup subscriptionId with
  | some existing =>
    if existing.connectionId = connectionId ∧ existing.tenantId = tenantId
        ∧ existing.topic = topic ∧ existing.cursor = cursor then
      (.error .duplicateSubscription, s)
    else
      (.error .subscriptionConflict, s)
  | none =>
    if config.maxSubscriptions ≤ s.subscriptions.size then
      (.error .subscriptionCapacity, s)
    else
      match s.connections.lookup connectionId with
      | none => (.error .connectionNotFound, s)
      | some connection =>
        if connection.state ≠ .active then
          (.error .invalidState, s)
        else if connection.principal.tenantId ≠ some tenantId then
          (.error .tenantMismatch, s)
        else if config.maxSubscriptionsPerConnection ≤ connection.subscriptions.size then
          (.error .perConnectionSubscriptionCapacity, s)
        -- `checked_add(1)` on a `u64`
        else if 2 ^ 64 ≤ s.nextSubscriptionGeneration + 1 then
          (.error .unavailable, s)
        else
          let generation := s.nextSubscriptionGeneration + 1
          let record : SubscriptionRecord :=
            ⟨subscriptionId, connectionId, connection.principal.subjectId, tenantId, topic, cursor,
              generation, .active⟩
          (.ok record,
            { connections := s.connections.insert connectionId
                { connection with
                  subscriptions := connection.subscriptions.insert subscriptionId }
              subscriptions := s.subscriptions.insert subscriptionId record
              tenantTopics := insertTopicIndex s.tenantTopics tenantId topic subscriptionId
              nextSubscriptionGeneration := generation })

/-- The record stays, revoked; the index entry goes. -/
def revokeSubscriptionLocked (subscriptionId : SubscriptionId) (expectedGeneration : Option Nat)
    (reason : RevocationReason) (messageId : MessageId) (s : RegistryState) :
    Except RegistryError ControlIntent × RegistryState :=
  match s.subscriptions.lookup subscriptionId with
  | none => (.error .subscriptionNotFound, s)
  | some subscription =>
    if expectedGeneration.any fun generation => generation ≠ subscription.generation then
      (.error .subscriptionConflict, s)
    else if subscription.state ≠ .active then
      (.error .invalidState, s)
    else
      (.ok ⟨subscription.connectionId, subscriptionId, subscription.generation,
          ⟨messageId, subscriptionId, reason⟩⟩,
        { s with
          subscriptions := s.subscriptions.insert subscriptionId
            { subscription with state := .revoked }
          tenantTopics :=
            removeTopicIndex s.tenantTopics subscription.tenantId subscription.topic
              subscriptionId })

section

variable (connectionId : ConnectionId)

/-- Another connection's subscription is not found. -/
def removeSubscriptionLocked (subscriptionId : SubscriptionId)
    (s : RegistryState) : Except RegistryError SubscriptionSnapshot × RegistryState :=
  match s.subscriptions.lookup subscriptionId with
  | none => (.error .subscriptionNotFound, s)
  | some existing =>
    if existing.connectionId ≠ connectionId then
      (.error .subscriptionNotFound, s)
    else
      let connections := match s.connections.lookup connectionId with
        | none => s.connections
        | some connection => s.connections.insert connectionId
            { connection with subscriptions := connection.subscriptions.erase subscriptionId }
      (.ok { existing with state := .removed },
        { dropSubscription s subscriptionId with connections := connections })

def removeSubscription (subscriptionId : SubscriptionId)
    (s : RegistryState) : Except RegistryError SubscriptionSnapshot × RegistryState :=
  removeSubscriptionLocked connectionId subscriptionId s

/-- Refused when the id was given to a newer subscription. -/
def removeSubscriptionIfCurrent (expected : SubscriptionSnapshot)
    (s : RegistryState) : Except RegistryError SubscriptionSnapshot × RegistryState :=
  match s.subscriptions.lookup expected.id with
  | none => (.error .subscriptionNotFound, s)
  | some current =>
    if current.connectionId ≠ connectionId ∨ expected.connectionId ≠ connectionId then
      (.error .subscriptionNotFound, s)
    else if current.generation ≠ expected.generation then
      (.error .subscriptionConflict, s)
    else
      removeSubscriptionLocked connectionId expected.id s

end

def revokeSubscription (subscriptionId : SubscriptionId) (reason : RevocationReason)
    (messageId : MessageId) (s : RegistryState) :
    Except RegistryError ControlIntent × RegistryState :=
  revokeSubscriptionLocked subscriptionId none reason messageId s

def revokeSubscriptionIfCurrent (expected : SubscriptionSnapshot) (reason : RevocationReason)
    (messageId : MessageId) (s : RegistryState) :
    Except RegistryError ControlIntent × RegistryState :=
  revokeSubscriptionLocked expected.id (some expected.generation) reason messageId s

/-- The generation is the current one, and both it and its connection are active. -/
def isSubscriptionCurrentActive (s : RegistryState) (subscriptionId : SubscriptionId)
    (generation : Nat) : Bool :=
  match s.subscriptions.lookup subscriptionId with
  | none => false
  | some subscription =>
    if subscription.generation ≠ generation ∨ subscription.state ≠ .active then false
    else (s.connections.lookup subscription.connectionId).any fun connection =>
      connection.state = .active

def isSubscriptionCurrentGeneration (s : RegistryState) (subscriptionId : SubscriptionId)
    (generation : Nat) : Bool :=
  (s.subscriptions.lookup subscriptionId).any fun subscription =>
    subscription.generation = generation

end RegistryState

/-! ## 4. The registry -/

structure ConnectionRegistry where
  config : RegistryConfig
  state : RegistryState
  /-- Whether a thread panicked while it held the lock. -/
  poisoned : Bool

def ConnectionRegistry.new (config : RegistryConfig) : ConnectionRegistry :=
  ⟨config, .empty, false⟩

inductive RegistryOp
  | register (id : ConnectionId) (principal : Principal)
  | activate (id : ConnectionId)
  | beginClose (id : ConnectionId)
  | close (id : ConnectionId)
  | addSubscription (connectionId : ConnectionId) (subscriptionId : SubscriptionId)
      (tenantId : TenantId) (topic : Topic) (cursor : Option OpaqueCursor)
  | removeSubscription (connectionId : ConnectionId) (subscriptionId : SubscriptionId)
  | removeSubscriptionIfCurrent (connectionId : ConnectionId) (expected : SubscriptionSnapshot)
  | revokeSubscription (subscriptionId : SubscriptionId) (reason : RevocationReason)
      (messageId : MessageId)
  | revokeSubscriptionIfCurrent (expected : SubscriptionSnapshot) (reason : RevocationReason)
      (messageId : MessageId)

inductive RegistryReply
  | connection (snapshot : ConnectionSnapshot)
  | state (state : ConnectionState)
  | subscription (snapshot : SubscriptionSnapshot)
  | intent (intent : ControlIntent)

/-- The operation in its critical section. -/
def RegistryOp.locked (config : RegistryConfig) (s : RegistryState) :
    RegistryOp → Except RegistryError RegistryReply × RegistryState
  | .register c principal => (s.register config c principal).map (.map .connection) id
  | .activate c => (s.activate c).map (.map .connection) id
  | .beginClose c => (s.beginClose c).map (.map .connection) id
  | .close c => (s.close c).map (.map .state) id
  | .addSubscription c i t p cursor =>
    (s.addSubscription config c i t p cursor).map (.map .subscription) id
  | .removeSubscription c i => (s.removeSubscription c i).map (.map .subscription) id
  | .removeSubscriptionIfCurrent c expected =>
    (s.removeSubscriptionIfCurrent c expected).map (.map .subscription) id
  | .revokeSubscription i reason messageId =>
    (s.revokeSubscription i reason messageId).map (.map .intent) id
  | .revokeSubscriptionIfCurrent expected reason messageId =>
    (s.revokeSubscriptionIfCurrent expected reason messageId).map (.map .intent) id

/-- The operation: its result and the registry it leaves. -/
def ConnectionRegistry.apply (r : ConnectionRegistry) (op : RegistryOp) :
    Except RegistryError RegistryReply × ConnectionRegistry :=
  if r.poisoned then (.error .unavailable, r)
  else ((op.locked r.config r.state).1, { r with state := (op.locked r.config r.state).2 })

end Omnius.Realtime
