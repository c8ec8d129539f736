/-
# What one step of the world can do

A step has four sides: what it does to the hub and the reservations (`Effect`), to the calls in
progress (`TaskMove`), to the receivers (`ReceiverMove`) and to the registry (`RegistryMove`).
`step_move` is the INVERSION of `World.step` on all four, proved once: an invariant over runs is
then a case analysis over the constructors of one side, and no proof after this file looks into an
action again.

The twenty-four actions have fourteen effects on the hub.  Most of them have none.
-/
import Omnius.Realtime.Delivery.Section

namespace Omnius.Realtime.Delivery

open Omnius.Lib List Option World

/-! ## 1. Effects on the hub -/

/-- A message that was neither popped nor dropped by a forced drain. -/
def Fate.Discarded (fate : Fate) : Prop := fate ≠ .forced ∧ ∀ r, fate ≠ .popped r

/-- Every message in `gone` is in `lost`, with a fate that is a discard. -/
structure Lost (gone : List (ConnectionId × StoredMessage))
    (lost : List (ConnectionId × StoredMessage × Fate)) : Prop where
  reported : ∀ x ∈ gone, ∃ fate, (x.1, x.2, fate) ∈ lost
  discarded : ∀ y ∈ lost, y.2.2.Discarded

/-- **What a step does to the hub and the reservations.** -/
inductive Effect (config : DeliveryQueueConfig) (w : World) : Core → Prop
  | stay : Effect config w w.toCore
  | opened {c : ConnectionId} (intake : w.hub.intakeOpen = true)
      (absent : w.hub.queues.lookup c = none) :
      Effect config w
        { w.toCore with hub := { w.hub with queues := w.hub.queues.insert c .new } }
  | reserved {c : ConnectionId} {priority : DeliveryPriority} {bytes : Nat}
      {gone : List (ConnectionId × StoredMessage)}
      {lost : List (ConnectionId × StoredMessage × Fate)} {t h' : HubState} {q : QueueRecord}
      (intake : w.hub.intakeOpen = true) (trim : Trim w.hub gone t) (losses : Lost gone lost)
      (lookup : t.queues.lookup c = some q) (isOpen : q.isOpen = true)
      (edit : Edit t c (some (q.reserved bytes)) h')
      (messages : q.queuedMessages + q.reservedMessages < config.maxMessagesPerConnection)
      (bytesLe : q.queuedBytes + q.reservedBytes + bytes ≤ config.maxBytesPerConnection)
      (totalLe : h'.queuedBytes + h'.reservedBytes ≤ config.maxTotalBytes)
      (accounted : t.Accounted → h'.Accounted) :
      Effect config w
        { w.toCore with
          hub := h'
          reservations := w.reservations.insert w.nextReservation
            ⟨c, priority, bytes, q.reservationEpoch, .held⟩
          nextReservation := w.nextReservation + 1
          removed := lost ++ w.removed }
  | slowed {c : ConnectionId} {gone : List (ConnectionId × StoredMessage)}
      {lost : List (ConnectionId × StoredMessage × Fate)} {t h' : HubState} {q : QueueRecord}
      (intake : w.hub.intakeOpen = true) (trim : Trim w.hub gone t)
      (losses : Lost (gone ++ (q.high ++ q.normal).map fun m => (c, m)) lost)
      (lookup : t.queues.lookup c = some q) (isOpen : q.isOpen = true)
      (edit : Edit t c (some q.slowed) h') (accounted : t.Accounted → h'.Accounted) :
      Effect config w { w.toCore with hub := h', removed := lost ++ w.removed }
  | failed {id : Nat} {r : Reservation} (lookup : w.reservations.lookup id = some r) :
      Effect config w
        { w.toCore with reservations := w.reservations.insert id { r with phase := .failed } }
  | checked {id : Nat} {r : Reservation} {payload : Payload}
      (lookup : w.reservations.lookup id = some r)
      (fits : payload.encoded.length ≤ r.reservedBytes) :
      Effect config w
        { w.toCore with
          reservations := w.reservations.insert id
            { r with phase := .checked (stored id r payload) } }
  | admitted {id : Nat} {r : Reservation} {m : StoredMessage} {o : AdmitOutcome} {t : HubState}
      {lost : List (ConnectionId × StoredMessage × Fate)} {q : QueueRecord}
      (lookup : w.reservations.lookup id = some r) (phase : r.phase = .checked m)
      (admission : Admission w.hub r.connectionId r.reservedBytes r.reservationEpoch m o t q)
      (losses : Lost (o.purged.map fun m => (r.connectionId, m)) lost) :
      Effect config w
        { w.toCore with
          hub := o.state
          reservations := w.reservations.erase id
          admitted := (r.connectionId, (t.stamp m).1) :: w.admitted
          removed := lost ++ w.removed }
  | released {id : Nat} {r : Reservation} (lookup : w.reservations.lookup id = some r) :
      Effect config w
        { w.toCore with
          hub := w.hub.releaseReservationLocked r.connectionId r.reservedBytes r.reservationEpoch
          reservations := w.reservations.erase id }
  | popped {id : Nat} {x : Receiver} {q q' : QueueRecord} {m : StoredMessage} {h' : HubState}
      (receiver : w.receivers.lookup id = some x)
      (lookup : w.hub.queues.lookup x.connectionId = some q) (terminal : q.terminal = none)
      (lookup' : h'.queues.lookup x.connectionId = some q') (front : q.Front m q')
      (trim : Trim w.hub [(x.connectionId, m)] h') :
      Effect config w
        { w.toCore with hub := h', removed := (x.connectionId, m, .popped id) :: w.removed }
  | terminated {c : ConnectionId} {q : QueueRecord} {terminal : DeliveryTerminal}
      (lookup : w.hub.queues.lookup c = some q) (self : q.terminal = some terminal) :
      Effect config w
        { w.toCore with
          hub := { w.hub with
            queues := w.hub.queues.insert c { q with terminal := none, closed := true } } }
  | closed {c : ConnectionId} {q : QueueRecord} {h' : HubState}
      {lost : List (ConnectionId × StoredMessage × Fate)}
      (lookup : w.hub.queues.lookup c = some q) (edit : Edit w.hub c none h')
      (losses : Lost ((q.high ++ q.normal).map fun m => (c, m)) lost)
      (accounted : w.hub.Accounted → h'.Accounted) :
      Effect config w { w.toCore with hub := h', removed := lost ++ w.removed }
  | collected {c : ConnectionId} {q : QueueRecord} (lookup : w.hub.queues.lookup c = some q)
      (closed : q.closed = true) (unreserved : q.reservedMessages = 0) :
      Effect config w
        { w.toCore with hub := { w.hub with queues := w.hub.queues.erase c } }
  | abandoned {id : Nat} {x : Receiver} {q : QueueRecord}
      (receiver : w.receivers.lookup id = some x) (phase : x.phase = .closing [] true)
      (lookup : w.hub.queues.lookup x.connectionId = some q) :
      Effect config w
        { w.toCore with
          hub := { w.hub with
            queues := w.hub.queues.insert x.connectionId { q with receiverOpen := false } } }
  | beganDrain : Effect config w { w.toCore with hub := w.hub.beginDrain }
  | finished {task : Nat} {expired : Bool} {o : FinishOutcome}
      (lookup : w.tasks.lookup task = some (.finishing expired))
      (finish : Finish w.hub expired o) :
      Effect config w
        { w.toCore with hub := o.state, removed := fatedAll .forced o.dropped ++ w.removed }

/-! ## 2. Where a queue comes from -/

/-- **A queue after a step, by what the step made it from.**  Invariants of single queues split on
this. -/
inductive Origin (w : World) (k : Core) (c : ConnectionId) : QueueRecord → Prop
  | opened (intake : w.hub.intakeOpen = true) (absent : w.hub.queues.lookup c = none) :
      Origin w k c .new
  | trimmed {q q' : QueueRecord} (lookup : w.hub.queues.lookup c = some q) (trim : q.Trimmed q') :
      Origin w k c q'
  | reserved {q p : QueueRecord} (bytes : Nat) (intake : w.hub.intakeOpen = true)
      (lookup : w.hub.queues.lookup c = some q) (trim : q.Trimmed p) (isOpen : p.isOpen = true) :
      Origin w k c (p.reserved bytes)
  | slowed {q p : QueueRecord} (intake : w.hub.intakeOpen = true)
      (lookup : w.hub.queues.lookup c = some q) (trim : q.Trimmed p) : Origin w k c p.slowed
  | admitted {id : Nat} {r : Reservation} {m m' : StoredMessage} {q p : QueueRecord}
      (live : w.reservations.lookup id = some r) (connection : r.connectionId = c)
      (phase : r.phase = .checked m) (priority : m'.priority = m.priority)
      (lookup : w.hub.queues.lookup c = some q) (trim : q.Trimmed p) (isOpen : p.isOpen = true)
      (log : k.admitted = (c, m') :: w.admitted) :
      Origin w k c (p.admitted r.reservedBytes r.reservationEpoch m')
  | released {id : Nat} {r : Reservation} {q : QueueRecord}
      (live : w.reservations.lookup id = some r) (connection : r.connectionId = c)
      (lookup : w.hub.queues.lookup c = some q) (epoch : q.reservationEpoch = r.reservationEpoch) :
      Origin w k c (q.released r.reservedBytes)
  | terminated {q : QueueRecord} {terminal : DeliveryTerminal}
      (lookup : w.hub.queues.lookup c = some q) (self : q.terminal = some terminal) :
      Origin w k c { q with terminal := none, closed := true }
  | abandoned {id : Nat} {x : Receiver} {q : QueueRecord}
      (receiver : w.receivers.lookup id = some x) (phase : x.phase = .closing [] true)
      (connection : x.connectionId = c) (lookup : w.hub.queues.lookup c = some q) :
      Origin w k c { q with receiverOpen := false }
  | finished {task : Nat} {expired : Bool} {q : QueueRecord}
      (drain : w.tasks.lookup task = some (.finishing expired))
      (lookup : w.hub.queues.lookup c = some q) : Origin w k c (q.finished expired)

theorem stamp_priority (s : HubState) (m : StoredMessage) :
    (s.stamp m).1.priority = m.priority := by
  unfold HubState.stamp
  split <;> rfl

theorem beginDrain_queues (s : HubState) : s.beginDrain.queues = s.queues := by
  unfold HubState.beginDrain
  split <;> rfl

/-- Every queue after a step comes from one of the listed origins. -/
theorem Effect.origin {config : DeliveryQueueConfig} {w : World} {k : Core} {c : ConnectionId}
    {q' : QueueRecord} (he : Effect config w k) (hq' : k.hub.queues.lookup c = some q') :
    Origin w k c q' := by
  cases he with
  | stay | failed | checked => exact .trimmed hq' (.refl _)
  | opened hint habs =>
    rcases Table.lookup_insert_iff.mp hq' with ⟨rfl, rfl⟩ | ⟨-, hold⟩
    · exact .opened hint habs
    · exact .trimmed hold (.refl _)
  | reserved hint htrim _ hq hopen hedit =>
    rcases hedit.source rfl htrim hq hq' with ⟨rfl, rfl, p, hp, htp⟩ | ⟨-, p, hp, htp⟩
    · exact .reserved _ hint hp htp hopen
    · exact .trimmed hp htp
  | slowed hint htrim _ hq _ hedit =>
    rcases hedit.source rfl htrim hq hq' with ⟨rfl, rfl, p, hp, htp⟩ | ⟨-, p, hp, htp⟩
    · exact .slowed hint hp htp
    · exact .trimmed hp htp
  | admitted hr hph hadm =>
    rcases hadm.source hq' with ⟨rfl, rfl, p, hp, htp⟩ | ⟨-, p, hp, htp⟩
    · exact .admitted hr rfl hph (stamp_priority _ _) hp htp hadm.isOpen rfl
    · exact .trimmed hp htp
  | released hr =>
    rcases releaseReservationLocked_source hq' with ⟨hold, -⟩ | ⟨rfl, q, hq, hep, rfl⟩
    · exact .trimmed hold (.refl _)
    · exact .released hr rfl hq hep
  | popped _ _ _ _ _ htrim =>
    obtain ⟨p, hp, htp, -⟩ := htrim.source hq'
    exact .trimmed hp htp
  | terminated hq hself =>
    rcases Table.lookup_insert_iff.mp hq' with ⟨rfl, rfl⟩ | ⟨-, hold⟩
    · exact .terminated hq hself
    · exact .trimmed hold (.refl _)
  | closed _ hedit =>
    rcases hedit.cases hq' with ⟨-, hnew⟩ | ⟨-, hold⟩
    · cases hnew
    · exact .trimmed hold (.refl _)
  | collected => exact .trimmed (Table.lookup_erase_iff.mp hq').2 (.refl _)
  | abandoned hx hph hq =>
    rcases Table.lookup_insert_iff.mp hq' with ⟨rfl, rfl⟩ | ⟨-, hold⟩
    · exact .abandoned hx hph rfl hq
    · exact .trimmed hold (.refl _)
  | beganDrain =>
    simp only [beginDrain_queues] at hq'
    exact .trimmed hq' (.refl _)
  | finished htask hfsh =>
    simp only [hfsh.lookup, map_eq_some_iff] at hq'
    obtain ⟨q, hq, rfl⟩ := hq'
    exact .finished htask hq

/-! ## 3. Moves of calls, receivers and the registry -/

/-- A call that belongs to no drain. -/
def Task.isPlain : Task → Bool
  | .opening _ | .reserving .. | .calling _ none => true
  | .calling _ (some _) | .draining | .finishing _ => false

/-- **What a step does to the calls in progress.** -/
inductive TaskMove (w w' : World) : Prop
  | kept (tasks : w'.tasks = w.tasks) (returned : w'.returned = w.returned)
  | spawned {t : Task} (kind : t.isPlain = true)
      (tasks : w'.tasks = w.tasks.insert w.nextId t) (nextId : w'.nextId = w.nextId + 1)
      (returned : w'.returned = w.returned)
  | drainSpawned {t : Task} (kind : t = .draining ∨ t = .finishing true)
      (tasks : w'.tasks = w.tasks.insert w.nextId t) (nextId : w'.nextId = w.nextId + 1)
      (hub : w'.hub = w.hub.beginDrain) (returned : w'.returned = w.returned)
  | ended {id : Nat} {t : Task} (lookup : w.tasks.lookup id = some t) (kind : t.isPlain = true)
      (tasks : w'.tasks = w.tasks.erase id) (returned : w'.returned = w.returned)
  | slowed {id : Nat} {t : Task} {todo : List RegistryOp} (lookup : w.tasks.lookup id = some t)
      (kind : t.isPlain = true) (tasks : w'.tasks = w.tasks.insert id (.calling todo none))
      (returned : w'.returned = w.returned)
  | called {id : Nat} {op : RegistryOp} {todo : List RegistryOp}
      {outcome : Option DeliveryDrainOutcome}
      (lookup : w.tasks.lookup id = some (.calling (op :: todo) outcome))
      (tasks : w'.tasks = w.tasks.insert id (.calling todo outcome))
      (returned : w'.returned = w.returned)
  | returned {id : Nat} {o : DeliveryDrainOutcome}
      (lookup : w.tasks.lookup id = some (.calling [] (some o)))
      (tasks : w'.tasks = w.tasks.erase id) (returned : w'.returned = o :: w.returned)
  | drained {id : Nat} (lookup : w.tasks.lookup id = some .draining)
      (messages : w.hub.queuedMessages = 0) (reserved : w.hub.reservedMessages = 0)
      (hub : w'.hub = w.hub) (tasks : w'.tasks = w.tasks.insert id (.finishing false))
      (returned : w'.returned = w.returned)
  | timedOut {id : Nat} (lookup : w.tasks.lookup id = some .draining) (hub : w'.hub = w.hub)
      (tasks : w'.tasks = w.tasks.insert id (.finishing true)) (returned : w'.returned = w.returned)
  | finished {id : Nat} {todo : List RegistryOp} {o : DeliveryDrainOutcome}
      (lookup : w.tasks.lookup id = some (.finishing o.deadlineExpired))
      (tasks : w'.tasks = w.tasks.insert id (.calling todo (some o)))
      (returned : w'.returned = w.returned)

/-- A drain has run out of time, or was forced, and has yet to return. -/
def World.Expired (w : World) : Prop :=
  ∃ id todo o, w.tasks.lookup id = some (.calling todo (some o)) ∧ o.deadlineExpired = true

/-- `lost` was taken by no receiver, and dropped by no drain but an expired one. -/
def Dropped (w : World) (lost : List (ConnectionId × StoredMessage × Fate)) : Prop :=
  ∀ y ∈ lost, (∀ r, y.2.2 ≠ .popped r) ∧ (y.2.2 = .forced → w.Expired)

/-- **What a step does to the receivers**, to what they have taken and to what they have handed
out. -/
inductive ReceiverMove (w w' : World) : Prop
  | kept {lost : List (ConnectionId × StoredMessage × Fate)}
      (receivers : w'.receivers = w.receivers) (yielded : w'.yielded = w.yielded)
      (removed : w'.removed = lost ++ w.removed) (losses : Dropped w' lost)
  | opened {c : ConnectionId}
      (receivers : w'.receivers = w.receivers.insert w.nextId ⟨c, true, .idle⟩)
      (nextId : w'.nextId = w.nextId + 1) (yielded : w'.yielded = w.yielded)
      (removed : w'.removed = w.removed)
  /-- The phase changes, and no message is taken or handed out. -/
  | turned {id : Nat} {x : Receiver} {p : ReceiverPhase} (lookup : w.receivers.lookup id = some x)
      (unpopped : ∀ m, p ≠ .popped m)
      (closing : ∀ todo dropping, p = .closing todo dropping →
        x.isOpen = false ∨ ∃ todo', x.phase = .closing todo' dropping)
      (receivers : w'.receivers = w.receivers.insert id { x with phase := p })
      (yielded : w'.yielded = w.yielded ∨
        ∃ t, w'.yielded = (id, x.connectionId, .terminal t) :: w.yielded)
      (removed : w'.removed = w.removed)
  /-- The receiver is no longer open, and its queue is closed or gone. -/
  | shut {id : Nat} {x : Receiver} {p : ReceiverPhase}
      {lost : List (ConnectionId × StoredMessage × Fate)} (lookup : w.receivers.lookup id = some x)
      (unpopped : ∀ m, p ≠ .popped m)
      (queue : ∀ q, w'.hub.queues.lookup x.connectionId = some q → q.closed = true)
      (receivers : w'.receivers = w.receivers.insert id { x with isOpen := false, phase := p })
      (yielded : w'.yielded = w.yielded) (removed : w'.removed = lost ++ w.removed)
      (losses : Dropped w' lost)
  | took {id : Nat} {x : Receiver} {m : StoredMessage} (lookup : w.receivers.lookup id = some x)
      (phase : x.phase = .idle ∨ x.phase = .polling)
      (receivers : w'.receivers = w.receivers.insert id { x with phase := .popped m })
      (yielded : w'.yielded = w.yielded)
      (removed : w'.removed = (x.connectionId, m, .popped id) :: w.removed)
  /-- A message without a generation is handed out at once. -/
  | handed {id : Nat} {x : Receiver} {m : StoredMessage} (lookup : w.receivers.lookup id = some x)
      (phase : x.phase = .idle ∨ x.phase = .polling) (generation : m.generation = none)
      (receivers : w'.receivers = w.receivers.insert id { x with phase := .idle })
      (yielded : w'.yielded = (id, x.connectionId, .message m) :: w.yielded)
      (removed : w'.removed = (x.connectionId, m, .popped id) :: w.removed)
  /-- A message with a generation is handed out after the registry has been asked. -/
  | yielded {id : Nat} {x : Receiver} {m : StoredMessage} {generation : Generation}
      (lookup : w.receivers.lookup id = some x) (phase : x.phase = .popped m)
      (self : m.generation = some generation)
      (current : generationIsCurrent w.registry m.priority generation = .ok true)
      (receivers : w'.receivers = w.receivers.insert id { x with phase := .idle })
      (yielded : w'.yielded = (id, x.connectionId, .message m) :: w.yielded)
      (removed : w'.removed = w.removed)
  | dropped {id : Nat} {x : Receiver} (lookup : w.receivers.lookup id = some x)
      (phase : x.phase = .closing [] true) (receivers : w'.receivers = w.receivers.erase id)
      (yielded : w'.yielded = w.yielded) (removed : w'.removed = w.removed)

/-- **What a step does to the registry.** -/
inductive RegistryMove (w w' : World) : Prop
  | kept (registry : w'.registry = w.registry)
  | applied {op : RegistryOp} (registry : w'.registry = (w.registry.apply op).2)
  | poisoned (registry : w'.registry = { w.registry with poisoned := true })

/-- **What a step does.** -/
structure StepMove (config : DeliveryQueueConfig) (w w' : World) : Prop where
  effect : Effect config w w'.toCore
  tasks : TaskMove w w'
  receivers : ReceiverMove w w'
  registry : RegistryMove w w'
  nextId : w.nextId ≤ w'.nextId

section

variable {config : DeliveryQueueConfig} {w w' : World} {c : ConnectionId} {id task : Nat}

theorem dropped_nil (w : World) : Dropped w [] := nofun

theorem ReceiverMove.same (hrecv : w'.receivers = w.receivers)
    (hyl : w'.yielded = w.yielded) (hrem : w'.removed = w.removed) : ReceiverMove w w' :=
  @ReceiverMove.kept w w' [] hrecv hyl hrem (dropped_nil w')

theorem Lost.dropped {gone : List (ConnectionId × StoredMessage)}
    {lost : List (ConnectionId × StoredMessage × Fate)} (h : Lost gone lost) (w : World) :
    Dropped w lost :=
  fun y hy => ⟨(h.discarded y hy).2, fun hforced => absurd hforced (h.discarded y hy).1⟩

/-- Messages discarded with one fate are lost. -/
theorem lost_fated (fate : Fate) (h : fate.Discarded) (c : ConnectionId) (l : List StoredMessage) :
    Lost (l.map fun m => (c, m)) (fated c fate l) where
  reported := by
    intro x hx
    obtain ⟨m, hm, rfl⟩ := mem_map.mp hx
    exact ⟨fate, mem_map.mpr ⟨m, hm, rfl⟩⟩
  discarded := by
    intro y hy
    obtain ⟨m, -, rfl⟩ := mem_map.mp hy
    exact h

theorem lost_fatedAll (fate : Fate) (h : fate.Discarded) (l : List (ConnectionId × StoredMessage)) :
    Lost l (fatedAll fate l) where
  reported := fun x hx => ⟨fate, mem_map.mpr ⟨x, hx, rfl⟩⟩
  discarded := by
    intro y hy
    obtain ⟨m, -, rfl⟩ := mem_map.mp hy
    exact h

theorem Lost.append {gone gone' : List (ConnectionId × StoredMessage)}
    {lost lost' : List (ConnectionId × StoredMessage × Fate)} (h : Lost gone lost)
    (h' : Lost gone' lost') : Lost (gone ++ gone') (lost' ++ lost) where
  reported := by
    intro x hx
    rcases mem_append.mp hx with hx | hx
    · obtain ⟨fate, hf⟩ := h.reported x hx
      exact ⟨fate, mem_append_right _ hf⟩
    · obtain ⟨fate, hf⟩ := h'.reported x hx
      exact ⟨fate, mem_append_left _ hf⟩
  discarded := by
    exact forall_mem_append.mpr ⟨h'.discarded, h.discarded⟩

/-! ## 4. The actions, one by one -/

/-- Opening a queue. -/
theorem move_openLock (h : w.openLock task = some w') : StepMove config w w' := by
  unfold openLock at h
  split at h
  · rename_i c htask
    rcases openConnection_cases w.hub w.registry.config.maxConnections c with
      ⟨e, he⟩ | ⟨hint, habs, hok⟩
    · simp only [he, some.injEq] at h
      subst h
      exact ⟨.stay, .ended htask rfl rfl rfl, .same rfl rfl rfl, .kept rfl, le_rfl⟩
    · simp only [hok, some.injEq] at h
      subst h
      exact ⟨.opened hint habs, .ended htask rfl rfl rfl, .opened rfl rfl rfl rfl,
        .kept rfl, Nat.le_succ _⟩
  · cases h

/-- A reservation evicts first, and may still be refused. -/
theorem move_reserveLock (h : w.reserveLock config task = some w') : StepMove config w w' := by
  unfold reserveLock at h
  split at h
  · rename_i c priority bytes purge htask
    have hslow : Fate.slow.Discarded := ⟨by simp, by simp⟩
    have hprio : Fate.priorityPurged.Discarded := ⟨by simp, by simp⟩
    have hpurge : Fate.revocationPurged.Discarded := ⟨by simp, by simp⟩
    rcases reserveAddressed_cases w.hub config c priority bytes purge with
      ⟨e, he⟩ | ⟨hint, t, q, htrim, hq, hopen, hslot⟩
    · simp only [he, Bool.false_eq_true, if_false, some.injEq] at h
      subst h
      exact ⟨.stay, .ended htask rfl rfl rfl, .same rfl rfl rfl, .kept rfl, le_rfl⟩
    · generalize w.hub.reserveAddressed config c priority bytes purge = o at h htrim hslot
      have hlost := (lost_fated .revocationPurged hpurge c o.purged).append
        (lost_fatedAll .priorityPurged hprio o.evicted)
      cases hslot with
      | slow hrsl hbecame hcleared hedit hacc =>
        simp only [hrsl, hbecame, if_true, some.injEq] at h
        subst h
        have hlost' := hlost.append (lost_fated .slow hslow c o.cleared)
        rw [hcleared] at hlost' ⊢
        rw [← append_assoc] at hlost'
        exact ⟨.slowed hint htrim hlost' hq hopen hedit hacc, .slowed htask rfl rfl rfl,
          .kept rfl rfl rfl (hlost'.dropped _), .kept rfl, le_rfl⟩
      | ok hrsl hcleared hedit hm hb ht hacc =>
        simp only [hrsl, hcleared, some.injEq] at h
        subst h
        exact ⟨.reserved hint htrim hlost hq hopen hedit hm hb ht hacc,
          .ended htask rfl rfl rfl, .kept rfl rfl rfl (hlost.dropped _), .kept rfl, le_rfl⟩
  · cases h

/-- The generation is looked up outside the lock of the hub. -/
theorem move_admitCheck {payload : Payload} (h : w.admitCheck id payload = some w') :
    StepMove config w w' := by
  unfold admitCheck at h
  split at h
  · rename_i r hr
    split at h
    · split at h
      · cases h
        exact ⟨.failed hr, .kept rfl rfl, .same rfl rfl rfl, .kept rfl, le_rfl⟩
      rename_i hfits
      have hle := Nat.le_of_not_lt hfits
      split at h
      · cases h
        exact ⟨.checked hr hle, .kept rfl rfl, .same rfl rfl rfl, .kept rfl, le_rfl⟩
      split at h
      · cases h
        exact ⟨.checked hr hle, .kept rfl rfl, .same rfl rfl rfl, .kept rfl, le_rfl⟩
      · cases h
        exact ⟨.failed hr, .kept rfl rfl, .same rfl rfl rfl, .kept rfl, le_rfl⟩
    · cases h
  · cases h

/-- Admission under the lock: the message is queued, or refused. -/
theorem move_admitLock (h : w.admitLock id = some w') : StepMove config w w' := by
  unfold admitLock at h
  split at h
  · rename_i r hr
    split at h
    · rename_i m hph
      rcases admitStored_cases w.hub r.connectionId r.reservedBytes r.reservationEpoch m with
        ⟨e, he⟩ | ⟨t, q, hadm⟩
      · simp only [he, Bool.false_eq_true, if_false, some.injEq] at h
        subst h
        exact ⟨.failed hr, .kept rfl rfl, .same rfl rfl rfl, .kept rfl, le_rfl⟩
      · have hlost := lost_fated .revocationPurged ⟨by simp, by simp⟩ r.connectionId
          (w.hub.admitStored r.connectionId r.reservedBytes r.reservationEpoch m).purged
        simp only [hadm.result, some.injEq] at h
        subst h
        exact ⟨.admitted hr hph hadm hlost, .kept rfl rfl, .kept rfl rfl rfl (hlost.dropped _),
          .kept rfl, le_rfl⟩
    · cases h
  · cases h

/-- A reservation that is dropped gives its room back. -/
theorem move_release (h : w.release id = some w') : StepMove config w w' := by
  unfold release at h
  split at h
  · rename_i r hr
    split at h
    · cases h
    · cases h
      exact ⟨.released hr, .kept rfl rfl, .same rfl rfl rfl, .kept rfl, le_rfl⟩
  · cases h

/-- Each deque of the hub holds messages of its own priority. -/
def HubState.Typed (s : HubState) : Prop := ∀ c q, s.queues.lookup c = some q → q.Typed

/-- A poll pops a message, hands out the terminal, or finds nothing. -/
theorem move_pollSection {x : Receiver} (hty : w.hub.Typed)
    (hx : w.receivers.lookup id = some x) (hph : x.phase = .idle ∨ x.phase = .polling) :
    StepMove config w (w.pollSection id x) := by
  have hpoll := pollRecv_polled (hty x.connectionId)
  unfold pollSection
  generalize w.hub.pollRecv x.connectionId = o at hpoll
  cases hpoll with
  | missing habs =>
    refine ⟨.stay, .kept rfl rfl,
      @ReceiverMove.shut _ _ _ _ _ [] hx ?_ ?_ rfl rfl rfl (dropped_nil _), .kept rfl, le_rfl⟩
    · simp
    · intro q hq
      rw [show w.hub.queues.lookup x.connectionId = some q from hq] at habs
      cases habs
  | terminal hq ht =>
    exact ⟨.terminated hq ht, .kept rfl rfl,
      .turned hx (by simp) (by simp) rfl (.inr ⟨_, rfl⟩) rfl, .kept rfl, le_rfl⟩
  | message hq ht hq' hfront htrim =>
    simp only
    split
    · rename_i hgen
      exact ⟨.popped hx hq ht hq' hfront htrim, .kept rfl rfl, .handed hx hph hgen rfl rfl rfl,
        .kept rfl, le_rfl⟩
    · exact ⟨.popped hx hq ht hq' hfront htrim, .kept rfl rfl, .took hx hph rfl rfl rfl,
        .kept rfl, le_rfl⟩
  | idle hq hh hn =>
    rename_i q
    by_cases hcl : q.closed = true
    · rw [if_pos hcl]
      refine ⟨.stay, .kept rfl rfl,
        @ReceiverMove.shut _ _ _ _ _ [] hx ?_ ?_ rfl rfl rfl (dropped_nil _), .kept rfl, le_rfl⟩
      · simp
      · intro p hp
        rw [show w.hub.queues.lookup x.connectionId = some p from hp, some.injEq] at hq
        exact hq ▸ hcl
    · rw [if_neg hcl]
      exact ⟨.stay, .kept rfl rfl, .turned hx (by simp) (by simp) rfl (.inl rfl) rfl,
        .kept rfl, le_rfl⟩

theorem move_pollLock (hty : w.hub.Typed) (h : w.pollLock id = some w') :
    StepMove config w w' := by
  unfold pollLock at h
  split at h
  · rename_i x hx
    split at h
    · rename_i hph
      cases h
      exact move_pollSection hty hx (.inl hph)
    · rename_i hph
      cases h
      exact move_pollSection hty hx (.inr hph)
    · cases h
  · cases h

/-- The popped message is handed out, or dropped as revoked. -/
theorem move_pollCheck (h : w.pollCheck id = some w') : StepMove config w w' := by
  unfold pollCheck at h
  split at h
  · rename_i x hx
    split at h
    · rename_i m hph
      split at h
      · cases h
      rename_i generation hgen
      split at h
      · rename_i hcur
        cases h
        exact ⟨.stay, .kept rfl rfl, .yielded hx hph hgen hcur rfl rfl rfl, .kept rfl, le_rfl⟩
      · cases h
        exact ⟨.stay, .kept rfl rfl, .turned hx (by simp) (by simp) rfl (.inl rfl) rfl,
          .kept rfl, le_rfl⟩
      · cases h
        exact ⟨.stay, .kept rfl rfl, .turned hx (by simp) (by simp) rfl (.inl rfl) rfl,
          .kept rfl, le_rfl⟩
    · cases h
  · cases h

/-- Closing a connection drops its queue with all messages. -/
theorem effect_close (w : World) (c : ConnectionId) :
    Effect config w
      { w.toCore with
        hub := (w.hub.closeConnection c).1
        removed := fated c .closed (w.hub.closeConnection c).2.1 ++ w.removed } := by
  cases hq : w.hub.queues.lookup c with
  | none =>
    rw [closeConnection_none hq]
    exact .stay
  | some q =>
    obtain ⟨hedit, hgone, hacc⟩ := closeConnection_some hq
    rw [hgone]
    exact .closed hq hedit (lost_fated .closed ⟨by simp, by simp⟩ _ _) hacc

theorem lookup_closeConnection (s : HubState) (c : ConnectionId) :
    (s.closeConnection c).1.queues.lookup c = none := by
  cases hq : s.queues.lookup c with
  | none =>
    rw [closeConnection_none hq]
    exact hq
  | some q => exact (closeConnection_some hq).1.self

theorem move_closeSection {x : Receiver} {dropping : Bool} (hx : w.receivers.lookup id = some x) :
    StepMove config w (w.closeSection id x dropping) := by
  have hlost := lost_fated .closed ⟨by simp, by simp⟩ x.connectionId
    (w.hub.closeConnection x.connectionId).2.1
  refine ⟨effect_close w _, .kept rfl rfl, .shut hx (by simp) ?_ rfl rfl rfl (hlost.dropped _),
    .kept rfl, le_rfl⟩
  intro q hq
  have hnone := lookup_closeConnection w.hub x.connectionId
  rw [show (w.hub.closeConnection x.connectionId).1.queues.lookup x.connectionId = some q
    from hq] at hnone
  cases hnone

theorem move_dropLock (h : w.dropLock id = some w') : StepMove config w w' := by
  unfold dropLock at h
  split at h
  · rename_i x hx
    split at h
    · split at h
      · cases h
        exact move_closeSection hx
      rename_i hopen
      cases h
      refine ⟨.stay, .kept rfl rfl, .turned hx (by simp) ?_ rfl (.inl rfl) rfl, .kept rfl, le_rfl⟩
      intro _ _ _
      exact .inl (by simpa using hopen)
    · cases h
  · cases h

theorem move_receiverCall (h : w.receiverCall id = some w') : StepMove config w w' := by
  unfold receiverCall at h
  split at h
  · rename_i x hx
    split at h
    · rename_i op todo dropping hph
      cases h
      refine ⟨.stay, .kept rfl rfl, .turned hx ?_ ?_ rfl (.inl rfl) rfl, .applied rfl, le_rfl⟩
      · intro m
        split <;> simp
      · intro todo' dropping' hp
        split at hp
        · cases hp
        · rw [ReceiverPhase.closing.injEq] at hp
          exact .inr ⟨_, hp.2 ▸ hph⟩
    · cases h
  · cases h

theorem move_dropEnd (h : w.dropEnd id = some w') : StepMove config w w' := by
  unfold dropEnd at h
  split at h
  · rename_i x hx
    split at h
    · rename_i hph
      cases h
      refine ⟨?_, .kept rfl rfl, .dropped hx hph rfl rfl rfl, .kept rfl, le_rfl⟩
      rcases closeReceiver_cases w.hub x.connectionId with
        ⟨-, hsame⟩ | ⟨q, hq, ⟨hcl, hzero, hgone⟩ | hflag⟩
      · rw [hsame]
        exact .stay
      · rw [hgone]
        exact .collected hq hcl hzero
      · rw [hflag]
        exact .abandoned hx hph hq
    · cases h
  · cases h

theorem move_taskReturn (h : w.taskReturn task = some w') : StepMove config w w' := by
  unfold taskReturn at h
  split at h
  · rename_i outcome htask
    cases h
    refine ⟨.stay, ?_, .same rfl rfl rfl, .kept rfl, le_rfl⟩
    cases outcome with
    | none => exact .ended htask rfl rfl rfl
    | some o => exact .returned htask rfl rfl
  · cases h

/-- A drain looks whether the hub is empty. -/
theorem move_drainCheck (h : w.drainCheck task = some w') : StepMove config w w' := by
  unfold drainCheck at h
  split at h
  · rename_i htask
    split at h
    · rename_i hzero
      cases h
      exact ⟨.stay, .drained htask hzero.1 hzero.2 rfl rfl rfl, .same rfl rfl rfl,
        .kept rfl, le_rfl⟩
    · cases h
      exact ⟨.stay, .kept rfl rfl, .same rfl rfl rfl, .kept rfl, le_rfl⟩
  · cases h

/-- The last section of a drain, for every queue at once. -/
theorem move_finishLock {order : List ConnectionId} (h : w.finishLock task order = some w') :
    StepMove config w w' := by
  unfold finishLock at h
  split at h
  · rename_i expired htask
    split at h
    · rename_i hord
      cases h
      have hfsh := finishDrain_finish hord expired
      refine ⟨.finished htask hfsh, .finished htask rfl rfl, .kept rfl rfl rfl ?_, .kept rfl,
        le_rfl⟩
      intro y hy
      obtain ⟨m, hm, rfl⟩ := mem_map.mp hy
      refine ⟨by simp, ?_⟩
      intro _
      -- a drain that drops something has expired
      cases expired with
      | true => exact ⟨task, _, _, AList.lookup_insert _, rfl⟩
      | false =>
        cases hm
    · cases h
  · cases h

/-- **Inversion of a step.** -/
theorem step_move (hty : w.hub.Typed) {a : Action} (h : World.step config w a = some w') :
    StepMove config w w' := by
  cases a with
  | registry op =>
    cases h
    exact ⟨.stay, .kept rfl rfl, .same rfl rfl rfl, .applied rfl, le_rfl⟩
  | poison =>
    cases h
    exact ⟨.stay, .kept rfl rfl, .same rfl rfl rfl, .poisoned rfl, le_rfl⟩
  | openCheck c =>
    simp only [World.step, openCheck] at h
    split at h
    · cases h
      exact ⟨.stay, .spawned rfl rfl rfl rfl, .same rfl rfl rfl, .kept rfl, Nat.le_succ _⟩
    · cases h
  | openLock task => exact move_openLock h
  | reserveCheck c priority bytes purge =>
    simp only [World.step, reserveCheck] at h
    split at h
    · cases h
    split at h
    · cases h
      exact ⟨.stay, .spawned rfl rfl rfl rfl, .same rfl rfl rfl, .kept rfl, Nat.le_succ _⟩
    · cases h
  | reserveLock task => exact move_reserveLock h
  | admitCheck id payload => exact move_admitCheck h
  | admitLock id => exact move_admitLock h
  | release id => exact move_release h
  | pollLock id => exact move_pollLock hty h
  | pollCheck id => exact move_pollCheck h
  | abortLock id =>
    simp only [World.step, abortLock] at h
    split at h
    · rename_i x hx
      split at h
      · cases h
        exact move_closeSection hx
      · cases h
    · cases h
  | dropLock id => exact move_dropLock h
  | receiverCall id => exact move_receiverCall h
  | dropEnd id => exact move_dropEnd h
  | closeLock c =>
    cases h
    have hlost := lost_fated .closed ⟨by simp, by simp⟩ c (w.hub.closeConnection c).2.1
    exact ⟨effect_close w c, .spawned rfl rfl rfl rfl, .kept rfl rfl rfl (hlost.dropped _),
      .kept rfl, Nat.le_succ _⟩
  | taskCall task =>
    simp only [World.step, taskCall] at h
    split at h
    · rename_i htask
      cases h
      exact ⟨.stay, .called htask rfl rfl, .same rfl rfl rfl, .applied rfl, le_rfl⟩
    · cases h
  | taskReturn task => exact move_taskReturn h
  | beginDrain =>
    cases h
    exact ⟨.beganDrain, .kept rfl rfl, .same rfl rfl rfl, .kept rfl, le_rfl⟩
  | drainStart =>
    cases h
    exact ⟨.beganDrain, .drainSpawned (.inl rfl) rfl rfl rfl rfl, .same rfl rfl rfl,
      .kept rfl, Nat.le_succ _⟩
  | drainCheck task => exact move_drainCheck h
  | drainTimeout task =>
    simp only [World.step, drainTimeout] at h
    split at h
    · rename_i htask
      cases h
      exact ⟨.stay, .timedOut htask rfl rfl rfl, .same rfl rfl rfl, .kept rfl, le_rfl⟩
    · cases h
  | finishLock task order => exact move_finishLock h
  | forceClose =>
    cases h
    exact ⟨.beganDrain, .drainSpawned (.inr rfl) rfl rfl rfl rfl, .same rfl rfl rfl,
      .kept rfl, Nat.le_succ _⟩

end

end Omnius.Realtime.Delivery
