/-
# What each section can do

One lemma per section of the hub, each saying EVERYTHING the section can do: which queues it
changes and how, which messages leave, and that the books stay in order.  Proofs about runs cite
these and never open a section again.

A section touches at most one queue besides trimming, so the common form is `Edit`: one queue
becomes another record, or goes, and every other queue stays.  `finish_drain` is the exception; it
changes every queue in the same way, and `finishDrain_finish` says how.
-/
import Omnius.Realtime.Delivery.Account

namespace Omnius.Realtime.Delivery

open Omnius.Lib List Option AList HubState

/-! ## 1. Editing one queue -/

/-- `s'` is `s` with the queue of `c` replaced, or removed. -/
structure Edit (s : HubState) (c : ConnectionId) (q' : Option QueueRecord) (s' : HubState) :
    Prop where
  intakeOpen : s'.intakeOpen = s.intakeOpen
  draining : s'.draining = s.draining
  nextNormalSequence : s'.nextNormalSequence = s.nextNormalSequence
  self : s'.queues.lookup c = q'
  other : ∀ d, d ≠ c → s'.queues.lookup d = s.queues.lookup d

section

variable {s s' t : HubState} {c d : ConnectionId} {q p : QueueRecord} {r : Option QueueRecord}

/-- A queue after an edit is the new one or an untouched one. -/
theorem Edit.cases (h : Edit s c r s') (hp : s'.queues.lookup d = some p) :
    (d = c ∧ r = some p) ∨ (d ≠ c ∧ s.queues.lookup d = some p) := by
  by_cases hd : d = c
  · subst hd
    exact .inl ⟨rfl, h.self.symm.trans hp⟩
  · exact .inr ⟨hd, (h.other d hd).symm.trans hp⟩

theorem Edit.passed (h : Edit s c r s') (hp : s.queues.lookup c = some p)
    (hq : s.queues.lookup d = some q) : (d = c ∧ q = p) ∨ s'.queues.lookup d = some q := by
  by_cases hd : d = c
  · subst hd
    exact .inl ⟨rfl, Option.some.inj (hq.symm.trans hp)⟩
  · exact .inr ((h.other d hd).trans hq)

theorem Edit.source {gone : List (ConnectionId × StoredMessage)} {t' : HubState} {q₁ : QueueRecord}
    (h : Edit t' c (some q₁) s') (hs : t'.queues = t.queues) (ht : Trim s gone t)
    (hq : t.queues.lookup c = some q) (hp : s'.queues.lookup d = some p) :
    (d = c ∧ p = q₁ ∧ ∃ o, s.queues.lookup d = some o ∧ o.Trimmed q) ∨
      (d ≠ c ∧ ∃ o, s.queues.lookup d = some o ∧ o.Trimmed p) := by
  rcases h.cases hp with ⟨rfl, hnew⟩ | ⟨hne, hold⟩
  · obtain ⟨o, ho, hto, -⟩ := ht.source hq
    exact .inl ⟨rfl, (Option.some.inj hnew).symm, o, ho, hto⟩
  · rw [hs] at hold
    obtain ⟨o, ho, hto, -⟩ := ht.source hold
    exact .inr ⟨hne, o, ho, hto⟩

theorem edit_insert (s : HubState) (c : ConnectionId) (q : QueueRecord) :
    Edit s c (some q) { s with queues := s.queues.insert c q } :=
  ⟨rfl, rfl, rfl, lookup_insert _, fun _ hd => lookup_insert_ne hd⟩

theorem edit_erase (s : HubState) (c : ConnectionId) :
    Edit s c none { s with queues := s.queues.erase c } :=
  ⟨rfl, rfl, rfl, lookup_erase _ _, fun _ hd => lookup_erase_ne hd⟩

theorem Edit.trans {r' : Option QueueRecord} (h : Edit s c r t) (h' : Edit t c r' s') :
    Edit s c r' s' :=
  ⟨h'.intakeOpen.trans h.intakeOpen, h'.draining.trans h.draining,
    h'.nextNormalSequence.trans h.nextNormalSequence, h'.self,
    fun d hd => (h'.other d hd).trans (h.other d hd)⟩

section

variable (hq : s.queues.lookup c = some q)

include hq

theorem edit_clearQueueLocked :
    Edit s c (some q.cleared) (s.clearQueueLocked c).1 ∧
      (s.clearQueueLocked c).2 = q.high ++ q.normal := by
  unfold clearQueueLocked
  rw [hq]
  exact ⟨⟨rfl, rfl, rfl, lookup_insert _, fun _ hd => lookup_insert_ne hd⟩, rfl⟩

theorem edit_invalidateReservationsLocked :
    Edit s c (some q.invalidated) (s.invalidateReservationsLocked c) := by
  unfold invalidateReservationsLocked
  rw [hq]
  exact ⟨rfl, rfl, rfl, lookup_insert _, fun _ hd => lookup_insert_ne hd⟩

/-- Clearing and invalidating, as `mark_slow_locked`, `finish_drain` and `close_connection` do. -/
theorem edit_reset :
    Edit s c (some q.cleared.invalidated)
      ((s.clearQueueLocked c).1.invalidateReservationsLocked c) :=
  (edit_clearQueueLocked hq).1.trans
    (edit_invalidateReservationsLocked (edit_clearQueueLocked hq).1.self)

end

theorem HubState.Accounted.reset (h : s.Accounted) (c : ConnectionId) :
    ((s.clearQueueLocked c).1.invalidateReservationsLocked c).Accounted :=
  (h.clearQueueLocked c).invalidateReservationsLocked c

/-! ## 2. Opening and reserving -/

theorem openConnection_cases (s : HubState) (maxConnections : Nat) (c : ConnectionId) :
    (∃ e, s.openConnection maxConnections c = (.error e, s)) ∨
    (s.intakeOpen = true ∧ s.queues.lookup c = none ∧
      s.openConnection maxConnections c =
        (.ok (), { s with queues := s.queues.insert c .new })) := by
  unfold openConnection
  split
  · exact .inl ⟨_, rfl⟩
  rename_i hopen
  split
  · exact .inl ⟨_, rfl⟩
  rename_i hnew
  split
  · exact .inl ⟨_, rfl⟩
  exact .inr ⟨by simpa using hopen, by simpa using hnew, rfl⟩

def QueueRecord.slowed (q : QueueRecord) : QueueRecord :=
  { q.cleared.invalidated with terminal := some .slowConsumer }

theorem markSlowLocked_open (hq : s.queues.lookup c = some q) (hopen : q.isOpen = true) :
    (s.markSlowLocked c).1 = true ∧ Edit s c (some q.slowed) (s.markSlowLocked c).2.1 ∧
      (s.markSlowLocked c).2.2 = q.high ++ q.normal ∧
      (s.Accounted → (s.markSlowLocked c).2.1.Accounted) := by
  have hreset := edit_reset hq
  unfold markSlowLocked
  rw [hq]
  simp only [hopen, Bool.not_true, Bool.false_eq_true, if_false, hreset.self]
  refine ⟨trivial, hreset.trans (edit_insert _ c _), (edit_clearQueueLocked hq).2, ?_⟩
  intro h
  exact (h.reset c).flag hreset.self rfl rfl rfl rfl rfl

def QueueRecord.reserved (q : QueueRecord) (bytes : Nat) : QueueRecord :=
  { q with
    reservedMessages := q.reservedMessages + 1
    reservedBytes := q.reservedBytes + bytes }

inductive Slot (s : HubState) (config : DeliveryQueueConfig) (c : ConnectionId) (q : QueueRecord)
    (bytes : Nat) (o : ReserveOutcome) : Prop
  /-- There was no room, and the connection is now slow. -/
  | slow (result : o.result = .error .slowConsumer) (became : o.becameSlow = true)
      (cleared : o.cleared = q.high ++ q.normal) (edit : Edit s c (some q.slowed) o.state)
      (accounted : s.Accounted → o.state.Accounted)
  /-- There was room. -/
  | ok (result : o.result = .ok q.reservationEpoch) (cleared : o.cleared = [])
      (edit : Edit s c (some (q.reserved bytes)) o.state)
      (messages : q.queuedMessages + q.reservedMessages < config.maxMessagesPerConnection)
      (bytesLe : q.queuedBytes + q.reservedBytes + bytes ≤ config.maxBytesPerConnection)
      (totalLe : o.state.queuedBytes + o.state.reservedBytes ≤ config.maxTotalBytes)
      (accounted : s.Accounted → o.state.Accounted)

theorem reserveSlot_slot (config : DeliveryQueueConfig) (hq : s.queues.lookup c = some q)
    (hopen : q.isOpen = true) (bytes : Nat) (purged : List StoredMessage)
    (evicted : List (ConnectionId × StoredMessage)) :
    Slot s config c q bytes (s.reserveSlot config c bytes purged evicted) ∧
      (s.reserveSlot config c bytes purged evicted).purged = purged ∧
      (s.reserveSlot config c bytes purged evicted).evicted = evicted := by
  unfold reserveSlot
  simp only [hq]
  split
  · obtain ⟨h1, h2, h3, h4⟩ := markSlowLocked_open hq hopen
    exact ⟨.slow rfl h1 h3 h2 h4, rfl, rfl⟩
  rename_i hroom
  simp only [Bool.or_eq_true, decide_eq_true_eq, not_or, not_le, not_lt] at hroom
  obtain ⟨⟨hm, hb⟩, ht⟩ := hroom
  refine ⟨.ok rfl rfl ?_ hm hb (by simp only; omega) ?_, rfl, rfl⟩
  · exact ⟨rfl, rfl, rfl, lookup_insert _, fun _ hd => lookup_insert_ne hd⟩
  · intro h
    refine h.replace hq rfl rfl rfl ?_ ?_ rfl (h.bytes c q hq) h.underflow
    · simp only
      omega
    · simp only
      omega

theorem trim_purgeIfAsked (s : HubState) (c : ConnectionId) (purge : Option Generation) :
    Trim s ((s.purgeIfAsked c purge).2.map fun m => (c, m)) (s.purgeIfAsked c purge).1 := by
  cases purge with
  | none => exact .refl s
  | some generation => exact trim_purgeGenerationLocked s c generation

theorem trim_makeRoom (s : HubState) (config : DeliveryQueueConfig) (c : ConnectionId)
    (priority : DeliveryPriority) (bytes : Nat) :
    Trim s (s.makeRoom config c priority bytes).2 (s.makeRoom config c priority bytes).1 := by
  cases priority with
  | normal => exact .refl s
  | high => exact (trim_makeRoomForHighLocked s c bytes config).trans (trim_globalRoomLoop _ _ _ _)

/-- **The section of `reserve_addressed`.**  It fails and does nothing; or it trims the queues and
then reserves a slot or marks the connection slow. -/
theorem reserveAddressed_cases (s : HubState) (config : DeliveryQueueConfig) (c : ConnectionId)
    (priority : DeliveryPriority) (bytes : Nat) (purge : Option Generation) :
    (∃ e, s.reserveAddressed config c priority bytes purge = ⟨.error e, s, [], [], [], false⟩) ∨
    (s.intakeOpen = true ∧ ∃ t q,
      Trim s ((s.reserveAddressed config c priority bytes purge).purged.map (fun m => (c, m)) ++
        (s.reserveAddressed config c priority bytes purge).evicted) t ∧
      t.queues.lookup c = some q ∧ q.isOpen = true ∧
      Slot t config c q bytes (s.reserveAddressed config c priority bytes purge)) := by
  unfold reserveAddressed
  split
  · exact .inl ⟨_, rfl⟩
  rename_i hint
  split
  · exact .inl ⟨_, rfl⟩
  rename_i q hq
  split
  · exact .inl ⟨_, rfl⟩
  rename_i hopen
  refine .inr ⟨by simpa using hint, ?_⟩
  have htrim := (trim_purgeIfAsked s c purge).trans
    (trim_makeRoom (s.purgeIfAsked c purge).1 config c priority bytes)
  obtain ⟨q', hq', htq, -⟩ := htrim.present c q hq
  have hopen' : q'.isOpen = true := by
    rw [htq.isOpen]
    simpa using hopen
  obtain ⟨hslot, hp, he⟩ := reserveSlot_slot config hq' hopen' bytes
    (s.purgeIfAsked c purge).2 ((s.purgeIfAsked c purge).1.makeRoom config c priority bytes).2
  refine ⟨_, q', ?_, hq', hopen', hslot⟩
  simp only [hp, he]
  exact htrim

/-! ## 3. Releasing and admitting -/

def QueueRecord.released (q : QueueRecord) (bytes : Nat) : QueueRecord :=
  { q with
    reservedMessages := usizeSub q.reservedMessages 1
    reservedBytes := usizeSub q.reservedBytes bytes }

/-- **The section of a release.**  Only a queue of the reservation's own epoch gives anything
back; one that is closed, without a receiver and without further reservations goes. -/
theorem releaseReservationLocked_cases (s : HubState) (c : ConnectionId) (bytes epoch : Nat) :
    (s.releaseReservationLocked c bytes epoch = s ∧
      ∀ q, s.queues.lookup c = some q → q.reservationEpoch ≠ epoch) ∨
    ∃ q, s.queues.lookup c = some q ∧ q.reservationEpoch = epoch ∧
      ((q.closed = true ∧ q.receiverOpen = false ∧
          Edit s c none (s.releaseReservationLocked c bytes epoch)) ∨
        Edit s c (some (q.released bytes)) (s.releaseReservationLocked c bytes epoch)) := by
  unfold releaseReservationLocked
  cases hq : s.queues.lookup c with
  | none => exact .inl ⟨rfl, by simp⟩
  | some q =>
    simp only
    by_cases he : q.reservationEpoch = epoch
    · rw [if_neg (not_not.mpr he)]
      refine .inr ⟨q, rfl, he, ?_⟩
      split
      · rename_i hremove
        simp only [Bool.and_eq_true, Bool.not_eq_true'] at hremove
        exact .inl ⟨hremove.1.1, hremove.1.2, rfl, rfl, rfl, lookup_erase _ _,
          fun _ hd => lookup_erase_ne hd⟩
      · exact .inr ⟨rfl, rfl, rfl, lookup_insert _, fun _ hd => lookup_insert_ne hd⟩
    · rw [if_pos he]
      refine .inl ⟨rfl, ?_⟩
      intro p hp
      rw [some.injEq] at hp
      exact hp ▸ he

theorem releaseReservationLocked_source {bytes epoch : Nat}
    (hp : (s.releaseReservationLocked c bytes epoch).queues.lookup d = some p) :
    (s.queues.lookup d = some p ∧ (d = c → p.reservationEpoch ≠ epoch)) ∨
      (d = c ∧ ∃ q, s.queues.lookup c = some q ∧ q.reservationEpoch = epoch ∧
        p = q.released bytes) := by
  rcases releaseReservationLocked_cases s c bytes epoch with ⟨heq, hno⟩ | ⟨q, hq, he, hedit⟩
  · rw [heq] at hp
    exact .inl ⟨hp, fun hd => hno p (hd ▸ hp)⟩
  · rcases hedit with ⟨-, -, hedit⟩ | hedit <;>
      rcases hedit.cases hp with ⟨rfl, hnew⟩ | ⟨hne, hold⟩
    · cases hnew
    · exact .inl ⟨hold, fun hd => absurd hd hne⟩
    · exact .inr ⟨rfl, q, hq, he, (Option.some.inj hnew).symm⟩
    · exact .inl ⟨hold, fun hd => absurd hd hne⟩

theorem stamp_queues (s : HubState) (m : StoredMessage) : (s.stamp m).2.queues = s.queues := by
  unfold HubState.stamp
  split <;> rfl

theorem HubState.Accounted.stamp (h : s.Accounted) (m : StoredMessage) :
    (s.stamp m).2.Accounted := by
  unfold HubState.stamp
  split
  · exact { h with }
  · exact h

theorem HubState.Accounted.push (h : s.Accounted) (hq : s.queues.lookup c = some q)
    (m : StoredMessage) : (s.push c q m).Accounted := by
  have hqb := h.bytes c q hq
  have hone : bytesOf [m] = m.encoded.length := by simp [bytesOf]
  unfold HubState.push QueueRecord.pushed
  cases hp : m.priority with
  | normal | high =>
    refine h.replace hq rfl ?_ ?_ rfl rfl ?_ ?_ h.underflow
    all_goals
      simp only [QueueRecord.queuedMessages, length_append, length_singleton,
        bytesOf_append, hone, reduceCtorEq, if_true, if_false]
      omega

/-- The record an admission leaves: the reservation given back, if the epoch is still its own, and
the message pushed. -/
def QueueRecord.admitted (q : QueueRecord) (bytes epoch : Nat) (m : StoredMessage) : QueueRecord :=
  (if q.reservationEpoch = epoch then q.released bytes else q).pushed m

/-- What an admission does to the hub. -/
structure Admission (s : HubState) (c : ConnectionId) (bytes epoch : Nat) (m : StoredMessage)
    (o : AdmitOutcome) (t : HubState) (q : QueueRecord) : Prop where
  trim : Trim s (o.purged.map fun m => (c, m)) t
  lookup : t.queues.lookup c = some q
  isOpen : q.isOpen = true
  result : o.result = .ok (t.stamp m).1
  edit : Edit (t.stamp m).2 c (some (q.admitted bytes epoch (t.stamp m).1)) o.state
  accounted : t.Accounted → (q.reservationEpoch = epoch →
    1 ≤ q.reservedMessages ∧ bytes ≤ q.reservedBytes) → o.state.Accounted

theorem Admission.source {bytes epoch : Nat} {m : StoredMessage} {o : AdmitOutcome}
    (h : Admission s c bytes epoch m o t q) (hp : o.state.queues.lookup d = some p) :
    (d = c ∧ p = q.admitted bytes epoch (t.stamp m).1 ∧
        ∃ o, s.queues.lookup d = some o ∧ o.Trimmed q) ∨
      (d ≠ c ∧ ∃ o, s.queues.lookup d = some o ∧ o.Trimmed p) :=
  h.edit.source (stamp_queues t m) h.trim h.lookup hp

/-- **The section of `admit_stored`.**  It fails and does nothing, or it admits. -/
theorem admitStored_cases (s : HubState) (c : ConnectionId) (bytes epoch : Nat)
    (m : StoredMessage) :
    (∃ e, s.admitStored c bytes epoch m = ⟨.error e, s, [], false⟩) ∨
    ∃ t q, Admission s c bytes epoch m (s.admitStored c bytes epoch m) t q := by
  unfold admitStored
  split
  · exact .inl ⟨_, rfl⟩
  rename_i q hq
  split
  · exact .inl ⟨_, rfl⟩
  rename_i hopen
  generalize hpurge : (if m.priority = .high then m.generation else none) = purge
  have htrim := trim_purgeIfAsked s c purge
  simp only
  by_cases hfull : m.priority = .normal ∧ 2 ^ 64 ≤ (s.purgeIfAsked c purge).1.nextNormalSequence + 1
  · -- a normal message purges nothing
    rw [if_pos hfull]
    have hnone : purge = none := by
      rw [← hpurge, if_neg (by simp [hfull.1])]
    rw [hnone]
    exact .inl ⟨_, rfl⟩
  · rw [if_neg hfull]
    refine .inr ?_
    generalize s.purgeIfAsked c purge = purging at htrim
    obtain ⟨t, purged⟩ := purging
    obtain ⟨q', hq', htq, -⟩ := htrim.present c q hq
    have hopen' : q'.isOpen = true := by
      rw [htq.isOpen]
      simpa using hopen
    have hclosed : q'.closed = false := by
      simp only [QueueRecord.isOpen, Bool.and_eq_true, Bool.not_eq_true'] at hopen'
      exact hopen'.1
    have hstamp : (t.stamp m).2.queues.lookup c = some q' := by
      rw [stamp_queues]
      exact hq'
    -- an open queue survives the release
    have hrel : Edit (t.stamp m).2 c
        (some (if q'.reservationEpoch = epoch then q'.released bytes else q'))
        ((t.stamp m).2.releaseReservationLocked c bytes epoch) := by
      rcases releaseReservationLocked_cases (t.stamp m).2 c bytes epoch with
        ⟨hsame, hne⟩ | ⟨p, hp, hep, hedit⟩
      · rw [hsame, if_neg (hne q' hstamp)]
        exact ⟨rfl, rfl, rfl, hstamp, fun _ _ => rfl⟩
      · rw [hstamp, some.injEq] at hp
        subst hp
        rw [if_pos hep]
        rcases hedit with ⟨hcl, -⟩ | hedit
        · rw [hclosed] at hcl
          cases hcl
        · exact hedit
    rw [hrel.self]
    refine ⟨t, q', htrim, hq', hopen', rfl, ?_, ?_⟩
    · exact hrel.trans ⟨rfl, rfl, rfl, lookup_insert _, fun _ hd => lookup_insert_ne hd⟩
    · intro ha hmt
      refine Accounted.push (Accounted.releaseReservationLocked (ha.stamp m) ?_)
        hrel.self _
      intro p hp hep
      rw [hstamp, some.injEq] at hp
      subst hp
      obtain ⟨hm, hb⟩ := hmt hep
      refine ⟨hm, hb, ?_⟩
      intro hcl
      rw [hclosed] at hcl
      cases hcl

/-! ## 4. Polling -/

/-- Each deque holds messages of its own priority. -/
structure QueueRecord.Typed (q : QueueRecord) : Prop where
  high : ∀ m ∈ q.high, m.priority = .high
  normal : ∀ m ∈ q.normal, m.priority = .normal

theorem QueueRecord.Trimmed.typed {q' : QueueRecord} (h : q.Trimmed q') (hq : q.Typed) :
    q'.Typed :=
  ⟨fun m hm => hq.high m (h.high.subset hm), fun m hm => hq.normal m (h.normal.subset hm)⟩

/-- The front of a queue: a high message, or a normal one when there is no high one. -/
inductive QueueRecord.Front (q : QueueRecord) (m : StoredMessage) (q' : QueueRecord) : Prop
  | high (self : q.high = m :: q'.high) (normal : q'.normal = q.normal)
  | normal (high : q.high = []) (high' : q'.high = []) (self : q.normal = m :: q'.normal)

/-- What a round of `poll_recv` finds and does. -/
inductive Polled (s : HubState) (c : ConnectionId) : PollOutcome × HubState → Prop
  | missing (absent : s.queues.lookup c = none) : Polled s c (.missing, s)
  | terminal {q : QueueRecord} {terminal : DeliveryTerminal} (lookup : s.queues.lookup c = some q)
      (self : q.terminal = some terminal) :
      Polled s c (.terminal terminal,
        { s with queues := s.queues.insert c { q with terminal := none, closed := true } })
  | message {q q' : QueueRecord} {m : StoredMessage} {s' : HubState}
      (lookup : s.queues.lookup c = some q) (terminal : q.terminal = none)
      (lookup' : s'.queues.lookup c = some q') (front : q.Front m q')
      (trim : Trim s [(c, m)] s') : Polled s c (.message m, s')
  | idle {q : QueueRecord} (lookup : s.queues.lookup c = some q) (high : q.high = [])
      (normal : q.normal = []) : Polled s c (if q.closed then .ended else .pending, s)

/-- **The section of `poll_recv`**, when each deque holds its own kind. -/
theorem pollRecv_polled (hty : ∀ q, s.queues.lookup c = some q → q.Typed) :
    Polled s c (s.pollRecv c) := by
  unfold pollRecv
  cases hq : s.queues.lookup c with
  | none => exact .missing hq
  | some q =>
    cases ht : q.terminal with
    | some terminal =>
      simp only [ht]
      exact .terminal hq ht
    | none =>
      cases hh : q.high with
      | cons m high =>
        simp only [ht, hh]
        have hprio : m.priority = .high := (hty q hq).high m (by simp [hh])
        refine .message hq ht (lookup_insert _) ?_ ?_
        · exact .high hh rfl
        · refine trim_dropOne hq ?_ (.refl _) ?_ ?_
          · rw [hh]
            exact sublist_cons_self _ _
          · rw [hh]
            rfl
          · rw [hh, if_pos hprio, length_cons, Nat.add_comm]
      | nil =>
        cases hn : q.normal with
        | cons m normal =>
          simp only [ht, hh, hn]
          have hprio : m.priority = .normal := (hty q hq).normal m (by simp [hn])
          refine .message hq ht (lookup_insert _) ?_ ?_
          · exact .normal hh rfl hn
          · refine trim_dropOne hq (nil_sublist _) ?_ ?_ ?_
            · rw [hn]
              exact sublist_cons_self _ _
            · rw [hh, hn]
              rfl
            · rw [hh, if_neg (by simp [hprio]), Nat.zero_add]
        | nil =>
          simp only [ht, hh, hn]
          exact .idle hq hh hn

/-! ## 5. Closing -/

theorem closeConnection_none (h : s.queues.lookup c = none) :
    s.closeConnection c = (s, [], [.close c]) := by
  unfold closeConnection
  rw [h]

/-- **The section of `close_connection`.** -/
theorem closeConnection_some (h : s.queues.lookup c = some q) :
    Edit s c none (s.closeConnection c).1 ∧ (s.closeConnection c).2.1 = q.high ++ q.normal ∧
      (s.Accounted → (s.closeConnection c).1.Accounted) := by
  have hreset := edit_reset h
  unfold closeConnection
  rw [h]
  refine ⟨hreset.trans (edit_erase _ c), (edit_clearQueueLocked h).2, ?_⟩
  intro ha
  exact (ha.reset c).erase hreset.self rfl rfl rfl rfl

/-- **The last section of a receiver's `close`.** -/
theorem closeReceiver_cases (s : HubState) (c : ConnectionId) :
    (s.queues.lookup c = none ∧ s.closeReceiver c = s) ∨
    ∃ q, s.queues.lookup c = some q ∧
      ((q.closed = true ∧ q.reservedMessages = 0 ∧
          s.closeReceiver c = { s with queues := s.queues.erase c }) ∨
        s.closeReceiver c =
          { s with queues := s.queues.insert c { q with receiverOpen := false } }) := by
  unfold closeReceiver
  cases hq : s.queues.lookup c with
  | none => exact .inl ⟨rfl, rfl⟩
  | some q =>
    refine .inr ⟨q, rfl, ?_⟩
    simp only
    split
    · rename_i hgo
      simp only [Bool.and_eq_true, beq_iff_eq] at hgo
      exact .inl ⟨hgo.1, hgo.2, rfl⟩
    · exact .inr rfl

/-! ## 6. Finishing a drain -/

/-- The record of a connection whose receiver is told of the drain. -/
def QueueRecord.signalled (q : QueueRecord) : QueueRecord :=
  if q.receiverOpen && !q.closed then { q with terminal := some .draining } else q

def QueueRecord.finished (q : QueueRecord) (expired : Bool) : QueueRecord :=
  (if expired then q.cleared.invalidated else q).signalled

/-- `s'` is `s` with every queue in `order` changed by `f`. -/
structure EditAll (s : HubState) (order : List ConnectionId) (f : QueueRecord → QueueRecord)
    (s' : HubState) : Prop where
  intakeOpen : s'.intakeOpen = s.intakeOpen
  draining : s'.draining = s.draining
  nextNormalSequence : s'.nextNormalSequence = s.nextNormalSequence
  mem : ∀ d ∈ order, s'.queues.lookup d = (s.queues.lookup d).map f
  notMem : ∀ d, d ∉ order → s'.queues.lookup d = s.queues.lookup d
  accounted : s.Accounted → s'.Accounted

variable {order : List ConnectionId} {f : QueueRecord → QueueRecord}

theorem EditAll.cons (hself : t.queues.lookup c = (s.queues.lookup c).map f)
    (hoth : ∀ d, d ≠ c → t.queues.lookup d = s.queues.lookup d)
    (hflags : t.intakeOpen = s.intakeOpen ∧ t.draining = s.draining ∧
      t.nextNormalSequence = s.nextNormalSequence)
    (hactd : s.Accounted → t.Accounted) (hc : c ∉ order) (h : EditAll t order f s') :
    EditAll s (c :: order) f s' where
  intakeOpen := h.intakeOpen.trans hflags.1
  draining := h.draining.trans hflags.2.1
  nextNormalSequence := h.nextNormalSequence.trans hflags.2.2
  mem := by
    intro d hd
    rcases mem_cons.mp hd with rfl | hd
    · rw [h.notMem _ hc, hself]
    · rw [h.mem d hd, hoth d (fun heq => hc (heq ▸ hd))]
  notMem := by
    intro d hd
    rw [mem_cons, not_or] at hd
    rw [h.notMem d hd.2, hoth d hd.1]
  accounted := fun ha => h.accounted (hactd ha)

theorem EditAll.lookup (h : EditAll s order f s') (hout : ∀ d, d ∉ order → s.queues.lookup d = none)
    (d : ConnectionId) : s'.queues.lookup d = (s.queues.lookup d).map f := by
  by_cases hd : d ∈ order
  · exact h.mem d hd
  · rw [h.notMem d hd, hout d hd]
    rfl

theorem EditAll.nil (s : HubState) (f : QueueRecord → QueueRecord) : EditAll s [] f s :=
  ⟨rfl, rfl, rfl, by simp, fun _ _ => rfl, id⟩

/-- **The first loop of `finish_drain`** clears and invalidates every queue, and reports every
message. -/
theorem editAll_dropAll : ∀ (order : List ConnectionId) (s : HubState), order.Nodup →
    EditAll s order (fun q => q.cleared.invalidated) (dropAll order s).1 ∧
      ∀ d q, d ∈ order → s.queues.lookup d = some q → ∀ m ∈ q.high ++ q.normal,
        (d, m) ∈ (dropAll order s).2
  | [], s, _ => ⟨.nil s _, by simp⟩
  | c :: rest, s, hnd => by
    obtain ⟨hc, hrest⟩ := nodup_cons.mp hnd
    obtain ⟨hall, hdrp⟩ :=
      editAll_dropAll rest ((s.clearQueueLocked c).1.invalidateReservationsLocked c) hrest
    unfold dropAll
    simp only
    cases hq : s.queues.lookup c with
    | none =>
      have hsame : (s.clearQueueLocked c).1.invalidateReservationsLocked c = s := by
        simp [clearQueueLocked, invalidateReservationsLocked, hq]
      rw [hsame] at hall hdrp ⊢
      refine ⟨.cons ?_ (fun _ _ => rfl) ⟨rfl, rfl, rfl⟩ id hc hall, ?_⟩
      · rw [hq]
        rfl
      · intro d q hd hdq m hm
        rcases mem_cons.mp hd with rfl | hd
        · rw [hq] at hdq
          cases hdq
        · exact mem_append_right _ (hdrp d q hd hdq m hm)
    | some q =>
      have hreset := edit_reset hq
      refine ⟨.cons ?_ hreset.other ⟨hreset.intakeOpen, hreset.draining,
        hreset.nextNormalSequence⟩ (fun ha => ha.reset c) hc hall, ?_⟩
      · rw [hreset.self, hq]
        rfl
      · intro d p hd hdp m hm
        by_cases hdc : d = c
        · subst hdc
          rw [hq, some.injEq] at hdp
          subst hdp
          refine mem_append_left _ ?_
          rw [(edit_clearQueueLocked hq).2]
          exact mem_map.mpr ⟨m, hm, rfl⟩
        · refine mem_append_right _ (hdrp d p ?_ ?_ m hm)
          · exact (mem_cons.mp hd).resolve_left hdc
          · rw [hreset.other d hdc]
            exact hdp

/-- **The second loop of `finish_drain`.** -/
theorem editAll_signalAll : ∀ (order : List ConnectionId) (s : HubState), order.Nodup →
    EditAll s order QueueRecord.signalled (signalAll order s).1
  | [], s, _ => .nil s _
  | c :: rest, s, hnd => by
    obtain ⟨hc, hrest⟩ := nodup_cons.mp hnd
    unfold signalAll
    cases hq : s.queues.lookup c with
    | none =>
      refine .cons ?_ (fun _ _ => rfl) ⟨rfl, rfl, rfl⟩ id hc (editAll_signalAll rest s hrest)
      rw [hq]
      rfl
    | some q =>
      simp only
      split
      · rename_i hsig
        have hrest' := editAll_signalAll rest
          { s with queues := s.queues.insert c { q with terminal := some .draining } } hrest
        refine .cons ?_ ?_ ?_ ?_ hc hrest'
        · rw [lookup_insert, hq, map_some, QueueRecord.signalled, if_pos hsig]
        · exact fun _ hd => lookup_insert_ne hd
        · exact ⟨rfl, rfl, rfl⟩
        · intro ha
          exact ha.flag hq rfl rfl rfl rfl rfl
      · rename_i hsig
        refine .cons ?_ (fun _ _ => rfl) ⟨rfl, rfl, rfl⟩ id hc (editAll_signalAll rest s hrest)
        rw [hq, map_some, QueueRecord.signalled, if_neg hsig]

/-- What `finish_drain` does: every queue is finished, and in a forced one every message is
reported. -/
structure Finish (s : HubState) (expired : Bool) (o : FinishOutcome) : Prop where
  intakeOpen : o.state.intakeOpen = s.intakeOpen
  draining : o.state.draining = s.draining
  nextNormalSequence : o.state.nextNormalSequence = s.nextNormalSequence
  lookup : ∀ d, o.state.queues.lookup d = (s.queues.lookup d).map fun q => q.finished expired
  dropped : expired = true → ∀ d q, s.queues.lookup d = some q → ∀ m ∈ q.high ++ q.normal,
    (d, m) ∈ o.dropped
  graceful : expired = false → o.dropped = []
  accounted : s.Accounted → o.state.Accounted

/-- **The section of `finish_drain`.** -/
theorem finishDrain_finish (hord : order.Perm s.queues.keys)
    (expired : Bool) : Finish s expired (s.finishDrain expired order) := by
  have hnd : order.Nodup := hord.nodup_iff.mpr s.queues.keys_nodup
  -- a connection outside the order has no queue
  have hout : ∀ d, d ∉ order → s.queues.lookup d = none := by
    intro d hd
    rw [lookup_eq_none]
    exact fun hmem => hd (hord.mem_iff.mpr hmem)
  cases expired with
  | false =>
    have hsig := editAll_signalAll order s hnd
    exact { hsig with lookup := hsig.lookup hout, dropped := by simp, graceful := fun _ => rfl }
  | true =>
    obtain ⟨hdrop, hdrp⟩ := editAll_dropAll order s hnd
    have hsig := editAll_signalAll order (dropAll order s).1 hnd
    refine ⟨hsig.intakeOpen.trans hdrop.intakeOpen, hsig.draining.trans hdrop.draining,
      hsig.nextNormalSequence.trans hdrop.nextNormalSequence, ?_, ?_, by simp,
      fun ha => hsig.accounted (hdrop.accounted ha)⟩
    · intro d
      refine (hsig.lookup (fun d hd => (hdrop.notMem d hd).trans (hout d hd)) d).trans ?_
      rw [hdrop.lookup hout, Option.map_map]
      rfl
    · intro _ d q hq m hm
      by_cases hd : d ∈ order
      · exact hdrp d q hd hq m hm
      · rw [hout d hd] at hq
        cases hq

end

end Omnius.Realtime.Delivery
