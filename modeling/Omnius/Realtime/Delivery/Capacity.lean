/-
# The capacity of the queues

Capacity is tested when a slot is RESERVED; a message arrives later, under an epoch that may have
moved.  So the bound that is kept is not on what a queue counts as reserved but on what can still
arrive: what the queue holds, plus every live reservation of its connection, of whatever epoch.
An admission whose reservation was invalidated then moves its share from one side of that sum to
the other, like any admission.

For the whole hub the reservations that matter are those of OPEN queues: nothing is admitted to
another.
-/
import Mathlib.Algebra.Order.BigOperators.Group.List
import Mathlib.Algebra.Order.Group.Nat
import Omnius.Realtime.Delivery.Accounting

namespace Omnius.Realtime.Delivery

open Omnius.Lib List Table Tally QueueRecord

/-! ## 1. Loads -/

def Tally.ofMessage : Tally → StoredMessage → Nat
  | .messages, _ => 1
  | .bytes, m => m.encoded.length

def Tally.held (u : Tally) (q : QueueRecord) : Nat := ((q.high ++ q.normal).map u.ofMessage).sum

/-- What the queue `q` of `c` holds and may still receive: reservations are made in epoch `0`. -/
def Core.load (k : Core) (u : Tally) (c : ConnectionId) (q : QueueRecord) : Nat :=
  u.held q + k.live u c 0

/-- The same in bytes, for the whole hub. -/
def Core.totalLoad (k : Core) : Nat :=
  k.hub.queues.total fun c q =>
    held .bytes q + if q.isOpen then k.live .bytes c 0 else 0

/-- **No queue and no hub can be overfilled.** -/
structure Bounded (config : DeliveryQueueConfig) (k : Core) : Prop where
  messages : ∀ c q, k.hub.queues.lookup c = some q →
    k.load .messages c q ≤ config.maxMessagesPerConnection
  bytes : ∀ c q, k.hub.queues.lookup c = some q →
    k.load .bytes c q ≤ config.maxBytesPerConnection
  total : k.totalLoad ≤ config.maxTotalBytes

section

variable {config : DeliveryQueueConfig} {w w' : World} {k : Core} {c : ConnectionId}
  {q q' : QueueRecord} {r : Reservation} {id : Nat} (u : Tally)

theorem Tally.held_messages (q : QueueRecord) : held .messages q = q.queuedMessages := by
  unfold held queuedMessages
  rw [← length_append]
  induction q.high ++ q.normal with
  | nil => rfl
  | cons m l ih =>
    rw [map_cons, sum_cons, ih, Nat.add_comm]
    rfl

theorem Tally.held_bytes (q : QueueRecord) :
    held .bytes q = bytesOf q.high + bytesOf q.normal := by
  rw [← bytesOf_append]
  rfl

theorem Tally.held_trimmed (h : q.Trimmed q') : u.held q' ≤ u.held q :=
  ((h.high.append h.normal).map u.ofMessage).sum_le_sum (by simp)

theorem Tally.held_pushed (m : StoredMessage) :
    u.held (q.pushed m) = u.held q + u.ofMessage m := by
  unfold held pushed
  split
  · simp only [map_append, sum_append, map_cons, map_nil, sum_singleton]
    omega
  · simp only [map_append, sum_append, map_cons, map_nil, sum_singleton]
    omega

theorem Tally.held_signalled : u.held q.signalled = u.held q := by
  unfold signalled
  split <;> rfl

theorem Tally.held_finished (expired : Bool) : u.held (q.finished expired) ≤ u.held q := by
  unfold finished
  rw [u.held_signalled]
  cases expired with
  | false => exact le_rfl
  | true => exact Nat.zero_le _

/-! ## 2. What a step does to a load -/

/-- Queue `q'` of `k` can receive no more than queue `q` of `w` could. -/
structure Eases (w : World) (k : Core) (c : ConnectionId) (q q' : QueueRecord) : Prop where
  isOpen : q'.isOpen = true → q.isOpen = true
  load : ∀ u, k.load u c q' ≤ w.load u c q
  held : q'.isOpen = false → ∀ u : Tally, u.held q' ≤ u.held q

/-- There was such a queue, or nothing is held or can be received. -/
def Eased (w : World) (k : Core) (c : ConnectionId) (q' : QueueRecord) : Prop :=
  (∃ q, w.hub.queues.lookup c = some q ∧ Eases w k c q q') ∨ ∀ u, k.load u c q' = 0

theorem eased_of_held (hq : w.hub.queues.lookup c = some q)
    (hopen : q'.isOpen = true → q.isOpen = true) (hheld : ∀ u : Tally, u.held q' ≤ u.held q)
    (hlive : ∀ u, k.live u c 0 ≤ w.live u c 0) : Eased w k c q' :=
  .inl ⟨q, hq, hopen, fun u => Nat.add_le_add (hheld u) (hlive u), fun _ => hheld⟩

theorem eased_trimmed (hq : w.hub.queues.lookup c = some q) (htrim : q.Trimmed q')
    (hlive : ∀ u, k.live u c 0 ≤ w.live u c 0) : Eased w k c q' :=
  eased_of_held hq (fun h => htrim.isOpen ▸ h) (fun u => u.held_trimmed htrim) hlive

theorem live_erase_le (hr : w.reservations.lookup id = some r)
    (hk : k.reservations = w.reservations.erase id) (u : Tally) : k.live u c 0 ≤ w.live u c 0 := by
  have := live_erase (u := u) (c := c) (e := 0) hr hk
  omega

theorem eased_admitted (hw : Steady w) {m : StoredMessage} {bytes epoch : Nat}
    (hr : w.reservations.lookup id = some r) (hk : k.reservations = w.reservations.erase id)
    (hq : w.hub.queues.lookup r.connectionId = some q) (htrim : q.Trimmed q')
    (hopen : q'.isOpen = true) (hfits : m.encoded.length ≤ r.reservedBytes) :
    Eased w k r.connectionId (q'.admitted bytes epoch m) := by
  refine .inl ⟨q, hq, ?_, ?_, ?_⟩
  · intro _
    rwa [htrim.isOpen] at hopen
  · intro u
    have herase := live_erase (u := u) (c := r.connectionId) (e := 0) hr hk
    rw [show u.share r.connectionId 0 r = u.ofReservation r by
      rw [← hw.epochs id r hr]
      exact u.share_self r] at herase
    have hheld : u.held (q'.admitted bytes epoch m) = u.held q' + u.ofMessage m := by
      unfold admitted
      rw [u.held_pushed]
      split <;> rfl
    have hle : u.ofMessage m ≤ u.ofReservation r := by
      cases u with
      | messages => exact le_rfl
      | bytes => exact hfits
    have htrm := u.held_trimmed htrim
    simp only [Core.load, hheld]
    omega
  · intro hcl
    rw [admitted_isOpen, hopen] at hcl
    cases hcl

theorem stamp_encoded (s : HubState) (m : StoredMessage) : (s.stamp m).1.encoded = m.encoded := by
  unfold HubState.stamp
  split <;> rfl

/-- **Every step but a reservation eases every load.** -/
theorem Effect.eased (hw : Steady w) (he : Effect config w k) (hf : FreshEpochs w.toCore k)
    (hsame : k.nextReservation = w.nextReservation) (hq' : k.hub.queues.lookup c = some q') :
    Eased w k c q' := by
  have hkeep : ∀ {q'}, w.hub.queues.lookup c = some q' → (∀ u, k.live u c 0 ≤ w.live u c 0) →
      Eased w k c q' := fun hq hlive => eased_trimmed hq (.refl _) hlive
  cases he with
  | stay => exact hkeep hq' fun _ => le_rfl
  | failed hr | checked hr => exact hkeep hq' fun _ => (live_phase hr _ rfl).le
  | opened _ habs =>
    rcases lookup_insert_iff.mp hq' with ⟨rfl, rfl⟩ | ⟨-, hold⟩
    · refine .inr ?_
      intro u
      have hzero := hf.live_eq_zero (u := u) rfl hq' (by simp [habs])
        (Core.nextEpoch_none habs).symm
      exact (Nat.zero_add _).trans hzero
    · exact hkeep hold fun _ => le_rfl
  | reserved => exact absurd hsame (Nat.succ_ne_self _)
  | slowed _ htrim _ hq _ hedit =>
    rcases hedit.source rfl htrim hq hq' with ⟨rfl, rfl, p, hp, htp⟩ | ⟨-, p, hp, htp⟩
    · refine eased_of_held hp ?_ (fun _ => Nat.zero_le _) fun _ => le_rfl
      intro hopen
      rw [slowed_isOpen] at hopen
      cases hopen
    · exact eased_trimmed hp htp fun _ => le_rfl
  | admitted hr hph hadm =>
    rcases hadm.source hq' with ⟨rfl, rfl, p, hp, htp⟩ | ⟨-, p, hp, htp⟩
    · refine eased_admitted hw hr rfl hp htp hadm.isOpen ?_
      rw [stamp_encoded]
      exact hw.fits _ _ _ hr hph
    · exact eased_trimmed hp htp fun u => live_erase_le hr rfl u
  | released hr =>
    rcases releaseReservationLocked_source hq' with ⟨hold, -⟩ | ⟨rfl, q, hq, -, rfl⟩
    · exact hkeep hold fun u => live_erase_le hr rfl u
    · exact eased_of_held hq (fun hopen => hopen) (fun _ => le_rfl) fun u => live_erase_le hr rfl u
  | popped _ _ _ _ _ htrim =>
    obtain ⟨p, hp, htp, -⟩ := htrim.source hq'
    exact eased_trimmed hp htp fun _ => le_rfl
  | terminated hq =>
    rcases lookup_insert_iff.mp hq' with ⟨rfl, rfl⟩ | ⟨-, hold⟩
    · exact eased_of_held hq (by simp [isOpen]) (fun _ => le_rfl) fun _ => le_rfl
    · exact hkeep hold fun _ => le_rfl
  | closed _ hedit =>
    rcases hedit.cases hq' with ⟨-, hnew⟩ | ⟨-, hold⟩
    · cases hnew
    · exact hkeep hold fun _ => le_rfl
  | collected => exact hkeep (lookup_erase_iff.mp hq').2 fun _ => le_rfl
  | abandoned _ _ hq =>
    rcases lookup_insert_iff.mp hq' with ⟨rfl, rfl⟩ | ⟨-, hold⟩
    · exact eased_of_held hq (fun hopen => hopen) (fun _ => le_rfl) fun _ => le_rfl
    · exact hkeep hold fun _ => le_rfl
  | beganDrain =>
    simp only [beginDrain_queues] at hq'
    exact hkeep hq' fun _ => le_rfl
  | @finished task expired o _ hfsh =>
    simp only [hfsh.lookup, Option.map_eq_some_iff] at hq'
    obtain ⟨q, hq, rfl⟩ := hq'
    exact eased_of_held hq finished_wasOpen (fun u => u.held_finished expired)
      fun _ => le_rfl

theorem load_reserved {bytes : Nat} (hw : Steady w)
    (hk : k.reservations = w.reservations.insert w.nextReservation r) (hc : r.connectionId = c)
    (he : r.reservationEpoch = 0) :
    k.load u c (q.reserved bytes) = u.held q + (w.live u c 0 + u.ofReservation r) := by
  unfold Core.load
  rw [live_insert_new hw.fresh hk, Tally.share, if_pos ⟨hc, he⟩]
  rfl

theorem Effect.roomy (hw : Steady w) (h : Sound w) (he : Effect config w k)
    (hnew : k.nextReservation ≠ w.nextReservation) :
    k.hub.intakeOpen = true ∧ k.hub.queuedBytes + k.hub.reservedBytes ≤ config.maxTotalBytes ∧
      ∀ c q', k.hub.queues.lookup c = some q' → Eased w k c q' ∨
        (k.load .messages c q' ≤ config.maxMessagesPerConnection ∧
          k.load .bytes c q' ≤ config.maxBytesPerConnection) := by
  cases he with
  | @reserved c₀ priority bytes gone lost t h' q hint htrim _ hq hopen hedit hm hb ht hacc =>
    refine ⟨hedit.intakeOpen.trans (htrim.intakeOpen.trans hint), ht, ?_⟩
    intro c q' hq'
    rcases hedit.source rfl htrim hq hq' with ⟨rfl, rfl, p, hp, htp⟩ | ⟨hne, p, hp, htp⟩
    · right
      have hzero : q.reservationEpoch = 0 :=
        htp.reservationEpoch.trans (hw.openEpochs _ p hp (htp.isOpen ▸ hopen) (.inl hint))
      have hcts : ∀ u : Tally, u.onQueue q = w.live u c 0 := by
        intro u
        rw [← hzero]
        exact h.balanced.counts_trimmed hp htp
      have hby := (htrim.accounted h.balanced.accounted).bytes c q hq
      constructor
      · rw [load_reserved (r := ⟨c, priority, bytes, q.reservationEpoch, .held⟩) .messages hw rfl
          rfl hzero, ← hcts, held_messages]
        exact hm
      · rw [load_reserved (r := ⟨c, priority, bytes, q.reservationEpoch, .held⟩) .bytes hw rfl rfl
          hzero, ← hcts, held_bytes, ← hby, ← Nat.add_assoc]
        exact hb
    · left
      refine eased_trimmed hp htp fun u => ?_
      rw [live_insert_new hw.fresh rfl, u.share_ne fun h0 => hne h0.1.symm, Nat.add_zero]
  | _ => exact absurd rfl hnew

/-! ## 3. Runs -/

theorem live_le_zero (hw : Steady w) (e : Nat) : w.live u c e ≤ w.live u c 0 := by
  by_cases he : e = 0
  · rw [he]
  · rw [live_eq_zero (e := e) fun id r hr _ => by rw [hw.epochs id r hr]; exact Ne.symm he]
    exact Nat.zero_le _

/-- What a queue has reserved, its connection's live reservations cover. -/
theorem Sound.onQueue_le (h : Sound w) (hw : Steady w) (hq : w.hub.queues.lookup c = some q) :
    u.onQueue q ≤ if q.isOpen then w.live u c 0 else 0 := by
  have hct := fun u => h.balanced.counts u c q hq
  split
  · rw [hct]
    exact live_le_zero u hw _
  rename_i hcl
  have hvoid := h.idle c q hq (by simpa using hcl)
  cases u with
  | messages => exact hvoid.reservedMessages.le
  | bytes => exact ((hct .bytes).trans (live_bytes_eq_zero
      ((hct .messages).symm.trans hvoid.reservedMessages))).le

theorem Eased.total (h : Eased w k c q') :
    held .bytes q' + (if q'.isOpen then k.live .bytes c 0 else 0) ≤
      w.hub.queues.share (fun c q =>
        held .bytes q + if q.isOpen then w.live .bytes c 0 else 0) c := by
  rcases h with ⟨q, hq, heases⟩ | hzero
  · rw [share_some hq]
    by_cases hopen : q'.isOpen = true
    · rw [if_pos hopen, if_pos (heases.isOpen hopen)]
      exact heases.load .bytes
    · rw [if_neg hopen]
      exact Nat.le_add_right_of_le (heases.held (by simpa using hopen) .bytes)
  · have hload := hzero .bytes
    unfold Core.load at hload
    split <;> omega

/-- With the intake open, the load of the hub is what its totals say. -/
theorem Sound.totalLoad_le (h : Sound w) (hw : Steady w) (hint : w.hub.intakeOpen = true) :
    w.totalLoad ≤ w.hub.queuedBytes + w.hub.reservedBytes := by
  have ha := h.balanced.accounted
  rw [ha.queuedBytes, ha.reservedBytes, ← total_add]
  refine total_le_total ?_
  intro c q hq
  rw [share_some hq, held_bytes, ← ha.bytes c q hq]
  refine Nat.add_le_add_left ?_ _
  split
  · rename_i hopen
    rw [← hw.openEpochs c q hq hopen (.inl hint)]
    exact (h.balanced.counts .bytes c q hq).symm.le
  · exact Nat.zero_le _

theorem Bounded.move (hb : Bounded config w.toCore) (h : Sound w) (hw : Steady w)
    (h' : Sound w') (hw' : Steady w') (hs : StepMove config w w')
    (hf : FreshEpochs w.toCore w'.toCore) : Bounded config w'.toCore := by
  have hfrom : ∀ {u : Tally} {bound : Nat},
      (∀ c q, w.hub.queues.lookup c = some q → w.load u c q ≤ bound) →
      ∀ {c q'}, Eased w w'.toCore c q' → w'.load u c q' ≤ bound := by
    rintro u bound hle c q' (⟨q, hq, heases⟩ | hzero)
    · exact (heases.load u).trans (hle c q hq)
    · rw [hzero u]
      exact Nat.zero_le _
  by_cases hsame : w'.nextReservation = w.nextReservation
  · have heased : ∀ c q', w'.hub.queues.lookup c = some q' → Eased w w'.toCore c q' :=
      fun c q' hq' => hs.effect.eased hw hf hsame hq'
    refine ⟨fun c q' hq' => hfrom hb.messages (heased c q' hq'),
      fun c q' hq' => hfrom hb.bytes (heased c q' hq'), le_trans ?_ hb.total⟩
    exact total_le_total fun c q' hq' => (heased c q' hq').total
  · obtain ⟨hint, htot, hroom⟩ := hs.effect.roomy hw h hsame
    refine ⟨?_, ?_, (h'.totalLoad_le hw' hint).trans htot⟩
    · intro c q' hq'
      rcases hroom c q' hq' with heased | ⟨hm, -⟩
      · exact hfrom hb.messages heased
      · exact hm
    · intro c q' hq'
      rcases hroom c q' hq' with heased | ⟨-, hby⟩
      · exact hfrom hb.bytes heased
      · exact hby

theorem bounded_reach {registryConfig : RegistryConfig}
    (h : (delivery registryConfig config).ReachIf (FreshStep config)
      (delivery registryConfig config).start w) : Bounded config w.toCore := by
  refine (h.invariant (I := fun w => (Sound w ∧ Steady w) ∧ Bounded config w.toCore)
    ⟨⟨sound_start registryConfig, steady_start registryConfig⟩, ?_⟩ ?_).2
  · refine ⟨?_, ?_, Nat.zero_le _⟩
    · nofun
    · nofun
  · rintro u a v ⟨⟨hsd, hstdy⟩, hbdd⟩ hfr hst
    have hmove := step_move hstdy.typed hst
    have hf := hfr v hst
    have hsd' := hsd.move hstdy hmove hf
    have hstdy' := hstdy.move hmove
    exact ⟨⟨hsd', hstdy'⟩, hbdd.move hsd hstdy hsd' hstdy' hmove hf⟩

/-- **The capacity of connections and of the hub.**  In every interleaving whose steps are all
fresh: each connection's queued and reserved messages, its queued and reserved bytes, and the
hub's queued and reserved bytes stay within the configuration. -/
theorem capacity_of_freshEpochs {registryConfig : RegistryConfig}
    (h : (delivery registryConfig config).ReachIf (FreshStep config)
      (delivery registryConfig config).start w) :
    (∀ c q, w.hub.queues.lookup c = some q →
      q.queuedMessages + q.reservedMessages ≤ config.maxMessagesPerConnection ∧
      q.queuedBytes + q.reservedBytes ≤ config.maxBytesPerConnection) ∧
    w.hub.queuedBytes + w.hub.reservedBytes ≤ config.maxTotalBytes := by
  obtain ⟨hsd, hstdy⟩ := sound_reach (fun _ _ hP => hP) h
  have hbdd := bounded_reach h
  have ha := hsd.balanced.accounted
  refine ⟨?_, ?_⟩
  · intro c q hq
    have hle : ∀ u : Tally, u.onQueue q ≤ w.live u c 0 := fun u => by
      rw [hsd.balanced.counts u c q hq]
      exact live_le_zero u hstdy _
    have hmsgs := hbdd.messages c q hq
    have hby := hbdd.bytes c q hq
    rw [Core.load, held_messages] at hmsgs
    rw [Core.load, held_bytes, ← ha.bytes c q hq] at hby
    exact ⟨(Nat.add_le_add_left (hle .messages) _).trans hmsgs,
      (Nat.add_le_add_left (hle .bytes) _).trans hby⟩
  · refine le_trans ?_ hbdd.total
    rw [ha.queuedBytes, ha.reservedBytes, ← total_add]
    refine total_le_total ?_
    intro c q hq
    rw [share_some hq, held_bytes, ← ha.bytes c q hq]
    exact Nat.add_le_add_left (hsd.onQueue_le .bytes hstdy hq) _

end

/-! ## 4. Two messages in a queue of one -/

/-- One slot is reserved and filled. -/
theorem capacity_of_freshEpochs_full :
    ∃ w, (delivery smallRegistry oneSlot).ReachIf (FreshStep oneSlot)
        (delivery smallRegistry oneSlot).start w ∧
      w.hub.queuedMessages = 1 ∧
      (∀ c q, w.hub.queues.lookup c = some q → q.queuedMessages + q.reservedMessages ≤ 1) ∧
      w.hub.queuedBytes + w.hub.reservedBytes ≤ 65536 := by
  have hre := Machine.reachIf_of_runIf (M := delivery smallRegistry oneSlot)
    (P := FreshStep oneSlot) (s := (delivery smallRegistry oneSlot).start)
    (opening ++ [.reserveCheck firstConnection .normal 4096 none, .reserveLock 2,
      .admitCheck 0 plainPayload, .admitLock 0]) rfl
  have h := capacity_of_freshEpochs hre
  exact ⟨_, hre, rfl, fun c q hq => (h.1 c q hq).1, h.2⟩

/-- The connection is reopened under a live reservation, before its old receiver has finished
closing; that receiver then takes the new queue for its own and marks it abandoned, so a forced
drain does not signal it. -/
def twoForOneSlot : List Action :=
  opening ++ [.reserveCheck firstConnection .normal 4096 none, .reserveLock 2,
    .openCheck firstConnection, .reserveCheck firstConnection .normal 4096 none, .dropLock 1,
    .openLock 3, .reserveLock 4, .receiverCall 1, .receiverCall 1, .dropEnd 1, .forceClose,
    .finishLock 6 [firstConnection], .admitCheck 0 plainPayload, .admitLock 0,
    .admitCheck 1 plainPayload, .admitLock 1]

/-- **Both reservations are then admitted**, after the drain invalidated them, and no counter
underflows on the way. -/
theorem invalidated_admissions_overfill :
    ∃ w q, (delivery smallRegistry oneSlot).Reach (delivery smallRegistry oneSlot).start w ∧
      w.hub.queues.lookup firstConnection = some q ∧ w.hub.underflow = false ∧
      oneSlot.maxMessagesPerConnection = 1 ∧ q.queuedMessages + q.reservedMessages = 2 :=
  ⟨_, _, Machine.reach_of_run twoForOneSlot rfl, rfl, rfl, rfl, rfl⟩

end Omnius.Realtime.Delivery
