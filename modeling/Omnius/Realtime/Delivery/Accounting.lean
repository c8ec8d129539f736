/-
# The books of the hub, and the one thing that can upset them

`Balanced` is the accounting invariant: the five totals are sums over the queues, each queue's
bytes are the bytes in its deques, each queue's reserved counts are the LIVE RESERVATIONS of its
current epoch, and nothing has underflowed.

It does not hold in every run.  A reservation finds its queue by connection and epoch, and a fresh
record starts at epoch `0`, the epoch of every live reservation.  `open_connection` asks the
registry first and takes the hub's lock afterwards, so a connection can be closed and reopened
between the two, with a reservation of the old record still alive; that reservation then belongs,
by connection and epoch, to a record that never counted it.

`FreshEpochs` says that no live reservation of a connection carries the epoch that comes next there,
when a step puts it in force: `0` at an opening, one more than the old one at a slow mark and at a
forced drain.  It is EXACTLY the condition: a step from a balanced world leads to a balanced world
if and only if it meets it (`accounting_iff_freshEpochs`).
-/
import Omnius.Realtime.Delivery.Steady

namespace Omnius.Realtime.Delivery

open Omnius.Lib Table QueueRecord

variable {q' : QueueRecord}

/-! ## 1. Live reservations -/

/-- What a reservation counts for: one message, and its bytes. -/
inductive Tally
  | messages | bytes

def Tally.onQueue : Tally → QueueRecord → Nat
  | .messages, q => q.reservedMessages
  | .bytes, q => q.reservedBytes

def Tally.ofReservation : Tally → Reservation → Nat
  | .messages, _ => 1
  | .bytes, r => r.reservedBytes

/-- What reservation `r` adds to the tally of connection `c` in epoch `e`. -/
def Tally.share (u : Tally) (c : ConnectionId) (e : Nat) (r : Reservation) : Nat :=
  if r.connectionId = c ∧ r.reservationEpoch = e then u.ofReservation r else 0

/-- The live reservations of connection `c` in epoch `e`. -/
def Core.live (k : Core) (u : Tally) (c : ConnectionId) (e : Nat) : Nat :=
  k.reservations.total fun _ r => u.share c e r

/-- **The accounting invariant.** -/
structure Balanced (k : Core) : Prop where
  accounted : k.hub.Accounted
  counts : ∀ u c q, k.hub.queues.lookup c = some q → u.onQueue q = k.live u c q.reservationEpoch

section

variable {config : DeliveryQueueConfig} {w w' : World} {k k' : Core} {c : ConnectionId}
  {q : QueueRecord} {r : Reservation} {id e : Nat} {u : Tally}

theorem Tally.share_self (u : Tally) (r : Reservation) :
    u.share r.connectionId r.reservationEpoch r = u.ofReservation r :=
  if_pos ⟨rfl, rfl⟩

theorem Tally.share_ne (u : Tally) (h : ¬ (r.connectionId = c ∧ r.reservationEpoch = e)) :
    u.share c e r = 0 :=
  if_neg h

theorem le_live (hr : k.reservations.lookup id = some r) (u : Tally) :
    u.ofReservation r ≤ k.live u r.connectionId r.reservationEpoch := by
  rw [← u.share_self r]
  exact le_total (f := fun _ x => u.share r.connectionId r.reservationEpoch x) hr

theorem live_eq_zero
    (h : ∀ id r, k.reservations.lookup id = some r → r.connectionId = c → r.reservationEpoch ≠ e) :
    k.live u c e = 0 := by
  refine total_eq_zero ?_
  intro id r hr
  exact u.share_ne fun ⟨hc, he⟩ => h id r hr hc he

theorem live_bytes_eq_zero (h : k.live .messages c e = 0) : k.live .bytes c e = 0 := by
  refine live_eq_zero ?_
  rintro id r hr rfl rfl
  have := le_live hr .messages
  rw [h] at this
  simp [Tally.ofReservation] at this

theorem live_insert_new (h : k.reservations.lookup id = none)
    (hk : k'.reservations = k.reservations.insert id r) :
    k'.live u c e = k.live u c e + u.share c e r := by
  unfold Core.live
  rw [hk]
  exact total_insert_new h

section

variable (h : k.reservations.lookup id = some r)

include h

theorem live_phase (p : ReservationPhase)
    (hk : k'.reservations = k.reservations.insert id { r with phase := p }) :
    k'.live u c e = k.live u c e := by
  have hshare : u.share c e { r with phase := p } = u.share c e r := by
    cases u <;> rfl
  have := total_insert (fun _ x => u.share c e x) k.reservations id { r with phase := p }
  rw [share_some h] at this
  unfold Core.live
  rw [hk]
  omega

theorem live_erase (hk : k'.reservations = k.reservations.erase id) :
    k'.live u c e + u.share c e r = k.live u c e := by
  have := total_erase (fun _ x => u.share c e x) k.reservations id
  rw [share_some h] at this
  unfold Core.live
  rw [hk]
  exact this

theorem live_erase_other (hne : c ≠ r.connectionId)
    (hk : k'.reservations = k.reservations.erase id) : k'.live u c e = k.live u c e := by
  have := live_erase (u := u) (c := c) (e := e) h hk
  rwa [u.share_ne (fun h0 => hne h0.1.symm)] at this

end

/-- A queue of the epoch of a live reservation counts it. -/
theorem Balanced.counted (h : Balanced k) (hr : k.reservations.lookup id = some r)
    (hq : k.hub.queues.lookup r.connectionId = some q)
    (he : q.reservationEpoch = r.reservationEpoch) (u : Tally) :
    u.ofReservation r ≤ u.onQueue q := by
  rw [h.counts u _ q hq, he]
  exact le_live hr u

/-! ## 2. Fresh epochs -/

/-- The epoch that comes next on a connection: a new record begins at `0`, and a slow mark or a
forced drain moves an old one on. -/
def Core.nextEpoch (k : Core) (c : ConnectionId) : Nat :=
  match k.hub.queues.lookup c with
  | none => 0
  | some q => (q.reservationEpoch + 1) % 2 ^ 64

theorem Core.nextEpoch_none (h : k.hub.queues.lookup c = none) : k.nextEpoch c = 0 := by
  rw [nextEpoch, h]

theorem Core.nextEpoch_some (h : k.hub.queues.lookup c = some q) :
    k.nextEpoch c = (q.reservationEpoch + 1) % 2 ^ 64 := by
  rw [nextEpoch, h]

/-- Whether a step has put another epoch in force on the connection. -/
def Core.renewed (k k' : Core) (c : ConnectionId) : Bool :=
  (k'.hub.queues.lookup c).any fun q' =>
    (k.hub.queues.lookup c).all fun q => q.reservationEpoch ≠ q'.reservationEpoch

theorem Core.renewed_iff : k.renewed k' c = true ↔ ∃ q', k'.hub.queues.lookup c = some q' ∧
    ∀ q, k.hub.queues.lookup c = some q → q.reservationEpoch ≠ q'.reservationEpoch := by
  simp [renewed, Option.any_eq_true, Option.all_eq_true]

/-- **No live reservation carries the epoch that comes next on its connection**, where a step puts
it in force. -/
def FreshEpochs (k k' : Core) : Prop :=
  ∀ id r, k.reservations.lookup id = some r → k.renewed k' r.connectionId = true →
    r.reservationEpoch ≠ k.nextEpoch r.connectionId

/-- The same over the entries, where it can be evaluated. -/
theorem freshEpochs_iff : FreshEpochs k k' ↔
    ∀ f ∈ k.reservations.entries, k.renewed k' f.2.connectionId = true →
      f.2.reservationEpoch ≠ k.nextEpoch f.2.connectionId :=
  ⟨fun h f hf => h f.1 f.2 (AList.mem_lookup_iff.mpr hf),
    fun h id r hr => h ⟨id, r⟩ (AList.mem_lookup_iff.mp hr)⟩

instance (k k' : Core) : Decidable (FreshEpochs k k') := decidable_of_iff' _ freshEpochs_iff

def FreshStep (config : DeliveryQueueConfig) (w : World) (a : Action) : Prop :=
  ∀ w' ∈ World.step config w a, FreshEpochs w.toCore w'.toCore

instance (config : DeliveryQueueConfig) (w : World) (a : Action) :
    Decidable (FreshStep config w a) :=
  inferInstanceAs (Decidable (∀ w' ∈ World.step config w a, FreshEpochs w.toCore w'.toCore))

/-! ## 3. Idle and settled queues -/

/-- The queue holds nothing and has nothing reserved. -/
structure QueueRecord.Void (q : QueueRecord) : Prop where
  high : q.high = []
  normal : q.normal = []
  reservedMessages : q.reservedMessages = 0

/-- Balanced books, and the two facts that keep them so: a queue that is not open is void, and
once a drain has found nothing left, so is every queue that it will signal. -/
structure Sound (w : World) : Prop where
  balanced : Balanced w.toCore
  idle : ∀ c q, w.hub.queues.lookup c = some q → q.isOpen = false → q.Void
  settled : ∀ id, w.tasks.lookup id = some (.finishing false) → ∀ c q,
    w.hub.queues.lookup c = some q → q.isOpen = true → q.receiverOpen = true → q.Void

theorem QueueRecord.Trimmed.void (h : q.Trimmed q') (hq : q.Void) : q'.Void :=
  ⟨List.eq_nil_of_subset_nil (hq.high ▸ h.high.subset),
    List.eq_nil_of_subset_nil (hq.normal ▸ h.normal.subset),
    h.reservedMessages.trans hq.reservedMessages⟩

theorem QueueRecord.void_reset (q : QueueRecord) : q.cleared.invalidated.Void := ⟨rfl, rfl, rfl⟩

theorem QueueRecord.Void.signalled (h : q.Void) : q.signalled.Void := by
  unfold QueueRecord.signalled
  split
  · exact { h with }
  · exact h

theorem Balanced.not_void (h : Balanced k) (hr : k.reservations.lookup id = some r)
    (hq : k.hub.queues.lookup r.connectionId = some q)
    (he : q.reservationEpoch = r.reservationEpoch) : ¬ q.Void := by
  intro hvoid
  have := h.counted hr hq he .messages
  simp only [Tally.ofReservation, Tally.onQueue, hvoid.reservedMessages] at this
  omega

theorem Sound.idle_move (h : Sound w) (hs : StepMove config w w')
    (hq' : w'.hub.queues.lookup c = some q') (hcl : q'.isOpen = false) : q'.Void := by
  cases hs.effect.origin hq' with
  | opened => cases hcl
  | trimmed hq htrim =>
    rw [htrim.isOpen] at hcl
    exact htrim.void (h.idle c _ hq hcl)
  | reserved _ _ _ _ hopen =>
    rw [reserved_isOpen, hopen] at hcl
    cases hcl
  | slowed => exact ⟨rfl, rfl, rfl⟩
  | admitted _ _ _ _ _ _ hopen =>
    rw [admitted_isOpen, hopen] at hcl
    cases hcl
  | released hr hc hq he =>
    subst hc
    exact absurd (h.idle _ _ hq hcl) (h.balanced.not_void hr hq he)
  | terminated hq hself =>
    have hvoid := h.idle c _ hq (by simp [isOpen, hself])
    exact { hvoid with }
  | abandoned _ _ _ hq =>
    have hvoid := h.idle c _ hq
    exact ⟨(hvoid hcl).high, (hvoid hcl).normal, (hvoid hcl).reservedMessages⟩
  | finished htask hq =>
    rename_i task expired q
    cases expired with
    | true => exact q.void_reset.signalled
    | false =>
      -- what a drain signals without clearing was found empty
      by_cases hopen : q.isOpen = true
      · by_cases hrec : q.receiverOpen = true
        · exact (h.settled task htask c q hq hopen hrec).signalled
        · have hsame : q.signalled = q := by simp [QueueRecord.signalled, hrec]
          have hopen' : (q.finished false).isOpen = q.isOpen := congrArg _ hsame
          rw [hopen', hopen] at hcl
          cases hcl
      · exact (h.idle c q hq (by simpa using hopen)).signalled

theorem Sound.settled_keep (h : Sound w) (hw : Steady w) (hs : StepMove config w w')
    (hdrain : w.hub.draining = true)
    (hstl : ∀ c q, w.hub.queues.lookup c = some q → q.isOpen = true → q.receiverOpen = true →
      q.Void) (hq' : w'.hub.queues.lookup c = some q') (hopen : q'.isOpen = true)
    (hrec : q'.receiverOpen = true) : q'.Void := by
  have hint : w.hub.intakeOpen = false := by
    rw [hw.intake, hdrain]
    rfl
  cases hs.effect.origin hq' with
  | opened hop | reserved _ hop | slowed hop =>
    rw [hint] at hop
    cases hop
  | trimmed hq htrim =>
    rw [htrim.isOpen] at hopen
    rw [htrim.receiverOpen] at hrec
    exact htrim.void (hstl c _ hq hopen hrec)
  | admitted hr hc _ _ hq htrim =>
    -- the reservation would be counted by a queue that counts none
    subst hc
    rw [admitted_isOpen, htrim.isOpen] at hopen
    rw [admitted_receiverOpen, htrim.receiverOpen] at hrec
    refine absurd (hstl _ _ hq hopen hrec) (h.balanced.not_void hr hq ?_)
    rw [hw.openEpochs _ _ hq hopen (.inr hrec), hw.epochs _ _ hr]
  | released hr hc hq he =>
    subst hc
    exact absurd (hstl _ _ hq hopen hrec) (h.balanced.not_void hr hq he)
  | terminated => simp [isOpen] at hopen
  | abandoned => cases hrec
  | finished =>
    rw [finished_isOpen hopen] at hrec
    cases hrec

theorem HubState.Accounted.void {s : HubState} (h : s.Accounted) (hm : s.queuedMessages = 0)
    (hr : s.reservedMessages = 0) (hq : s.queues.lookup c = some q) : q.Void := by
  obtain ⟨h1, -, h3, -, -⟩ := h.le hq
  simp only [QueueRecord.queuedMessages] at h1
  exact ⟨List.length_eq_zero_iff.mp (by omega), List.length_eq_zero_iff.mp (by omega), by omega⟩

theorem Sound.settled_move (h : Sound w) (hw : Steady w) (hs : StepMove config w w')
    (ht : w'.tasks.lookup id = some (.finishing false)) (hq' : w'.hub.queues.lookup c = some q')
    (hopen : q'.isOpen = true) (hrec : q'.receiverOpen = true) : q'.Void := by
  have hold : w.tasks.lookup id = some (.finishing false) → q'.Void := fun h0 =>
    h.settled_keep hw hs (hw.drains id _ h0 (.inr ⟨_, rfl⟩)) (h.settled id h0) hq' hopen hrec
  -- a task that was replaced is not this one
  have hput : ∀ {i : Nat} {t : Task}, t ≠ .finishing false → w'.tasks = w.tasks.insert i t →
      q'.Void := by
    intro i t hne hts
    rw [hts] at ht
    rcases lookup_insert_iff.mp ht with ⟨-, rfl⟩ | ⟨-, h0⟩
    · exact absurd rfl hne
    · exact hold h0
  cases hs.tasks with
  | kept hts => exact hold (hts ▸ ht)
  | spawned hpl hts =>
    refine hput ?_ hts
    rintro rfl
    cases hpl
  | drainSpawned hkind hts =>
    refine hput ?_ hts
    rintro rfl
    rcases hkind with hkind | hkind <;> cases hkind
  | ended _ _ hts | returned _ hts => exact hold (lookup_erase_iff.mp (hts ▸ ht)).2
  | slowed _ _ hts | called _ hts | finished _ hts | timedOut _ _ hts =>
      exact hput (by simp) hts
  | drained _ hmsgs hres hhub =>
    rw [hhub] at hq'
    exact h.balanced.accounted.void hmsgs hres hq'

/-! ## 4. Totals -/

theorem Sound.accounted_move (h : Sound w) (he : Effect config w k) : k.hub.Accounted := by
  have ha := h.balanced.accounted
  cases he with
  | stay | failed | checked => exact ha
  | opened _ habs => exact ha.open habs
  | reserved _ htrim _ _ _ _ _ _ _ hacc | slowed _ htrim _ _ _ _ hacc =>
      exact hacc (htrim.accounted ha)
  | admitted hr _ hadm =>
    refine hadm.accounted (hadm.trim.accounted ha) ?_
    intro hep
    obtain ⟨p, hp, htp, -⟩ := hadm.trim.source hadm.lookup
    have hctd := h.balanced.counted hr hp (htp.reservationEpoch.symm.trans hep)
    rw [htp.reservedMessages, htp.reservedBytes]
    exact ⟨hctd .messages, hctd .bytes⟩
  | released hr =>
    refine ha.releaseReservationLocked ?_
    intro q hq hep
    have hctd := h.balanced.counted hr hq hep
    refine ⟨hctd .messages, hctd .bytes, ?_⟩
    intro hcl
    have hvoid := h.idle _ q hq (by simp [isOpen, hcl])
    exact absurd hvoid (h.balanced.not_void hr hq hep)
  | popped _ _ _ _ _ htrim => exact htrim.accounted ha
  | terminated hq | abandoned _ _ hq => exact ha.flag hq rfl rfl rfl rfl rfl
  | closed _ _ _ hacc => exact hacc ha
  | collected hq hcl hzero =>
    have hvoid := h.idle _ _ hq (by simp [isOpen, hcl])
    refine ha.erase hq hvoid.high hvoid.normal hzero ?_
    have hcts := fun u => h.balanced.counts u _ _ hq
    refine (hcts .bytes).trans (live_bytes_eq_zero ?_)
    exact (hcts .messages).symm.trans hzero
  | beganDrain =>
    unfold HubState.beginDrain
    split
    · exact ha
    · exact { ha with }
  | finished _ hfsh => exact hfsh.accounted ha

/-! ## 5. Reserved counts -/

theorem Tally.onQueue_trimmed (u : Tally) (h : q.Trimmed q') : u.onQueue q' = u.onQueue q := by
  cases u with
  | messages => exact h.reservedMessages
  | bytes => exact h.reservedBytes

theorem Balanced.counts_trimmed (h : Balanced k) (hq : k.hub.queues.lookup c = some q)
    (htrim : q.Trimmed q') : u.onQueue q' = k.live u c q'.reservationEpoch := by
  rw [u.onQueue_trimmed htrim, htrim.reservationEpoch]
  exact h.counts u c q hq

theorem Tally.onQueue_released (u : Tally) (h : u.ofReservation r ≤ u.onQueue q) :
    u.onQueue (q.released r.reservedBytes) + u.ofReservation r = u.onQueue q := by
  cases u with
  | messages | bytes =>
    simp only [Tally.onQueue, Tally.ofReservation, released] at h ⊢
    rw [usizeSub_of_le h]
    omega

theorem Tally.onQueue_pushed (u : Tally) (m : StoredMessage) :
    u.onQueue (q.pushed m) = u.onQueue q := by
  cases u with
  | messages => exact q.pushed_reservedMessages m
  | bytes => exact q.pushed_reservedBytes m

theorem Tally.onQueue_signalled (u : Tally) : u.onQueue q.signalled = u.onQueue q := by
  unfold QueueRecord.signalled
  split
  · cases u <;> rfl
  · rfl

theorem QueueRecord.signalled_epoch (q : QueueRecord) :
    q.signalled.reservationEpoch = q.reservationEpoch := by
  unfold QueueRecord.signalled
  split <;> rfl

/-- Giving a reservation back, to a queue that counts its epoch right. -/
theorem onQueue_giveBack (hr : k.reservations.lookup id = some r)
    (hct : u.onQueue q = k.live u r.connectionId q.reservationEpoch)
    (hk : k'.reservations = k.reservations.erase id) :
    u.onQueue (if q.reservationEpoch = r.reservationEpoch then q.released r.reservedBytes else q) =
      k'.live u r.connectionId q.reservationEpoch := by
  have herase := live_erase (u := u) (c := r.connectionId) (e := q.reservationEpoch) hr hk
  by_cases he : q.reservationEpoch = r.reservationEpoch
  · rw [if_pos he]
    rw [he, u.share_self] at herase
    have hle : u.ofReservation r ≤ u.onQueue q := by
      rw [hct, he]
      omega
    have hrel := u.onQueue_released hle
    rw [hct, he] at hrel
    rw [he]
    omega
  · rw [if_neg he, hct, ← herase, u.share_ne (fun h0 => he h0.2.symm), Nat.add_zero]

theorem QueueRecord.invalidated_epoch (q : QueueRecord) :
    q.reservationEpoch ≠ q.invalidated.reservationEpoch := by
  simp only [invalidated]
  omega

theorem FreshEpochs.live_eq_zero (hf : FreshEpochs k k') (hk : k'.reservations = k.reservations)
    (hq' : k'.hub.queues.lookup c = some q')
    (hnew : ∀ q, k.hub.queues.lookup c = some q → q.reservationEpoch ≠ q'.reservationEpoch)
    (hnext : q'.reservationEpoch = k.nextEpoch c) : k'.live u c q'.reservationEpoch = 0 := by
  refine Delivery.live_eq_zero ?_
  rintro id r hr rfl
  rw [hk] at hr
  rw [hnext]
  exact hf id r hr (Core.renewed_iff.mpr ⟨q', hq', hnew⟩)

/-- **What a step does to the count of a queue**: it keeps its epoch and counts what became of the
reservations, or it comes into the next epoch and counts nothing. -/
inductive Recount (w : World) (k : Core) (c : ConnectionId) (q' : QueueRecord) : Prop
  | kept {q : QueueRecord} (lookup : w.hub.queues.lookup c = some q)
      (epoch : q'.reservationEpoch = q.reservationEpoch)
      (count : ∀ u : Tally, u.onQueue q' = k.live u c q'.reservationEpoch)
  | fresh (reservations : k.reservations = w.reservations) (zero : ∀ u : Tally, u.onQueue q' = 0)
      (epoch : ∀ q, w.hub.queues.lookup c = some q → q.reservationEpoch ≠ q'.reservationEpoch)
      (next : q'.reservationEpoch = w.nextEpoch c)

theorem Balanced.recount (hb : Balanced w.toCore) (hw : Steady w) (he : Effect config w k)
    (hq' : k.hub.queues.lookup c = some q') : Recount w k c q' := by
  -- a queue that was only trimmed, and a connection whose reservations are what they were
  have htrm : ∀ {p q'}, w.hub.queues.lookup c = some p → p.Trimmed q' →
      (∀ u, k.live u c q'.reservationEpoch = w.live u c q'.reservationEpoch) →
      Recount w k c q' := fun hp htp hlive =>
    .kept hp htp.reservationEpoch fun u => (hb.counts_trimmed hp htp).trans (hlive u).symm
  have hsame : w.hub.queues.lookup c = some q' →
      (∀ u, k.live u c q'.reservationEpoch = w.live u c q'.reservationEpoch) →
      Recount w k c q' := fun hq => htrm hq (.refl _)
  cases he with
  | stay => exact hsame hq' fun _ => rfl
  | failed hr | checked hr => exact hsame hq' fun _ => live_phase hr _ rfl
  | opened _ habs =>
    rcases lookup_insert_iff.mp hq' with ⟨rfl, rfl⟩ | ⟨-, hold⟩
    · exact .fresh rfl (fun u => by cases u <;> rfl) (by simp [habs])
        (Core.nextEpoch_none habs).symm
    · exact hsame hold fun _ => rfl
  | @reserved c₀ priority bytes _ _ t _ q _ htrim _ hq _ hedit =>
    rcases hedit.source rfl htrim hq hq' with ⟨rfl, rfl, p, hp, htp⟩ | ⟨hne, p, hp, htp⟩
    · refine .kept hp htp.reservationEpoch fun u => ?_
      have hqueue : u.onQueue (q.reserved bytes) = u.onQueue q +
          u.ofReservation ⟨c, priority, bytes, q.reservationEpoch, .held⟩ := by
        cases u <;> rfl
      rw [live_insert_new hw.fresh rfl, hqueue, hb.counts_trimmed hp htp, ← u.share_self]
      rfl
    · refine htrm hp htp fun u => ?_
      rw [live_insert_new hw.fresh rfl, u.share_ne (fun h0 => hne h0.1.symm), Nat.add_zero]
  | slowed _ htrim _ hq _ hedit =>
    rcases hedit.source rfl htrim hq hq' with ⟨rfl, rfl, p, hp, htp⟩ | ⟨-, p, hp, htp⟩
    · refine .fresh rfl (fun u => by cases u <;> rfl) (fun p' hp' => ?_) ?_
      · cases hp.symm.trans hp'
        rw [← htp.reservationEpoch]
        exact invalidated_epoch _
      · rw [Core.nextEpoch_some hp, ← htp.reservationEpoch]
        rfl
    · exact htrm hp htp fun _ => rfl
  | @admitted id r m o t lost q hr _ hadm =>
    rcases hadm.source hq' with ⟨rfl, rfl, p, hp, htp⟩ | ⟨hne, p, hp, htp⟩
    · have hep := admitted_reservationEpoch q
      refine .kept hp ((hep ..).trans htp.reservationEpoch) fun u => ?_
      rw [hep]
      unfold admitted
      rw [u.onQueue_pushed]
      exact onQueue_giveBack hr (hb.counts_trimmed hp htp) rfl
    · exact htrm hp htp fun _ => live_erase_other hr hne rfl
  | @released id r hr =>
    rcases releaseReservationLocked_source hq' with ⟨hold, hno⟩ | ⟨rfl, q, hq, hep, rfl⟩
    · by_cases hc : c = r.connectionId
      · subst hc
        refine .kept hold rfl fun u => ?_
        refine Eq.trans ?_ (onQueue_giveBack hr (hb.counts u _ q' hold) rfl)
        rw [if_neg (hno rfl)]
      · exact hsame hold fun _ => live_erase_other hr hc rfl
    · refine .kept hq rfl fun u => ?_
      refine Eq.trans ?_ (onQueue_giveBack (q := q) hr (hb.counts u _ q hq) rfl)
      rw [if_pos hep]
  | popped _ _ _ _ _ htrim =>
    obtain ⟨p, hp, htp, -⟩ := htrim.source hq'
    exact htrm hp htp fun _ => rfl
  | terminated hq | abandoned _ _ hq =>
    rcases lookup_insert_iff.mp hq' with ⟨rfl, rfl⟩ | ⟨-, hold⟩
    · refine .kept hq rfl fun u => ?_
      have := hb.counts u _ _ hq
      cases u <;> exact this
    · exact hsame hold fun _ => rfl
  | closed _ hedit =>
    rcases hedit.cases hq' with ⟨-, hnew⟩ | ⟨-, hold⟩
    · cases hnew
    · exact hsame hold fun _ => rfl
  | collected => exact hsame (lookup_erase_iff.mp hq').2 fun _ => rfl
  | beganDrain =>
    simp only [beginDrain_queues] at hq'
    exact hsame hq' fun _ => rfl
  | @finished task expired o _ hfsh =>
    simp only [hfsh.lookup, Option.map_eq_some_iff] at hq'
    obtain ⟨q, hq, rfl⟩ := hq'
    cases expired with
    | false =>
      refine .kept hq q.signalled_epoch fun u => ?_
      unfold finished
      rw [u.onQueue_signalled, signalled_epoch]
      exact hb.counts u c q hq
    | true =>
      unfold finished
      refine .fresh rfl (fun u => ?_) (fun p hp => ?_) ?_
      · rw [u.onQueue_signalled]
        cases u <;> rfl
      · cases hq.symm.trans hp
        rw [signalled_epoch]
        exact q.cleared.invalidated_epoch
      · rw [signalled_epoch, Core.nextEpoch_some hq]
        rfl

theorem Sound.counts_move (h : Sound w) (hw : Steady w) (he : Effect config w k)
    (hf : FreshEpochs w.toCore k) (hq' : k.hub.queues.lookup c = some q') :
    u.onQueue q' = k.live u c q'.reservationEpoch := by
  cases h.balanced.recount hw he hq' with
  | kept _ _ hct => exact hct u
  | fresh hk hzero hnew hnext => rw [hzero, hf.live_eq_zero hk hq' hnew hnext]

/-- **An epoch that is not fresh upsets the books at once**: the record counts nothing, and the
reservation is there. -/
theorem Sound.freshEpochs_of_counts (h : Sound w) (hw : Steady w) (he : Effect config w k)
    (hcts : ∀ c q, k.hub.queues.lookup c = some q →
      q.reservedMessages = k.live .messages c q.reservationEpoch) : FreshEpochs w.toCore k := by
  intro id r hr hrenewed hep
  obtain ⟨q', hq', hnew⟩ := Core.renewed_iff.mp hrenewed
  cases h.balanced.recount hw he hq' with
  | kept hq hsame => exact hnew _ hq hsame.symm
  | fresh hk hzero _ hnext =>
    have hle := le_live (k := k) (hk ▸ hr) .messages
    rw [hep, ← hnext, ← hcts _ q' hq'] at hle
    exact absurd (hzero .messages) (Nat.ne_of_gt hle)

/-! ## 6. Runs -/

theorem Sound.move (h : Sound w) (hw : Steady w) (hs : StepMove config w w')
    (hf : FreshEpochs w.toCore w'.toCore) : Sound w' where
  balanced := ⟨h.accounted_move hs.effect, fun _ _ _ hq => h.counts_move hw hs.effect hf hq⟩
  idle := fun _ _ hq hcl => h.idle_move hs hq hcl
  settled := fun _ ht _ _ hq hopen hrec => h.settled_move hw hs ht hq hopen hrec

theorem sound_start (registryConfig : RegistryConfig) : Sound (.start registryConfig) where
  balanced := ⟨⟨rfl, rfl, rfl, rfl, rfl, nofun, rfl⟩, nofun⟩
  idle := nofun
  settled := nofun

theorem sound_reach {registryConfig : RegistryConfig} {P : World → Action → Prop}
    (hP : ∀ w a, P w a → FreshStep config w a)
    (h : (delivery registryConfig config).ReachIf P (delivery registryConfig config).start w) :
    Sound w ∧ Steady w := by
  refine h.invariant (I := fun w => Sound w ∧ Steady w)
    ⟨sound_start registryConfig, steady_start registryConfig⟩ ?_
  intro u a v hu hPa hst
  have hmove := step_move hu.2.typed hst
  exact ⟨hu.1.move hu.2 hmove (hP u a hPa v hst), hu.2.move hmove⟩

/-- **The accounting invariant of the hub, and when it holds.**  In every interleaving whose steps
are all fresh the books are balanced; and from a world that such steps have reached, whatever is
done next leaves them balanced exactly when it is fresh too. -/
theorem accounting_iff_freshEpochs {registryConfig : RegistryConfig}
    (h : (delivery registryConfig config).ReachIf (FreshStep config)
      (delivery registryConfig config).start w) :
    Balanced w.toCore ∧
      ∀ a w', (delivery registryConfig config).step w a = some w' →
        (Balanced w'.toCore ↔ FreshEpochs w.toCore w'.toCore) := by
  obtain ⟨hsd, hstdy⟩ := sound_reach (fun _ _ hP => hP) h
  refine ⟨hsd.balanced, ?_⟩
  intro a w' hst
  have hmove := step_move hstdy.typed hst
  constructor
  · intro hbal
    exact hsd.freshEpochs_of_counts hstdy hmove.effect (hbal.counts .messages)
  · intro hfr
    exact (hsd.move hstdy hmove hfr).balanced

end

/-! ## 7. A connection reopened under a live reservation -/

def smallRegistry : RegistryConfig := ⟨4, 4, 4⟩

def oneSlot : DeliveryQueueConfig := ⟨1, 65536, 65536, 10000000⟩

example : DeliveryQueueConfig.new 1 65536 65536 10000000 = .ok oneSlot := rfl

def firstConnection : ConnectionId := ⟨1⟩

/-- A message of 32 bytes, for no subscription. -/
def plainPayload : Payload := ⟨List.replicate 32 0, ⟨"chat.message"⟩, none⟩

/-- The connection is registered, activated and opened: its receiver is number `1`. -/
def opening : List Action :=
  [.registry (.register firstConnection ⟨⟨9⟩, some ⟨7⟩⟩), .registry (.activate firstConnection),
    .openCheck firstConnection, .openLock 0]

/-- A slot is reserved; a second `open_connection` passes its registry check; the connection is
closed under it. -/
def closedUnderOpen : List Action :=
  opening ++ [.reserveCheck firstConnection .normal 4096 none, .reserveLock 2,
    .openCheck firstConnection, .closeLock firstConnection]

/-- The books are balanced up to there, and the second `open_connection` upsets them. -/
theorem accounting_iff_freshEpochs_closedUnderOpen :
    ∃ w w', (delivery smallRegistry oneSlot).ReachIf (FreshStep oneSlot)
        (delivery smallRegistry oneSlot).start w ∧
      Balanced w.toCore ∧ (delivery smallRegistry oneSlot).step w (.openLock 3) = some w' ∧
      ¬ Balanced w'.toCore := by
  have hre := Machine.reachIf_of_runIf (M := delivery smallRegistry oneSlot)
    (P := FreshStep oneSlot) (s := (delivery smallRegistry oneSlot).start) closedUnderOpen rfl
  have h := accounting_iff_freshEpochs hre
  exact ⟨_, _, hre, h.1, rfl, fun hbal => absurd ((h.2 (.openLock 3) _ rfl).mp hbal) (by decide)⟩

/-- **Dropping the old reservation then underflows**: the fresh record has nothing reserved. -/
theorem reopened_release_underflows :
    ∃ w, (delivery smallRegistry oneSlot).Reach (delivery smallRegistry oneSlot).start w ∧
      w.hub.underflow = true ∧ w.hub.reservedMessages = 2 ^ 64 - 1 ∧ ¬ Balanced w.toCore := by
  refine ⟨_, Machine.reach_of_run (closedUnderOpen ++ [.openLock 3, .release 0]) rfl, rfl,
    by decide, ?_⟩
  intro hbal
  exact absurd hbal.accounted.underflow (by decide)

end Omnius.Realtime.Delivery
