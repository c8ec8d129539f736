/-
# What holds in every run

No condition on the run here.  The facts that make the rest possible are about EPOCHS: a
reservation is only ever made in epoch `0`, because a queue whose epoch moved is never open to
reservations again.  `mark_slow_locked` moves it and sets a terminal; a forced `finish_drain` moves
it after the intake has been closed for good.  So an epoch says no more than "was this record reset
since", and every fresh record starts at `0` again.
-/
import Omnius.Realtime.Delivery.Step

namespace Omnius.Realtime.Delivery

open Omnius.Lib Table QueueRecord

/-! ## 1. Records -/

namespace QueueRecord

variable (q : QueueRecord) (bytes epoch : Nat) (m : StoredMessage)

@[simp] theorem pushed_reservedMessages : (q.pushed m).reservedMessages = q.reservedMessages := by
  unfold pushed
  split <;> rfl

@[simp] theorem pushed_reservedBytes : (q.pushed m).reservedBytes = q.reservedBytes := by
  unfold pushed
  split <;> rfl

@[simp] theorem pushed_reservationEpoch :
    (q.pushed m).reservationEpoch = q.reservationEpoch := by
  unfold pushed
  split <;> rfl

@[simp] theorem pushed_receiverOpen : (q.pushed m).receiverOpen = q.receiverOpen := by
  unfold pushed
  split <;> rfl

@[simp] theorem pushed_isOpen : (q.pushed m).isOpen = q.isOpen := by
  unfold pushed
  split <;> rfl

@[simp] theorem reserved_isOpen : (q.reserved bytes).isOpen = q.isOpen := rfl

@[simp] theorem released_isOpen : (q.released bytes).isOpen = q.isOpen := rfl

@[simp] theorem admitted_isOpen : (q.admitted bytes epoch m).isOpen = q.isOpen := by
  unfold admitted
  split <;> simp

@[simp] theorem admitted_reservationEpoch :
    (q.admitted bytes epoch m).reservationEpoch = q.reservationEpoch := by
  unfold admitted
  split <;> simp [released]

@[simp] theorem admitted_receiverOpen :
    (q.admitted bytes epoch m).receiverOpen = q.receiverOpen := by
  unfold admitted
  split <;> simp [released]

@[simp] theorem slowed_isOpen : q.slowed.isOpen = false := by
  simp [slowed, isOpen]

variable {q : QueueRecord} {expired : Bool}

theorem signalled_isOpen (h : q.signalled.isOpen = true) : q.signalled.receiverOpen = false := by
  unfold signalled at h ⊢
  split at h
  · simp [isOpen] at h
  · rename_i hno
    rw [if_neg hno]
    simp only [isOpen, Bool.and_eq_true, Bool.not_eq_true'] at h
    simpa [h.1] using hno

theorem finished_isOpen (h : (q.finished expired).isOpen = true) :
    (q.finished expired).receiverOpen = false :=
  signalled_isOpen h

theorem signalled_wasOpen (h : q.signalled.isOpen = true) : q.isOpen = true := by
  unfold signalled at h
  split at h
  · simp [isOpen] at h
  · exact h

theorem finished_wasOpen (h : (q.finished expired).isOpen = true) : q.isOpen = true := by
  have hbef := signalled_wasOpen h
  cases expired <;> exact hbef

theorem Typed.pushed (h : q.Typed) (m : StoredMessage) : (q.pushed m).Typed := by
  unfold QueueRecord.pushed
  split
  · rename_i hm
    exact ⟨h.high, List.forall_mem_append.mpr ⟨h.normal, List.forall_mem_singleton.mpr hm⟩⟩
  · rename_i hm
    exact ⟨List.forall_mem_append.mpr ⟨h.high, List.forall_mem_singleton.mpr hm⟩, h.normal⟩

theorem Typed.released (h : q.Typed) (bytes : Nat) : (q.released bytes).Typed :=
  ⟨h.high, h.normal⟩

theorem Typed.finished (h : q.Typed) (expired : Bool) : (q.finished expired).Typed := by
  unfold QueueRecord.finished signalled
  cases expired with
  | false =>
    simp only [Bool.false_eq_true, if_false]
    split
    · exact ⟨h.high, h.normal⟩
    · exact h
  | true =>
    simp only [if_true]
    split
    · exact ⟨by simp [cleared, invalidated], by simp [cleared, invalidated]⟩
    · exact ⟨by simp [cleared, invalidated], by simp [cleared, invalidated]⟩

end QueueRecord

/-! ## 2. Flags and reservations -/

section

variable {config : DeliveryQueueConfig} {w w' : World} {k : Core} {c : ConnectionId} {id : Nat}

theorem beginDrain_flags {s : HubState} (h : s.intakeOpen = !s.draining) :
    s.beginDrain.intakeOpen = false ∧ s.beginDrain.draining = true := by
  unfold HubState.beginDrain
  split
  · rename_i hd
    exact ⟨by simp [h, hd], hd⟩
  · exact ⟨rfl, rfl⟩

theorem stamp_flags (s : HubState) (m : StoredMessage) :
    (s.stamp m).2.intakeOpen = s.intakeOpen ∧ (s.stamp m).2.draining = s.draining := by
  unfold HubState.stamp
  split <;> exact ⟨rfl, rfl⟩

theorem Effect.flags (he : Effect config w k) :
    (k.hub.intakeOpen = w.hub.intakeOpen ∧ k.hub.draining = w.hub.draining) ∨
      k.hub = w.hub.beginDrain := by
  cases he with
  | stay | failed | checked | opened | terminated | collected | abandoned => exact .inl ⟨rfl, rfl⟩
  | reserved _ htrim _ _ _ hedit | slowed _ htrim _ _ _ hedit =>
    exact .inl ⟨hedit.intakeOpen.trans htrim.intakeOpen, hedit.draining.trans htrim.draining⟩
  | admitted _ _ hadm =>
    have hstamp := stamp_flags
    exact .inl ⟨hadm.edit.intakeOpen.trans ((hstamp _ _).1.trans hadm.trim.intakeOpen),
      hadm.edit.draining.trans ((hstamp _ _).2.trans hadm.trim.draining)⟩
  | released =>
    rename_i r _
    rcases releaseReservationLocked_cases w.hub r.connectionId r.reservedBytes r.reservationEpoch
      with ⟨hsame, -⟩ | ⟨q, -, -, ⟨-, -, hedit⟩ | hedit⟩
    · exact .inl ⟨congrArg _ hsame, congrArg _ hsame⟩
    · exact .inl ⟨hedit.intakeOpen, hedit.draining⟩
    · exact .inl ⟨hedit.intakeOpen, hedit.draining⟩
  | popped _ _ _ _ _ htrim => exact .inl ⟨htrim.intakeOpen, htrim.draining⟩
  | closed _ hedit => exact .inl ⟨hedit.intakeOpen, hedit.draining⟩
  | beganDrain => exact .inr rfl
  | finished _ hfsh => exact .inl ⟨hfsh.intakeOpen, hfsh.draining⟩

/-- **A reservation after a step** is an old one, possibly in another phase, or a new one in an
open queue. -/
inductive Held (w : World) (k : Core) (id : Nat) (r' : Reservation) : Prop
  | old {r : Reservation} (lookup : w.reservations.lookup id = some r)
      (connectionId : r'.connectionId = r.connectionId)
      (reservedBytes : r'.reservedBytes = r.reservedBytes)
      (reservationEpoch : r'.reservationEpoch = r.reservationEpoch)
      (phase : ∀ m, r'.phase = .checked m → r.phase = .checked m ∨
        m.encoded.length ≤ r.reservedBytes)
  | new {q : QueueRecord} (self : id = w.nextReservation) (fresh : id < k.nextReservation)
      (phase : r'.phase = .held) (intake : w.hub.intakeOpen = true)
      (lookup : w.hub.queues.lookup r'.connectionId = some q)
      (isOpen : q.isOpen = true) (epoch : r'.reservationEpoch = q.reservationEpoch)

theorem Effect.held (he : Effect config w k) {r' : Reservation}
    (hr' : k.reservations.lookup id = some r') : Held w k id r' := by
  have hsame : w.reservations.lookup id = some r' → Held w k id r' :=
    fun h => .old h rfl rfl rfl fun _ hm => .inl hm
  cases he with
  | stay | opened | slowed | popped | terminated | closed | collected | abandoned | beganDrain
  | finished => exact hsame hr'
  | admitted | released => exact hsame (lookup_erase_iff.mp hr').2
  | reserved hint htrim _ hq hopen =>
    rcases lookup_insert_iff.mp hr' with ⟨rfl, rfl⟩ | ⟨-, hold⟩
    · obtain ⟨p, hp, htp, -⟩ := htrim.source hq
      exact .new rfl (Nat.lt_succ_self _) rfl hint hp (htp.isOpen ▸ hopen) htp.reservationEpoch
    · exact hsame hold
  | failed hr =>
    rcases lookup_insert_iff.mp hr' with ⟨rfl, rfl⟩ | ⟨-, hold⟩
    · refine .old hr rfl rfl rfl ?_
      intro m hm
      cases hm
    · exact hsame hold
  | checked hr hfits =>
    rcases lookup_insert_iff.mp hr' with ⟨rfl, rfl⟩ | ⟨-, hold⟩
    · refine .old hr rfl rfl rfl ?_
      intro m hm
      cases hm
      exact .inr hfits
    · exact hsame hold

theorem Effect.nextReservation (he : Effect config w k) :
    w.nextReservation ≤ k.nextReservation := by
  cases he with
  | reserved => exact Nat.le_succ _
  | _ => exact le_rfl

/-! ## 3. The invariant -/

/-- **What holds in every reachable world.** -/
structure Steady (w : World) : Prop where
  typed : w.hub.Typed
  /-- The intake is open until a drain begins. -/
  intake : w.hub.intakeOpen = !w.hub.draining
  /-- A drain in progress has closed it. -/
  drains : ∀ id t, w.tasks.lookup id = some t → (t = .draining ∨ ∃ e, t = .finishing e) →
    w.hub.draining = true
  ids : ∀ id r, w.reservations.lookup id = some r → id < w.nextReservation
  taskIds : ∀ id t, w.tasks.lookup id = some t → id < w.nextId
  /-- Every live reservation was made in epoch `0`. -/
  epochs : ∀ id r, w.reservations.lookup id = some r → r.reservationEpoch = 0
  /-- So are the queues that can still be reserved in, or still have a receiver to be told. -/
  openEpochs : ∀ c q, w.hub.queues.lookup c = some q → q.isOpen = true →
    (w.hub.intakeOpen = true ∨ q.receiverOpen = true) → q.reservationEpoch = 0
  /-- What is about to be admitted fits its reservation. -/
  fits : ∀ id r m, w.reservations.lookup id = some r → r.phase = .checked m →
    m.encoded.length ≤ r.reservedBytes

/-- The next reservation's number is not in use. -/
theorem Steady.fresh (hw : Steady w) : w.reservations.lookup w.nextReservation = none := by
  cases hr : w.reservations.lookup w.nextReservation with
  | none => rfl
  | some r => exact absurd (hw.ids _ r hr) (Nat.lt_irrefl _)

theorem steady_start (registryConfig : RegistryConfig) : Steady (.start registryConfig) where
  typed := nofun
  intake := rfl
  drains := nofun
  ids := nofun
  taskIds := nofun
  epochs := nofun
  openEpochs := nofun
  fits := nofun

section

variable (hs : StepMove config w w') (hw : Steady w)

include hs hw

theorem StepMove.draining (h : w.hub.draining = true) : w'.hub.draining = true := by
  rcases hs.effect.flags with ⟨-, hd⟩ | hb
  · exact hd.trans h
  · rw [hb]
    exact (beginDrain_flags hw.intake).2

theorem StepMove.intake :
    w'.hub.intakeOpen = !w'.hub.draining := by
  rcases hs.effect.flags with ⟨hi, hd⟩ | hb
  · rw [hi, hd]
    exact hw.intake
  · rw [hb, (beginDrain_flags hw.intake).1, (beginDrain_flags hw.intake).2]
    rfl

theorem StepMove.intake_was (h : w'.hub.intakeOpen = true) : w.hub.intakeOpen = true := by
  rcases hs.effect.flags with ⟨hi, -⟩ | hb
  · exact hi.symm.trans h
  · rw [hb, (beginDrain_flags hw.intake).1] at h
    cases h

theorem StepMove.typed : w'.hub.Typed := by
  intro c q' hq'
  cases hs.effect.origin hq' with
  | opened => exact ⟨by simp [QueueRecord.new], by simp [QueueRecord.new]⟩
  | trimmed hq htrim => exact htrim.typed (hw.typed c _ hq)
  | reserved _ _ hq htrim =>
    have hty := htrim.typed (hw.typed c _ hq)
    exact ⟨hty.high, hty.normal⟩
  | slowed =>
    exact ⟨by simp [slowed, invalidated, cleared],
      by simp [slowed, invalidated, cleared]⟩
  | admitted _ _ _ _ hq htrim =>
    have hty := htrim.typed (hw.typed c _ hq)
    unfold admitted
    split
    · exact (hty.released _).pushed _
    · exact hty.pushed _
  | released _ _ hq => exact (hw.typed c _ hq).released _
  | terminated hq | abandoned _ _ _ hq => exact ⟨(hw.typed c _ hq).high, (hw.typed c _ hq).normal⟩
  | finished _ hq => exact (hw.typed c _ hq).finished _

theorem StepMove.openEpochs {q' : QueueRecord}
    (hq' : w'.hub.queues.lookup c = some q') (hopen : q'.isOpen = true)
    (hlive : w'.hub.intakeOpen = true ∨ q'.receiverOpen = true) : q'.reservationEpoch = 0 := by
  have hlive' : w.hub.intakeOpen = true ∨ q'.receiverOpen = true :=
    hlive.imp_left (hs.intake_was hw)
  cases hs.effect.origin hq' with
  | opened => rfl
  | trimmed hq htrim =>
    rw [htrim.isOpen] at hopen
    rw [htrim.receiverOpen] at hlive'
    exact htrim.reservationEpoch.trans (hw.openEpochs c _ hq hopen hlive')
  | reserved _ hint hq htrim hp =>
    rw [htrim.isOpen] at hp
    exact htrim.reservationEpoch.trans (hw.openEpochs c _ hq hp (.inl hint))
  | slowed => simp at hopen
  | admitted _ _ _ _ hq htrim hp =>
    rw [htrim.isOpen] at hp
    rw [admitted_receiverOpen, htrim.receiverOpen] at hlive'
    rw [admitted_reservationEpoch]
    exact htrim.reservationEpoch.trans (hw.openEpochs c _ hq hp hlive')
  | released _ _ hq =>
    have hzero := hw.openEpochs c _ hq
    exact hzero hopen hlive'
  | terminated => simp [isOpen] at hopen
  | abandoned _ _ _ hq =>
    have hzero := hw.openEpochs c _ hq
    exact hzero hopen (.inl (hlive'.resolve_right (by simp)))
  | finished htask =>
    -- the intake is closed, and an open queue has no receiver left
    have hdraining := hw.drains _ _ htask (.inr ⟨_, rfl⟩)
    have hint := hw.intake
    rw [hdraining] at hint
    rw [finished_isOpen hopen, hint] at hlive'
    simp at hlive'

end

variable {t : Task}

theorem StepMove.drains (hs : StepMove config w w') (hw : Steady w)
    (ht : w'.tasks.lookup id = some t) (hkind : t = .draining ∨ ∃ e, t = .finishing e) :
    w'.hub.draining = true := by
  have hnot : t.isPlain = false := by
    rcases hkind with rfl | ⟨e, rfl⟩ <;> rfl
  have hcalling : ∀ todo o, t ≠ .calling todo o := by
    rintro todo o rfl
    rcases hkind with h | ⟨e, h⟩ <;> cases h
  have hold : w.tasks.lookup id = some t → w'.hub.draining = true :=
    fun h => hs.draining hw (hw.drains id t h hkind)
  cases hs.tasks with
  | kept hts => exact hold (hts ▸ ht)
  | spawned hpl hts =>
    rw [hts] at ht
    rcases lookup_insert_iff.mp ht with ⟨-, rfl⟩ | ⟨-, h⟩
    · rw [hnot] at hpl
      cases hpl
    · exact hold h
  | drainSpawned _ _ _ hhub =>
    rw [hhub]
    exact (beginDrain_flags hw.intake).2
  | ended _ _ hts | returned _ hts => exact hold (lookup_erase_iff.mp (hts ▸ ht)).2
  | slowed _ _ hts | called _ hts | finished _ hts =>
    rw [hts] at ht
    rcases lookup_insert_iff.mp ht with ⟨-, rfl⟩ | ⟨-, h⟩
    · exact absurd rfl (hcalling _ _)
    · exact hold h
  | drained hlk _ _ hhub | timedOut hlk hhub =>
    rw [hhub]
    exact hw.drains _ _ hlk (.inl rfl)

theorem StepMove.taskIds (hs : StepMove config w w') (hw : Steady w)
    (ht : w'.tasks.lookup id = some t) : id < w'.nextId := by
  have hold : ∀ t', w.tasks.lookup id = some t' → id < w'.nextId :=
    fun t' h => (hw.taskIds id t' h).trans_le hs.nextId
  -- a task is replaced under its own id
  have hput : ∀ {i : Nat} {t₀ t₁ : Task}, w.tasks.lookup i = some t₀ →
      w'.tasks = w.tasks.insert i t₁ → id < w'.nextId := by
    intro i t₀ t₁ hi hts
    rw [hts] at ht
    rcases lookup_insert_iff.mp ht with ⟨rfl, -⟩ | ⟨-, h⟩
    · exact hold _ hi
    · exact hold _ h
  have hspawn : ∀ {t₁ : Task}, w'.tasks = w.tasks.insert w.nextId t₁ →
      w'.nextId = w.nextId + 1 → id < w'.nextId := by
    intro t₁ hts hnext
    rw [hts] at ht
    rcases lookup_insert_iff.mp ht with ⟨rfl, -⟩ | ⟨-, h⟩
    · omega
    · exact hold _ h
  cases hs.tasks with
  | kept hts => exact hold _ (hts ▸ ht)
  | spawned _ hts hnext | drainSpawned _ hts hnext => exact hspawn hts hnext
  | ended _ _ hts | returned _ hts => exact hold _ (lookup_erase_iff.mp (hts ▸ ht)).2
  | slowed hlk _ hts | called hlk hts | finished hlk hts
  | drained hlk _ _ _ hts | timedOut hlk _ hts => exact hput hlk hts

theorem Steady.move (hw : Steady w) (hs : StepMove config w w') : Steady w' where
  typed := hs.typed hw
  intake := hs.intake hw
  drains := fun _ _ ht hkind => hs.drains hw ht hkind
  taskIds := fun _ _ ht => hs.taskIds hw ht
  openEpochs := fun _ _ hq hopen hlive => hs.openEpochs hw hq hopen hlive
  ids := by
    intro id r' hr'
    cases hs.effect.held hr' with
    | old hr => exact (hw.ids id _ hr).trans_le hs.effect.nextReservation
    | new _ hfr => exact hfr
  epochs := by
    intro id r' hr'
    cases hs.effect.held hr' with
    | old hr _ _ hep => exact hep.trans (hw.epochs id _ hr)
    | new _ _ _ hint hq hopen hep =>
      exact hep.trans (hw.openEpochs _ _ hq hopen (.inl hint))
  fits := by
    intro id r' m hr' hm
    cases hs.effect.held hr' with
    | old hr _ hby _ hph =>
      rw [hby]
      rcases hph m hm with hm | hm
      · exact hw.fits id _ m hr hm
      · exact hm
    | new _ _ hheld =>
      rw [hheld] at hm
      cases hm

end

end Omnius.Realtime.Delivery
