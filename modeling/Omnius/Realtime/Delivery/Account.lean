/-
# Running totals that agree with their queues

`HubState.Accounted` says that the five totals are the sums over the queues, that each queue's
byte count is the bytes in its two deques, and that no subtraction has underflowed.  This file is
about ONE section at a time: given an accounted state, which pieces of a section leave an
accounted state, and what they do to each queue.

The pieces that only throw messages away are all instances of `Trim`: every queue keeps its
reservations, its epoch and its flags, and loses some messages, each of which is listed.  Purging
a generation, making room on one connection, making room in the whole hub and popping a message
are trims, and trims compose.
-/
import Omnius.Realtime.Delivery.World

namespace Omnius.Realtime.Delivery

open Omnius.Lib List Table HubState

/-! ## 1. Accounted states -/

theorem bytesOf_append (l l' : List StoredMessage) :
    bytesOf (l ++ l') = bytesOf l + bytesOf l' := by
  simp [bytesOf]

@[simp] theorem bytesOf_nil : bytesOf [] = 0 := rfl

namespace HubState

/-- The totals are sums over the queues, and nothing has underflowed. -/
structure Accounted (s : HubState) : Prop where
  queuedMessages : s.queuedMessages = s.queues.total fun _ q => q.queuedMessages
  queuedBytes : s.queuedBytes = s.queues.total fun _ q => q.queuedBytes
  reservedMessages : s.reservedMessages = s.queues.total fun _ q => q.reservedMessages
  reservedBytes : s.reservedBytes = s.queues.total fun _ q => q.reservedBytes
  highPriorityMessages : s.highPriorityMessages = s.queues.total fun _ q => q.high.length
  bytes : ∀ c q, s.queues.lookup c = some q → q.queuedBytes = bytesOf q.high + bytesOf q.normal
  underflow : s.underflow = false

variable {s s' : HubState} {c : ConnectionId} {q q' : QueueRecord}

section

variable (h : s.Accounted)

include h

theorem Accounted.le (hq : s.queues.lookup c = some q) :
    q.queuedMessages ≤ s.queuedMessages ∧ q.queuedBytes ≤ s.queuedBytes ∧
      q.reservedMessages ≤ s.reservedMessages ∧ q.reservedBytes ≤ s.reservedBytes ∧
      q.high.length ≤ s.highPriorityMessages := by
  rw [h.queuedMessages, h.queuedBytes, h.reservedMessages, h.reservedBytes, h.highPriorityMessages]
  exact ⟨le_total (f := fun _ q => q.queuedMessages) hq,
    le_total (f := fun _ q => q.queuedBytes) hq,
    le_total (f := fun _ q => q.reservedMessages) hq,
    le_total (f := fun _ q => q.reservedBytes) hq,
    le_total (f := fun _ q => q.high.length) hq⟩

/-- **One queue gives way to another**: each total has to move by what the queue's own number
moves.  A queue that is added comes in the place of an empty one, and one that is removed leaves an
empty one. -/
theorem Accounted.moved {p : QueueRecord}
    (hqs : ∀ f : QueueRecord → Nat, f .new = 0 →
      (s'.queues.total fun _ q => f q) + f q = (s.queues.total fun _ q => f q) + f p)
    (hqm : s'.queuedMessages + q.queuedMessages = s.queuedMessages + p.queuedMessages)
    (hqb : s'.queuedBytes + q.queuedBytes = s.queuedBytes + p.queuedBytes)
    (hrm : s'.reservedMessages + q.reservedMessages = s.reservedMessages + p.reservedMessages)
    (hrb : s'.reservedBytes + q.reservedBytes = s.reservedBytes + p.reservedBytes)
    (hhi : s'.highPriorityMessages + q.high.length = s.highPriorityMessages + p.high.length)
    (hby : ∀ d q, s'.queues.lookup d = some q → q.queuedBytes = bytesOf q.high + bytesOf q.normal)
    (hunder : s'.underflow = false) : s'.Accounted := by
  have k1 := hqs QueueRecord.queuedMessages rfl
  have k2 := hqs QueueRecord.queuedBytes rfl
  have k3 := hqs QueueRecord.reservedMessages rfl
  have k4 := hqs QueueRecord.reservedBytes rfl
  have k5 := hqs (fun q => q.high.length) rfl
  refine ⟨?_, ?_, ?_, ?_, ?_, hby, hunder⟩
  · have := h.queuedMessages
    omega
  · have := h.queuedBytes
    omega
  · have := h.reservedMessages
    omega
  · have := h.reservedBytes
    omega
  · have := h.highPriorityMessages
    omega

theorem Accounted.replace (hq : s.queues.lookup c = some q) (hqs : s'.queues = s.queues.insert c q')
    (hqm : s'.queuedMessages + q.queuedMessages = s.queuedMessages + q'.queuedMessages)
    (hqb : s'.queuedBytes + q.queuedBytes = s.queuedBytes + q'.queuedBytes)
    (hrm : s'.reservedMessages + q.reservedMessages = s.reservedMessages + q'.reservedMessages)
    (hrb : s'.reservedBytes + q.reservedBytes = s.reservedBytes + q'.reservedBytes)
    (hhi : s'.highPriorityMessages + q.high.length = s.highPriorityMessages + q'.high.length)
    (hby : q'.queuedBytes = bytesOf q'.high + bytesOf q'.normal)
    (hunder : s'.underflow = false) : s'.Accounted := by
  refine h.moved (fun f _ => ?_) hqm hqb hrm hrb hhi ?_ hunder
  · have := total_insert (fun _ q => f q) s.queues c q'
    rwa [share_some hq, ← hqs] at this
  · rw [hqs]
    exact forall_lookup_insert hby h.bytes

theorem Accounted.flag (hq : s.queues.lookup c = some q)
    (hhigh : q'.high = q.high) (hnrm : q'.normal = q.normal)
    (hby : q'.queuedBytes = q.queuedBytes) (hrm : q'.reservedMessages = q.reservedMessages)
    (hrb : q'.reservedBytes = q.reservedBytes) :
    Accounted { s with queues := s.queues.insert c q' } := by
  refine h.replace hq rfl ?_ ?_ ?_ ?_ ?_ ?_ h.underflow
  · simp [QueueRecord.queuedMessages, hhigh, hnrm]
  · simp [hby]
  · simp [hrm]
  · simp [hrb]
  · simp [hhigh]
  · rw [hby, hhigh, hnrm]
    exact h.bytes c q hq

theorem Accounted.open (hc : s.queues.lookup c = none) :
    Accounted { s with queues := s.queues.insert c .new } := by
  refine h.moved (q := .new) (p := .new) (fun f hf => ?_) rfl rfl rfl rfl rfl
    (forall_lookup_insert rfl h.bytes) h.underflow
  rw [total_insert_new hc, hf]

theorem Accounted.remove (hq : s.queues.lookup c = some q) (hqs : s'.queues = s.queues.erase c)
    (hqm : s'.queuedMessages + q.queuedMessages = s.queuedMessages)
    (hqb : s'.queuedBytes + q.queuedBytes = s.queuedBytes)
    (hrm : s'.reservedMessages + q.reservedMessages = s.reservedMessages)
    (hrb : s'.reservedBytes + q.reservedBytes = s.reservedBytes)
    (hhi : s'.highPriorityMessages + q.high.length = s.highPriorityMessages)
    (hunder : s'.underflow = false) : s'.Accounted := by
  refine h.moved (p := .new) (fun f hf => ?_) hqm hqb hrm hrb hhi ?_ hunder
  · have := total_erase (fun _ q => f q) s.queues c
    rwa [share_some hq, ← hqs, ← add_zero (s.queues.total _), ← hf] at this
  · rw [hqs]
    exact fun d p hp => h.bytes d p (lookup_erase_iff.mp hp).2

theorem Accounted.erase (hq : s.queues.lookup c = some q)
    (hhigh : q.high = []) (hnrm : q.normal = []) (hrm : q.reservedMessages = 0)
    (hrb : q.reservedBytes = 0) : Accounted { s with queues := s.queues.erase c } := by
  have hzero := h.bytes c q hq
  rw [hhigh, hnrm, bytesOf_nil] at hzero
  refine h.remove hq rfl ?_ ?_ ?_ ?_ ?_ h.underflow
  · simp [QueueRecord.queuedMessages, hhigh, hnrm]
  · simp [hzero]
  · simp [hrm]
  · simp [hrb]
  · simp [hhigh]

end

/-! ## 2. Subtractions that do not underflow -/

theorem subQueued_of_le {messages bytes high : Nat} (h1 : messages ≤ s.queuedMessages)
    (h2 : bytes ≤ s.queuedBytes) (h3 : high ≤ s.highPriorityMessages) :
    s.subQueued messages bytes high =
      { s with
        queuedMessages := s.queuedMessages - messages
        queuedBytes := s.queuedBytes - bytes
        highPriorityMessages := s.highPriorityMessages - high } := by
  simp [subQueued, usizeSub_of_le, h1, h2, h3, Nat.not_lt.mpr]

theorem subReserved_of_le {messages bytes : Nat} (h1 : messages ≤ s.reservedMessages)
    (h2 : bytes ≤ s.reservedBytes) :
    s.subReserved messages bytes =
      { s with
        reservedMessages := s.reservedMessages - messages
        reservedBytes := s.reservedBytes - bytes } := by
  simp [subReserved, usizeSub_of_le, h1, h2, Nat.not_lt.mpr]

theorem Accounted.clearQueueLocked (h : s.Accounted) (c : ConnectionId) :
    (s.clearQueueLocked c).1.Accounted := by
  unfold HubState.clearQueueLocked
  cases hq : s.queues.lookup c with
  | none => exact h
  | some q =>
    obtain ⟨h1, h2, -, -, h5⟩ := h.le hq
    simp only [subQueued_of_le h1 h2 h5]
    refine h.replace hq rfl ?_ ?_ ?_ ?_ ?_ rfl h.underflow
    · simp only [QueueRecord.cleared, QueueRecord.queuedMessages, length_nil] at h1 ⊢
      omega
    · simp only [QueueRecord.cleared]
      omega
    · simp [QueueRecord.cleared]
    · simp [QueueRecord.cleared]
    · simp only [QueueRecord.cleared, length_nil]
      omega

theorem Accounted.invalidateReservationsLocked (h : s.Accounted) (c : ConnectionId) :
    (s.invalidateReservationsLocked c).Accounted := by
  unfold HubState.invalidateReservationsLocked
  cases hq : s.queues.lookup c with
  | none => exact h
  | some q =>
    obtain ⟨-, -, h3, h4, -⟩ := h.le hq
    simp only [subReserved_of_le h3 h4]
    refine h.replace hq rfl rfl rfl ?_ ?_ rfl (h.bytes c q hq) h.underflow
    · simp only [QueueRecord.invalidated]
      omega
    · simp only [QueueRecord.invalidated]
      omega

/-- Releasing a reservation keeps the books, when the queue still counts it and holds nothing if
it is to be removed. -/
theorem Accounted.releaseReservationLocked (h : s.Accounted) {bytes epoch : Nat}
    (hmt : ∀ q, s.queues.lookup c = some q → q.reservationEpoch = epoch →
      1 ≤ q.reservedMessages ∧ bytes ≤ q.reservedBytes ∧
      (q.closed = true → (q.reservedMessages = 1 → q.reservedBytes = bytes) ∧
        q.high = [] ∧ q.normal = [])) :
    (s.releaseReservationLocked c bytes epoch).Accounted := by
  unfold HubState.releaseReservationLocked
  cases hq : s.queues.lookup c with
  | none => exact h
  | some q =>
    simp only
    by_cases he : q.reservationEpoch = epoch
    · rw [if_neg (not_not.mpr he)]
      obtain ⟨hm, hb, hemp⟩ := hmt q hq he
      obtain ⟨-, -, h3, h4, -⟩ := h.le hq
      rw [subReserved_of_le (le_trans hm h3) (le_trans hb h4), usizeSub_of_le hm, usizeSub_of_le hb]
      have hunder : (s.underflow || decide (q.reservedMessages < 1)
          || decide (q.reservedBytes < bytes)) = false := by
        simp [h.underflow, Nat.not_lt.mpr hb]
        omega
      split
      · rename_i hremove
        simp only [Bool.and_eq_true, beq_iff_eq] at hremove
        obtain ⟨⟨hcl, -⟩, hzero⟩ := hremove
        obtain ⟨hlast, hhigh, hnrm⟩ := hemp hcl
        have hqb := h.bytes c q hq
        rw [hhigh, hnrm, bytesOf_nil] at hqb
        refine h.remove hq rfl ?_ ?_ ?_ ?_ ?_ hunder
        · simp [QueueRecord.queuedMessages, hhigh, hnrm]
        · simp [hqb]
        · simp only
          omega
        · simp only
          omega
        · simp [hhigh]
      · refine h.replace hq rfl rfl rfl ?_ ?_ rfl (h.bytes c q hq) hunder
        · simp only
          omega
        · simp only
          omega
    · rw [if_pos he]
      exact h

end HubState

/-! ## 3. Trims -/

/-- `q'` is `q` with fewer messages. -/
structure QueueRecord.Trimmed (q q' : QueueRecord) : Prop where
  high : q'.high.Sublist q.high
  normal : q'.normal.Sublist q.normal
  reservedMessages : q'.reservedMessages = q.reservedMessages
  reservedBytes : q'.reservedBytes = q.reservedBytes
  reservationEpoch : q'.reservationEpoch = q.reservationEpoch
  terminal : q'.terminal = q.terminal
  receiverOpen : q'.receiverOpen = q.receiverOpen
  closed : q'.closed = q.closed

theorem QueueRecord.Trimmed.refl (q : QueueRecord) : q.Trimmed q :=
  ⟨.refl _, .refl _, rfl, rfl, rfl, rfl, rfl, rfl⟩

theorem QueueRecord.Trimmed.trans {q r t : QueueRecord} (h : q.Trimmed r) (h' : r.Trimmed t) :
    q.Trimmed t :=
  ⟨h'.high.trans h.high, h'.normal.trans h.normal,
    h'.reservedMessages.trans h.reservedMessages, h'.reservedBytes.trans h.reservedBytes,
    h'.reservationEpoch.trans h.reservationEpoch, h'.terminal.trans h.terminal,
    h'.receiverOpen.trans h.receiverOpen, h'.closed.trans h.closed⟩

theorem QueueRecord.Trimmed.isOpen {q q' : QueueRecord} (h : q.Trimmed q') :
    q'.isOpen = q.isOpen := by
  simp [QueueRecord.isOpen, h.terminal, h.closed]

/-- `s'` is `s` without the messages in `gone`, and nothing else. -/
structure Trim (s : HubState) (gone : List (ConnectionId × StoredMessage)) (s' : HubState) :
    Prop where
  intakeOpen : s'.intakeOpen = s.intakeOpen
  draining : s'.draining = s.draining
  nextNormalSequence : s'.nextNormalSequence = s.nextNormalSequence
  absent : ∀ c, s.queues.lookup c = none → s'.queues.lookup c = none
  present : ∀ c q, s.queues.lookup c = some q → ∃ q', s'.queues.lookup c = some q' ∧
    q.Trimmed q' ∧ ∀ m ∈ q.high ++ q.normal, m ∈ q'.high ++ q'.normal ∨ (c, m) ∈ gone
  accounted : s.Accounted → s'.Accounted

section

variable {s t u : HubState} {gone gone' : List (ConnectionId × StoredMessage)}
  {c : ConnectionId} {q q' : QueueRecord}

theorem Trim.refl (s : HubState) : Trim s [] s :=
  ⟨rfl, rfl, rfl, fun _ h => h, fun _ q h => ⟨q, h, .refl q, fun _ hm => .inl hm⟩, id⟩

theorem Trim.trans (h : Trim s gone t) (h' : Trim t gone' u) : Trim s (gone ++ gone') u where
  intakeOpen := h'.intakeOpen.trans h.intakeOpen
  draining := h'.draining.trans h.draining
  nextNormalSequence := h'.nextNormalSequence.trans h.nextNormalSequence
  absent := fun c hc => h'.absent c (h.absent c hc)
  present := by
    intro c q hq
    obtain ⟨r, hr, htrim, hgone⟩ := h.present c q hq
    obtain ⟨r', hr', htrim', hgone'⟩ := h'.present c r hr
    refine ⟨r', hr', htrim.trans htrim', ?_⟩
    intro m hm
    rcases hgone m hm with hm | hm
    · rcases hgone' m hm with hm | hm
      · exact .inl hm
      · exact .inr (mem_append_right _ hm)
    · exact .inr (mem_append_left _ hm)
  accounted := fun ha => h'.accounted (h.accounted ha)

theorem Trim.source (h : Trim s gone t) (hq : t.queues.lookup c = some q') :
    ∃ q, s.queues.lookup c = some q ∧ q.Trimmed q' ∧
      ∀ m ∈ q.high ++ q.normal, m ∈ q'.high ++ q'.normal ∨ (c, m) ∈ gone := by
  cases hs : s.queues.lookup c with
  | none =>
    rw [h.absent c hs] at hq
    cases hq
  | some q =>
    obtain ⟨r, hr, htrim, hgone⟩ := h.present c q hs
    rw [hr, Option.some.injEq] at hq
    subst hq
    exact ⟨q, rfl, htrim, hgone⟩

/-- **Dropping messages is a trim**, when what is kept and what is gone make up the queue. -/
theorem trim_dropMessages (hq : s.queues.lookup c = some q) {high normal gone : List StoredMessage}
    {highs : Nat} (hhigh : high.Sublist q.high) (hnrm : normal.Sublist q.normal)
    (hperm : (gone ++ (high ++ normal)).Perm (q.high ++ q.normal))
    (hhighs : highs + high.length = q.high.length) :
    Trim s (gone.map fun m => (c, m)) (s.dropMessages c q high normal gone highs) where
  intakeOpen := rfl
  draining := rfl
  nextNormalSequence := rfl
  absent := by
    intro d hd
    have hne : d ≠ c := by
      rintro rfl
      rw [hq] at hd
      cases hd
    exact (AList.lookup_insert_ne hne).trans hd
  present := by
    intro d p hp
    by_cases hd : d = c
    · subst hd
      rw [hq, Option.some.injEq] at hp
      subst hp
      refine ⟨_, AList.lookup_insert _, ⟨hhigh, hnrm, rfl, rfl, rfl, rfl, rfl, rfl⟩, ?_⟩
      intro m hm
      rcases mem_append.mp (hperm.mem_iff.mpr hm) with hm | hm
      · exact .inr (mem_map.mpr ⟨m, hm, rfl⟩)
      · exact .inl hm
    · exact ⟨p, (AList.lookup_insert_ne hd).trans hp, .refl p, fun _ hm => .inl hm⟩
  accounted := by
    intro h
    obtain ⟨h1, h2, -, -, h5⟩ := h.le hq
    have hlen := hperm.length_eq
    have hby : bytesOf _ = bytesOf _ := (hperm.map _).sum_eq
    have hqb := h.bytes c q hq
    simp only [length_append, bytesOf_append] at hlen hby
    simp only [QueueRecord.queuedMessages] at h1
    have hle : bytesOf gone ≤ q.queuedBytes := by omega
    have hm : gone.length ≤ s.queuedMessages := by omega
    have hb : bytesOf gone ≤ s.queuedBytes := by omega
    have hh : highs ≤ s.highPriorityMessages := by omega
    unfold dropMessages
    simp only [subQueued_of_le hm hb hh, usizeSub_of_le hle]
    refine h.replace hq rfl ?_ ?_ rfl rfl ?_ ?_ ?_
    · simp only [QueueRecord.queuedMessages]
      omega
    · simp only
      omega
    · simp only
      omega
    · simp only
      omega
    · simp [h.underflow, Nat.not_lt.mpr hle]

theorem trim_dropOne (hq : s.queues.lookup c = some q) {high normal : List StoredMessage}
    {m : StoredMessage} {highs : Nat} (hhigh : high.Sublist q.high)
    (hnrm : normal.Sublist q.normal) (hperm : (m :: (high ++ normal)).Perm (q.high ++ q.normal))
    (hhighs : highs + high.length = q.high.length) :
    Trim s [(c, m)] (s.dropMessages c q high normal [m] highs) := by
  have hperm' : ([m] ++ (high ++ normal)).Perm (q.high ++ q.normal) := hperm
  exact trim_dropMessages hq hhigh hnrm hperm' hhighs

theorem trim_purgeGenerationLocked (s : HubState) (c : ConnectionId) (generation : Generation) :
    Trim s ((s.purgeGenerationLocked c generation).2.map fun m => (c, m))
      (s.purgeGenerationLocked c generation).1 := by
  unfold purgeGenerationLocked
  cases hq : s.queues.lookup c with
  | none => exact .refl s
  | some q =>
    refine trim_dropMessages hq (.refl _) filter_sublist ?_ (by simp)
    rw [← append_assoc]
    refine (perm_append_comm.append_right _).trans ?_
    rw [append_assoc]
    refine List.Perm.append_left _ ?_
    have := filter_append_perm (fun m => decide (m.generation = some generation)) q.normal
    simpa using this

/-- What `make_room_for_high_locked` pops is a prefix of the normal deque. -/
theorem roomLoop_append (config : DeliveryQueueConfig) (bytes : Nat) (q : QueueRecord) :
    ∀ l, (roomLoop config bytes q l).1 ++ (roomLoop config bytes q l).2 = l
  | [] => rfl
  | m :: rest => by
    unfold roomLoop
    split
    · rw [cons_append, roomLoop_append config bytes q rest]
    · rfl

theorem trim_makeRoomForHighLocked (s : HubState) (c : ConnectionId) (bytes : Nat)
    (config : DeliveryQueueConfig) :
    Trim s ((s.makeRoomForHighLocked c bytes config).2.map fun m => (c, m))
      (s.makeRoomForHighLocked c bytes config).1 := by
  unfold makeRoomForHighLocked
  cases hq : s.queues.lookup c with
  | none => exact .refl s
  | some q =>
    have happ := roomLoop_append config bytes q q.normal
    refine trim_dropMessages hq (.refl _) ?_ ?_ (by simp)
    · have hsub := sublist_append_right (roomLoop config bytes q q.normal).1
        (roomLoop config bytes q q.normal).2
      rwa [happ] at hsub
    · rw [← append_assoc]
      refine (perm_append_comm.append_right _).trans ?_
      rw [append_assoc, happ]

theorem trim_globalRoomLoop (bytes : Nat) (config : DeliveryQueueConfig) :
    ∀ (fuel : Nat) (s : HubState), Trim s (globalRoomLoop bytes config fuel s).2
      (globalRoomLoop bytes config fuel s).1
  | 0, s => .refl s
  | fuel + 1, s => by
    unfold globalRoomLoop
    split
    · exact .refl s
    split
    · exact .refl s
    rename_i c hc
    split
    · exact .refl s
    rename_i q hq
    split
    · exact .refl s
    rename_i m rest hnrm
    have hone : Trim s [(c, m)] (s.dropMessages c q q.high rest [m] 0) := by
      refine trim_dropOne hq (.refl _) ?_ ?_ (by simp)
      · rw [hnrm]
        exact sublist_cons_self _ _
      · rw [hnrm]
        exact perm_middle.symm
    exact hone.trans (trim_globalRoomLoop bytes config fuel _)

end

end Omnius.Realtime.Delivery
