/-
# The order of delivery, and what a revocation stops

A connection's normal messages form a LINE: those still queued stand behind those a receiver has
taken, and the whole line is a subsequence of what was admitted.  A step does one of three things
to a line (`Line`): it shortens the part that waits, it adds the message just admitted at the end,
or it lets a receiver take the first one, and that only when no high message is queued.

What a receiver hands out is a subsequence of what it took, because it holds at most one message
between the lock and the registry's answer.  That answer is also what stops a revoked generation:
a message admitted for it may be queued, and may be taken, but the check that follows fails.

All histories are newest first, and so are the lists here.
-/
import Omnius.Realtime.Retirement
import Omnius.Realtime.Delivery.Accounting

namespace Omnius.Realtime.Delivery

open Omnius.Lib List QueueRecord World

variable {lost : List (ConnectionId × StoredMessage × Fate)} {q : QueueRecord} {m : StoredMessage}
  {x : Receiver} {i : SubscriptionId}

/-! ## 1. Lines -/

/-- The message, if it is a normal one and `d` is the connection asked for. -/
def pick (c d : ConnectionId) (m : StoredMessage) : List StoredMessage :=
  if d = c ∧ m.priority = .normal then [m] else []

/-- The normal messages admitted to a connection. -/
def Core.admissions (k : Core) (c : ConnectionId) : List StoredMessage :=
  k.admitted.flatMap fun e => pick c e.1 e.2

/-- A normal message that a receiver took from a connection's queue, with the receiver. -/
def taken (c : ConnectionId) (e : ConnectionId × StoredMessage × Fate) :
    List (Nat × StoredMessage) :=
  match e.2.2 with
  | .popped id => (pick c e.1 e.2.1).map fun m => (id, m)
  | _ => []

/-- The normal messages that receivers took from a connection's queue. -/
def Core.takings (k : Core) (c : ConnectionId) : List (Nat × StoredMessage) :=
  k.removed.flatMap (taken c)

/-- Those that receiver `id` took. -/
def Core.takingsBy (k : Core) (id : Nat) (c : ConnectionId) : List StoredMessage :=
  ((k.takings c).filter fun e => e.1 = id).map Prod.snd

def Core.waiting (k : Core) (c : ConnectionId) : List StoredMessage :=
  match k.hub.queues.lookup c with
  | some q => q.normal.reverse
  | none => []

/-- The normal messages of a connection that receiver `id` handed to its caller. -/
def World.yields (w : World) (id : Nat) (c : ConnectionId) : List StoredMessage :=
  w.yielded.flatMap fun e =>
    match e.2.2 with
    | .message m => if e.1 = id then pick c e.2.1 m else []
    | .terminal _ => []

/-- The message that receiver `id` has taken and not yet checked. -/
def World.inHand (w : World) (id : Nat) (c : ConnectionId) : List StoredMessage :=
  match w.receivers.lookup id with
  | some x =>
    match x.phase with
    | .popped m => pick c x.connectionId m
    | _ => []
  | none => []

/-- **What a step does to a line.** -/
inductive Line (w : World) (k : Core) (c : ConnectionId) : Prop
  | kept (waiting : (k.waiting c).Sublist (w.waiting c)) (takings : k.takings c = w.takings c)
      (admissions : k.admissions c = w.admissions c)
  | joined {m : StoredMessage} (waiting : (k.waiting c).Sublist (m :: w.waiting c))
      (takings : k.takings c = w.takings c) (admissions : k.admissions c = m :: w.admissions c)
      (sequence : m.sequence = w.hub.nextNormalSequence)
      (next : w.hub.nextNormalSequence < k.hub.nextNormalSequence)
  | left {m : StoredMessage} {id : Nat} {q : QueueRecord}
      (lookup : w.hub.queues.lookup c = some q) (high : q.high = [])
      (waiting : w.waiting c = k.waiting c ++ [m]) (takings : k.takings c = (id, m) :: w.takings c)
      (admissions : k.admissions c = w.admissions c)

section

variable {config : DeliveryQueueConfig} {w w' : World} {k : Core} {c d : ConnectionId} {id : Nat}

theorem takings_lost {l : List (ConnectionId × StoredMessage × Fate)}
    (h : ∀ y ∈ lost, ∀ r, y.2.2 ≠ .popped r) :
    (lost ++ l).flatMap (taken c) = l.flatMap (taken c) := by
  have hnone : lost.flatMap (taken c) = [] := by
    rw [flatMap_eq_nil_iff]
    intro y hy
    unfold taken
    split
    · rename_i r hr
      exact absurd hr (h y hy r)
    · rfl
  rw [flatMap_append, hnone, nil_append]

theorem waiting_some (hq : k.hub.queues.lookup c = some q) : k.waiting c = q.normal.reverse := by
  unfold Core.waiting
  rw [hq]

theorem QueueRecord.pushed_normal (q : QueueRecord) (m : StoredMessage) :
    (q.pushed m).normal = if m.priority = .normal then q.normal ++ [m] else q.normal := by
  unfold QueueRecord.pushed
  split
  · rename_i hm
    rw [if_pos hm]
  · rename_i hm
    rw [if_neg (by simp [hm])]

theorem QueueRecord.admitted_normal (q : QueueRecord) (bytes epoch : Nat) (m : StoredMessage) :
    (q.admitted bytes epoch m).normal =
      if m.priority = .normal then q.normal ++ [m] else q.normal := by
  have hbase : (if q.reservationEpoch = epoch then q.released bytes else q).normal = q.normal := by
    split <;> rfl
  unfold QueueRecord.admitted
  rw [pushed_normal, hbase]

theorem QueueRecord.signalled_normal (q : QueueRecord) : q.signalled.normal = q.normal := by
  unfold QueueRecord.signalled
  split <;> rfl

theorem QueueRecord.finished_normal (q : QueueRecord) (expired : Bool) :
    (q.finished expired).normal.Sublist q.normal := by
  unfold QueueRecord.finished
  rw [signalled_normal]
  cases expired with
  | false => exact .refl _
  | true => exact nil_sublist _

/-- The part that waits only grows by the message just admitted. -/
theorem Effect.waiting (he : Effect config w k) (c : ConnectionId) :
    (k.waiting c).Sublist (w.waiting c) ∨
      ∃ m, k.admitted = (c, m) :: w.admitted ∧ m.priority = .normal ∧
        (k.waiting c).Sublist (m :: w.waiting c) := by
  cases hq' : k.hub.queues.lookup c with
  | none =>
    left
    unfold Core.waiting
    rw [hq']
    exact nil_sublist _
  | some q' =>
    rw [waiting_some hq']
    cases he.origin hq' with
    | opened | slowed => exact .inl (nil_sublist _)
    | trimmed hq htrim | reserved _ _ hq htrim =>
      rw [waiting_some hq]
      exact .inl (reverse_sublist.mpr htrim.normal)
    | admitted _ _ _ _ hq htrim _ hlog =>
      rw [waiting_some hq, admitted_normal]
      have hsub := reverse_sublist.mpr htrim.normal
      split
      · rename_i hnrm
        refine .inr ⟨_, hlog, hnrm, ?_⟩
        rw [reverse_append]
        exact hsub.cons_cons _
      · exact .inl hsub
    | released _ _ hq | terminated hq | abandoned _ _ _ hq =>
      rw [waiting_some hq]
      exact .inl (.refl _)
    | finished _ hq =>
      rw [waiting_some hq]
      exact .inl (reverse_sublist.mpr (finished_normal _ _))

theorem Effect.waiting_kept (he : Effect config w k) (h : k.admitted = w.admitted) :
    (k.waiting c).Sublist (w.waiting c) := by
  refine (he.waiting c).resolve_right ?_
  rintro ⟨m, hlog, -⟩
  rw [h] at hlog
  exact cons_ne_self _ _ hlog.symm

theorem stamp_normal (s : HubState) (hm : m.priority = .normal) :
    (s.stamp m).1.sequence = s.nextNormalSequence ∧
      (s.stamp m).2.nextNormalSequence = s.nextNormalSequence + 1 := by
  unfold HubState.stamp
  rw [hm]
  exact ⟨rfl, rfl⟩

theorem stamp_next_le (s : HubState) (m : StoredMessage) :
    s.nextNormalSequence ≤ (s.stamp m).2.nextNormalSequence := by
  unfold HubState.stamp
  split
  · exact Nat.le_succ _
  · exact le_rfl

theorem beginDrain_next (s : HubState) :
    s.beginDrain.nextNormalSequence = s.nextNormalSequence := by
  unfold HubState.beginDrain
  split <;> rfl

section

variable (he : Effect config w k)

include he

theorem Effect.next_le :
    w.hub.nextNormalSequence ≤ k.hub.nextNormalSequence := by
  cases he with
  | reserved _ htrim _ _ _ hedit | slowed _ htrim _ _ _ hedit =>
    exact (hedit.nextNormalSequence.trans htrim.nextNormalSequence).ge
  | admitted _ _ hadm =>
    have hstamp := stamp_next_le
    simp only [hadm.edit.nextNormalSequence]
    exact hadm.trim.nextNormalSequence.ge.trans (hstamp _ _)
  | released =>
    rename_i r _
    rcases releaseReservationLocked_cases w.hub r.connectionId r.reservedBytes r.reservationEpoch
      with ⟨hsame, -⟩ | ⟨q, -, -, ⟨-, -, hedit⟩ | hedit⟩
    · exact (congrArg HubState.nextNormalSequence hsame).ge
    · exact hedit.nextNormalSequence.ge
    · exact hedit.nextNormalSequence.ge
  | popped _ _ _ _ _ htrim => exact htrim.nextNormalSequence.ge
  | closed _ hedit => exact hedit.nextNormalSequence.ge
  | beganDrain => exact (beginDrain_next _).ge
  | finished _ hfsh => exact hfsh.nextNormalSequence.ge
  | _ => exact le_rfl

theorem line_admitted {r : Reservation} {o : AdmitOutcome} {t : HubState}
    (hadm : Admission w.hub r.connectionId r.reservedBytes r.reservationEpoch m o t q)
    (hhub : k.hub = o.state) (hlog : k.admitted = (r.connectionId, (t.stamp m).1) :: w.admitted)
    (hlost : ∀ y ∈ lost, ∀ id, y.2.2 ≠ .popped id) (hrem : k.removed = lost ++ w.removed) :
    Line w k c := by
  have htak : k.takings c = w.takings c := by
    unfold Core.takings
    rw [hrem, takings_lost hlost]
  have hadmissions : k.admissions c = pick c r.connectionId (t.stamp m).1 ++ w.admissions c := by
    unfold Core.admissions
    rw [hlog]
    rfl
  by_cases hmine : r.connectionId = c ∧ (t.stamp m).1.priority = .normal
  · rw [pick, if_pos hmine] at hadmissions
    have hm : m.priority = .normal := (stamp_priority t m).symm.trans hmine.2
    obtain ⟨hseq, hnext⟩ := stamp_normal t hm
    have hbase := hadm.trim.nextNormalSequence
    refine .joined ?_ htak hadmissions (hseq.trans hbase) ?_
    · rcases he.waiting c with hkept | ⟨m', hlog', -, hjoined⟩
      · exact hkept.cons _
      · rw [hlog, List.cons.injEq, Prod.mk.injEq] at hlog'
        rw [hlog'.1.2]
        exact hjoined
    · rw [hhub, hadm.edit.nextNormalSequence, hnext, hbase]
      exact Nat.lt_succ_self _
  · rw [pick, if_neg hmine] at hadmissions
    refine .kept ?_ htak hadmissions
    refine (he.waiting c).resolve_right ?_
    rintro ⟨m', hlog', hnrm, -⟩
    rw [hlog, List.cons.injEq, Prod.mk.injEq] at hlog'
    rw [← hlog'.1.2] at hnrm
    exact hmine ⟨hlog'.1.1, hnrm⟩

theorem line_popped {q' : QueueRecord} (hty : w.hub.Typed)
    (hq : w.hub.queues.lookup x.connectionId = some q)
    (hq' : k.hub.queues.lookup x.connectionId = some q') (hfront : q.Front m q')
    (hlog : k.admitted = w.admitted)
    (hrem : k.removed = (x.connectionId, m, .popped id) :: w.removed) : Line w k c := by
  have hadmissions : k.admissions c = w.admissions c := by
    unfold Core.admissions
    rw [hlog]
  have htak : k.takings c = (pick c x.connectionId m).map (fun m => (id, m)) ++ w.takings c := by
    unfold Core.takings
    rw [hrem]
    rfl
  by_cases hmine : x.connectionId = c ∧ m.priority = .normal
  · rw [pick, if_pos hmine] at htak
    obtain ⟨rfl, hnrm⟩ := hmine
    cases hfront with
    | high hself =>
      -- the high deque holds no normal message
      have hhigh := (hty _ q hq).high m (hself ▸ mem_cons_self)
      rw [hnrm] at hhigh
      cases hhigh
    | normal hnone _ hself =>
      refine .left hq hnone ?_ htak hadmissions
      rw [waiting_some hq, waiting_some hq', hself, reverse_cons]
  · rw [pick, if_neg hmine] at htak
    exact .kept (he.waiting_kept hlog) htak hadmissions

/-- **Every step keeps to the line.** -/
theorem Effect.line (hty : w.hub.Typed) (c : ConnectionId) :
    Line w k c := by
  have hwt := he.waiting_kept (c := c)
  have he' := he
  cases he with
  | admitted _ _ hadm hloss =>
    exact line_admitted he' hadm rfl rfl (fun y hy => (hloss.discarded y hy).2) rfl
  | popped _ hq _ hq' hfront => exact line_popped he' hty hq hq' hfront rfl rfl
  | reserved _ _ hloss | slowed _ _ hloss | closed _ _ hloss =>
    exact .kept (hwt rfl) (takings_lost fun y hy => (hloss.discarded y hy).2) rfl
  | finished =>
    refine .kept (hwt rfl) (takings_lost ?_) rfl
    intro y hy r
    obtain ⟨m, -, rfl⟩ := mem_map.mp hy
    simp
  | _ => exact .kept (hwt rfl) rfl rfl

end

/-! ## 2. What a receiver holds and hands out -/

variable {j : Nat} {k' : Core}

theorem takingsBy_cons (h : k'.removed = (d, m, .popped j) :: k.removed) :
    k'.takingsBy id c = (if j = id then pick c d m else []) ++ k.takingsBy id c := by
  unfold Core.takingsBy Core.takings
  rw [h, flatMap_cons, filter_append, map_append]
  have htaken : taken c (d, m, .popped j) = (pick c d m).map fun m => (j, m) := rfl
  rw [htaken, filter_map]
  by_cases hj : j = id
  · simp [hj]
  · simp [hj]

theorem takingsBy_lost (hlost : ∀ y ∈ lost, ∀ r, y.2.2 ≠ .popped r)
    (h : k'.removed = lost ++ k.removed) : k'.takingsBy id c = k.takingsBy id c := by
  unfold Core.takingsBy Core.takings
  rw [h, takings_lost hlost]

theorem takingsBy_same (h : k'.removed = k.removed) : k'.takingsBy id c = k.takingsBy id c := by
  unfold Core.takingsBy Core.takings
  rw [h]

theorem yields_cons (h : w'.yielded = (j, d, .message m) :: w.yielded) :
    w'.yields id c = (if j = id then pick c d m else []) ++ w.yields id c := by
  unfold yields
  rw [h]
  rfl

theorem yields_same (h : w'.yielded = w.yielded) : w'.yields id c = w.yields id c := by
  unfold yields
  rw [h]

theorem inHand_popped (hx : w.receivers.lookup id = some x) (hph : x.phase = .popped m) :
    w.inHand id c = pick c x.connectionId m := by
  unfold inHand
  rw [hx]
  simp [hph]

theorem inHand_nil (h : ∀ x, w.receivers.lookup id = some x → ∀ m, x.phase ≠ .popped m) :
    w.inHand id c = [] := by
  unfold inHand
  split
  · rename_i x hx
    split
    · rename_i m hm
      exact absurd hm (h x hx m)
    · rfl
  · rfl

/-- A receiver that is as it was, or was set to another phase, has no other message in its
hands. -/
theorem inHand_sublist (h : ∀ x, w'.receivers.lookup id = some x →
      w.receivers.lookup id = some x ∨ ∀ m, x.phase ≠ .popped m) :
    (w'.inHand id c).Sublist (w.inHand id c) := by
  by_cases hsame : w'.receivers.lookup id = w.receivers.lookup id
  · unfold inHand
    rw [hsame]
  · rw [inHand_nil fun x hx => (h x hx).resolve_left fun hold => hsame (hx.trans hold.symm)]
    exact nil_sublist _

theorem inHand_turned (hrecv : w'.receivers = w.receivers.insert j x)
    (hx : ∀ m, x.phase ≠ .popped m) : (w'.inHand id c).Sublist (w.inHand id c) := by
  refine inHand_sublist fun y hy => ?_
  rcases Table.lookup_insert_iff.mp (hrecv ▸ hy) with ⟨-, rfl⟩ | ⟨-, hold⟩
  · exact .inr hx
  · exact .inl hold

/-- What receiver `id` holds and has handed out is what it took, in order. -/
def World.Handed (w : World) (id : Nat) (c : ConnectionId) : Prop :=
  (w.inHand id c ++ w.yields id c).Sublist (w.takingsBy id c)

/-- A move that hands out no normal message and takes none. -/
theorem World.Handed.shrink (h : w.Handed id c) (hhand : (w'.inHand id c).Sublist (w.inHand id c))
    (hyields : w'.yields id c = w.yields id c)
    (htak : w'.takingsBy id c = w.takingsBy id c) : w'.Handed id c := by
  unfold Handed
  rw [hyields, htak]
  exact (hhand.append_right _).trans h

theorem inHand_polling (hx : w.receivers.lookup id = some x)
    (hph : x.phase = .idle ∨ x.phase = .polling) : w.inHand id c = [] := by
  refine inHand_nil ?_
  intro y hy m hm
  rw [hx, Option.some.injEq] at hy
  subst hy
  rcases hph with h | h <;> rw [h] at hm <;> cases hm

/-- **Every step keeps what a receiver hands out in the order it took it.** -/
theorem ReceiverMove.handed_move (hm : ReceiverMove w w') (h : w.Handed id c) :
    w'.Handed id c := by
  have hidle : ∀ m, ReceiverPhase.idle ≠ .popped m := by simp
  cases hm with
  | kept hrecv hyl hrem hloss =>
    exact h.shrink (inHand_sublist fun x hx => .inl (hrecv ▸ hx)) (yields_same hyl)
      (takingsBy_lost (fun y hy => (hloss y hy).1) hrem)
  | opened hrecv _ hyl hrem =>
    exact h.shrink (inHand_turned hrecv hidle) (yields_same hyl) (takingsBy_same hrem)
  | turned _ hunpopped _ hrecv hyl hrem =>
    refine h.shrink (inHand_turned hrecv hunpopped) ?_ (takingsBy_same hrem)
    rcases hyl with hsame | ⟨t, hcons⟩
    · exact yields_same hsame
    · unfold yields
      rw [hcons]
      rfl
  | shut _ hunpopped _ hrecv hyl hrem hloss =>
    exact h.shrink (inHand_turned hrecv hunpopped) (yields_same hyl)
      (takingsBy_lost (fun y hy => (hloss y hy).1) hrem)
  | dropped _ _ hrecv hyl hrem =>
    refine h.shrink (inHand_sublist fun x hx => .inl ?_) (yields_same hyl) (takingsBy_same hrem)
    exact (Table.lookup_erase_iff.mp (hrecv ▸ hx)).2
  | @took j x m hx hph hrecv hyl hrem =>
    unfold Handed at h ⊢
    rw [takingsBy_cons hrem, yields_same hyl]
    by_cases hj : j = id
    · subst hj
      rw [inHand_polling hx hph] at h
      rw [if_pos rfl, inHand_popped (hrecv ▸ AList.lookup_insert _) rfl]
      exact h.append_left _
    · rw [if_neg hj]
      have hsame : w'.inHand id c = w.inHand id c := by
        unfold inHand
        rw [hrecv, AList.lookup_insert_ne (Ne.symm hj)]
      rw [hsame]
      exact h
  | @handed j x m hx hph _ hrecv hyl hrem =>
    have hhand : (w'.inHand id c).Sublist (w.inHand id c) := inHand_turned hrecv hidle
    unfold Handed at h ⊢
    rw [takingsBy_cons hrem, yields_cons hyl]
    by_cases hj : j = id
    · subst hj
      rw [inHand_polling hx hph] at h hhand
      rw [sublist_nil.mp hhand]
      exact h.append_left _
    · rw [if_neg hj]
      exact (hhand.append_right _).trans h
  | @yielded j x m _ hx hph _ _ hrecv hyl hrem =>
    have hhand : (w'.inHand id c).Sublist (w.inHand id c) := inHand_turned hrecv hidle
    unfold Handed at h ⊢
    rw [takingsBy_same hrem, yields_cons hyl]
    by_cases hj : j = id
    · -- the message moves from the receiver's hands to its caller's
      subst hj
      rw [inHand_popped hx hph] at h
      rw [if_pos rfl]
      have hnil : w'.inHand j c = [] := by
        refine inHand_nil ?_
        intro y hy
        rw [hrecv, AList.lookup_insert, Option.some.injEq] at hy
        exact hy ▸ hidle
      rw [hnil]
      exact h
    · rw [if_neg hj]
      exact (hhand.append_right _).trans h

/-! ## 3. The invariant -/

/-- **Lines are in order.** -/
structure Ordered (w : World) : Prop where
  line : ∀ c, (w.waiting c ++ (w.takings c).map Prod.snd).Sublist (w.admissions c)
  increasing : ∀ c, (w.admissions c).Pairwise fun m m' => m'.sequence < m.sequence
  issued : ∀ c, ∀ m ∈ w.admissions c, m.sequence < w.hub.nextNormalSequence
  handed : ∀ id c, w.Handed id c

theorem ordered_start (registryConfig : RegistryConfig) : Ordered (.start registryConfig) where
  line := fun _ => .refl _
  increasing := fun _ => .nil
  issued := nofun
  handed := fun _ _ => .refl _

section

variable (h : Ordered w)

include h

theorem Ordered.line_move (hl : Line w k c) :
    (k.waiting c ++ (k.takings c).map Prod.snd).Sublist (k.admissions c) := by
  have hline := h.line c
  cases hl with
  | kept hwt htak hadmissions =>
    rw [htak, hadmissions]
    exact (hwt.append_right _).trans hline
  | joined hwt htak hadmissions =>
    rw [htak, hadmissions]
    exact (hwt.append_right _).trans (hline.cons_cons _)
  | left _ _ hwt htak hadmissions =>
    rw [hwt, append_assoc] at hline
    rw [htak, hadmissions]
    exact hline

theorem Ordered.increasing_move (hl : Line w k c) :
    (k.admissions c).Pairwise fun m m' => m'.sequence < m.sequence := by
  cases hl with
  | kept _ _ hadmissions | left _ _ _ _ hadmissions => exact hadmissions ▸ h.increasing c
  | joined _ _ hadmissions hseq =>
    rw [hadmissions]
    exact pairwise_cons.mpr ⟨fun m hm => hseq ▸ h.issued c m hm, h.increasing c⟩

theorem Ordered.issued_move (hl : Line w k c)
    (hnext : w.hub.nextNormalSequence ≤ k.hub.nextNormalSequence) (hm : m ∈ k.admissions c) :
    m.sequence < k.hub.nextNormalSequence := by
  have hold : m ∈ w.admissions c → m.sequence < k.hub.nextNormalSequence :=
    fun hmem => (h.issued c m hmem).trans_le hnext
  cases hl with
  | kept _ _ hadmissions | left _ _ _ _ hadmissions => exact hold (hadmissions ▸ hm)
  | joined _ _ hadmissions hseq hlt =>
    rw [hadmissions] at hm
    rcases mem_cons.mp hm with rfl | hmem
    · exact hseq ▸ hlt
    · exact hold hmem

theorem Ordered.move (hw : Steady w) (hs : StepMove config w w') : Ordered w' where
  line := fun c => h.line_move (hs.effect.line hw.typed c)
  increasing := fun c => h.increasing_move (hs.effect.line hw.typed c)
  issued := fun c _ => h.issued_move (hs.effect.line hw.typed c) hs.effect.next_le
  handed := fun id c => hs.receivers.handed_move (h.handed id c)

theorem Ordered.nodup (c : ConnectionId) : (w.admissions c).Nodup := by
  refine (h.increasing c).imp ?_
  rintro m m' hlt rfl
  exact Nat.lt_irrefl _ hlt

theorem Ordered.takings_sublist (c : ConnectionId) :
    ((w.takings c).map Prod.snd).Sublist (w.admissions c) :=
  (sublist_append_right _ _).trans (h.line c)

theorem Ordered.takingsBy_sublist (id : Nat) (c : ConnectionId) :
    (w.takingsBy id c).Sublist (w.admissions c) :=
  (filter_sublist.map _).trans (h.takings_sublist c)

theorem Ordered.yields_sublist (id : Nat) (c : ConnectionId) :
    (w.yields id c).Sublist (w.takingsBy id c) :=
  (sublist_append_right _ _).trans (h.handed id c)

theorem Ordered.disjoint {id id' : Nat} (hne : id ≠ id') (c : ConnectionId) :
    (w.yields id c).Disjoint (w.yields id' c) := by
  intro m hm hm'
  have htook : ∀ {i}, m ∈ w.yields i c → (i, m) ∈ w.takings c := by
    intro i hi
    obtain ⟨⟨i', m'⟩, hmem, rfl⟩ := mem_map.mp ((h.yields_sublist i c).subset hi)
    obtain ⟨hin, hfst⟩ := mem_filter.mp hmem
    simp only [decide_eq_true_eq] at hfst
    exact hfst ▸ hin
  -- taken twice, it would stand twice in a line without repetition
  have hnd := (h.nodup c).sublist (h.takings_sublist c)
  have heq := inj_on_of_nodup_map hnd (htook hm) (htook hm') rfl
  exact hne (Prod.mk.injEq .. ▸ heq).1

end

/-! ## 4. Revocation -/

/-- The registry's indexes agree. -/
def World.Registered (w : World) : Prop := w.registry.state.Consistent w.registry.config

theorem RegistryMove.keeps {P : RegistryConfig → RegistryState → Prop} (hr : RegistryMove w w')
    (hlocked : ∀ op : RegistryOp,
      P w.registry.config (op.locked w.registry.config w.registry.state).2)
    (h : P w.registry.config w.registry.state) : P w'.registry.config w'.registry.state := by
  cases hr with
  | kept hsame => exact hsame ▸ h
  | poisoned hpoison =>
    rw [hpoison]
    exact h
  | applied happ =>
    rw [happ]
    unfold ConnectionRegistry.apply
    split
    · exact h
    · exact hlocked _

theorem RegistryMove.registered (hr : RegistryMove w w') (h : w.Registered) : w'.Registered :=
  hr.keeps (P := fun config state => state.Consistent config) (fun _ => h.locked _) h

variable {g : Nat}

theorem RegistryMove.retired (hr : RegistryMove w w') (h : w.Registered)
    (hrtd : w.registry.state.Retired i g) : w'.registry.state.Retired i g :=
  hr.keeps (P := fun _ state => state.Retired i g)
    (fun _ => hrtd.evolves h (RegistryState.evolves_locked _ _ _)) hrtd

def QueuedDelivery.isFor (g : Generation) : QueuedDelivery → Bool
  | .message m => m.priority = .normal && m.generation = some g
  | .terminal _ => false

/-- What was handed out for a generation, to whichever receiver. -/
def World.deliveries (w : World) (g : Generation) : List (Nat × ConnectionId × QueuedDelivery) :=
  w.yielded.filter fun e => e.2.2.isFor g

/-- **Nothing is handed out for a retired generation.** -/
theorem ReceiverMove.deliveries (hm : ReceiverMove w w') (hrtd : w.registry.state.Retired i g) :
    w'.deliveries (i, g) = w.deliveries (i, g) := by
  have hsame : w'.yielded = w.yielded → w'.deliveries (i, g) = w.deliveries (i, g) := by
    intro h
    unfold World.deliveries
    rw [h]
  have hcons : ∀ {e}, w'.yielded = e :: w.yielded → e.2.2.isFor (i, g) = false →
      w'.deliveries (i, g) = w.deliveries (i, g) := by
    intro e h hnot
    unfold World.deliveries
    rw [h, filter_cons_of_neg (by simp [hnot])]
  cases hm with
  | kept _ hyl | opened _ _ hyl | shut _ _ _ _ hyl | took _ _ _ hyl
  | dropped _ _ _ hyl => exact hsame hyl
  | turned _ _ _ _ hyl =>
    rcases hyl with hyl | ⟨t, hyl⟩
    · exact hsame hyl
    · exact hcons hyl rfl
  | handed _ _ hgen _ hyl =>
    refine hcons hyl ?_
    simp [QueuedDelivery.isFor, hgen]
  | @yielded _ _ m generation _ _ hself hcur _ hyl =>
    refine hcons hyl ?_
    rw [Bool.eq_false_iff]
    intro hfor
    simp only [QueuedDelivery.isFor, Bool.and_eq_true, decide_eq_true_eq, hself,
      Option.some.injEq] at hfor
    obtain ⟨hnrm, rfl⟩ := hfor
    -- the registry was asked, and it cannot have said yes
    unfold generationIsCurrent at hcur
    split at hcur
    · cases hcur
    rw [hnrm] at hcur
    simp only [Except.ok.injEq, hrtd.inactive] at hcur
    cases hcur

/-- The step carries out a registry operation that revokes or removes generation `g` of `i`, or
closes its connection, and the operation succeeds. -/
def World.Ends (w w' : World) (i : SubscriptionId) (g : Nat) : Prop :=
  ∃ op reply, w'.registry = (w.registry.apply op).2 ∧ (w.registry.apply op).1 = .ok reply ∧
    op.Ends w.registry.state i g

theorem World.Registered.retired (h : w.Registered) (hends : w.Ends w' i g) :
    w'.registry.state.Retired i g := by
  obtain ⟨op, reply, happ, hok, hop⟩ := hends
  rw [happ]
  unfold ConnectionRegistry.apply at hok ⊢
  split at hok
  · cases hok
  rename_i hlock
  rw [if_neg hlock]
  exact RegistryState.retired_of_ends h hop hok

/-! ## 5. Whole runs -/

variable {registryConfig : RegistryConfig}

/-- What the statements below need of a reachable world. -/
structure Settled (w : World) : Prop where
  steady : Steady w
  ordered : Ordered w
  registered : w.Registered

theorem Settled.move {a : Action} (h : Settled w) (hst : World.step config w a = some w') :
    Settled w' := by
  have hs := step_move h.steady.typed hst
  exact ⟨h.steady.move hs, h.ordered.move h.steady hs, hs.registry.registered h.registered⟩

theorem settled_reach (h : (delivery registryConfig config).Reach
    (delivery registryConfig config).start w) : Settled w := by
  refine h.invariant ⟨steady_start _, ordered_start _, RegistryState.consistent_empty⟩ ?_
  intro u a v hu _ hst
  exact hu.move hst

/-- Once retired, a generation has no deliveries in any run that follows. -/
theorem Settled.deliveries {v : World} (h : Settled w) (hrtd : w.registry.state.Retired i g)
    (hv : (delivery registryConfig config).Reach w v) :
    v.deliveries (i, g) = w.deliveries (i, g) := by
  refine (hv.invariant (I := fun u => Settled u ∧ u.registry.state.Retired i g ∧
    u.deliveries (i, g) = w.deliveries (i, g)) ⟨h, hrtd, rfl⟩ ?_).2.2
  rintro u a u' ⟨hu, hr, hd⟩ _ hst
  have hs := step_move hu.steady.typed hst
  exact ⟨hu.move hst, hs.registry.retired hu.registered hr, (hs.receivers.deliveries hr).trans hd⟩

/-- **Delivery order and revocation safety.**  In every reachable world, for every connection and
receiver: nothing is admitted twice; what the receiver hands out is what it took, and what it took
is what was admitted, each in the same order; no two receivers hand out the same message.  A step
in which a receiver takes a normal message finds no high message queued.  And once a generation
has been revoked, removed, or its connection has begun to close, no run that follows hands out a
normal message admitted for it. -/
theorem delivery_order_and_revocation (h : (delivery registryConfig config).Reach
      (delivery registryConfig config).start w) :
    (∀ c, (w.admissions c).Nodup) ∧
    (∀ id c, (w.yields id c).Sublist (w.takingsBy id c) ∧
      (w.takingsBy id c).Sublist (w.admissions c)) ∧
    (∀ id id' c, id ≠ id' → (w.yields id c).Disjoint (w.yields id' c)) ∧
    (∀ a w' c, (delivery registryConfig config).step w a = some w' →
      w'.takings c ≠ w.takings c → ∃ q, w.hub.queues.lookup c = some q ∧ q.high = []) ∧
    ∀ a w' i g, (delivery registryConfig config).step w a = some w' → w.Ends w' i g →
      ∀ v, (delivery registryConfig config).Reach w' v →
        v.deliveries (i, g) = w'.deliveries (i, g) := by
  have hw := settled_reach h
  refine ⟨hw.ordered.nodup, ?_, ?_, ?_, ?_⟩
  · intro id c
    exact ⟨hw.ordered.yields_sublist id c, hw.ordered.takingsBy_sublist id c⟩
  · intro id id' c hne
    exact hw.ordered.disjoint hne c
  · intro a w' c hst htook
    cases (step_move hw.steady.typed hst).effect.line hw.steady.typed c with
    | kept _ htak | joined _ htak => exact absurd htak htook
    | left hq hhigh => exact ⟨_, hq, hhigh⟩
  · intro a w' i g hst hends v hv
    exact (hw.move hst).deliveries (hw.registered.retired hends) hv

end

def fourSlots : DeliveryQueueConfig := ⟨4, 65536, 65536, 10000000⟩

def firstSubscription : SubscriptionId := ⟨5⟩

/-- A message for the first generation of the subscription. -/
def stampedPayload : Payload := ⟨List.replicate 32 0, ⟨"chat.message"⟩, some (firstSubscription, 1)⟩

def subscribed : List Action :=
  opening ++ [.registry (.addSubscription firstConnection firstSubscription ⟨7⟩ ⟨"orders"⟩ none)]

/-- Two messages are admitted for the subscription, and the first is handed out. -/
def oneOfTwoHandedOut : List Action :=
  subscribed ++ [.reserveCheck firstConnection .normal 4096 none, .reserveLock 2,
    .admitCheck 0 stampedPayload, .admitLock 0, .reserveCheck firstConnection .normal 4096 none,
    .reserveLock 3, .admitCheck 1 stampedPayload, .admitLock 1, .pollLock 1, .pollCheck 1]

/-- The subscription is removed, and its id subscribed again, before the receiver takes the
second. -/
def resubscribed : List Action :=
  [.registry (.removeSubscription firstConnection firstSubscription),
    .registry (.addSubscription firstConnection firstSubscription ⟨7⟩ ⟨"orders"⟩ none),
    .pollLock 1, .pollCheck 1]

/-- The second message is taken, in order, and not handed out. -/
theorem delivery_order_and_revocation_resubscribed :
    ∃ w w' v, (delivery smallRegistry fourSlots).run (delivery smallRegistry fourSlots).start
        oneOfTwoHandedOut = some w ∧
      (delivery smallRegistry fourSlots).step w
        (.registry (.revokeSubscription firstSubscription .identityRevoked ⟨3⟩)) = some w' ∧
      (delivery smallRegistry fourSlots).run w' resubscribed = some v ∧
      (w.yields 1 firstConnection).length = 1 ∧ (v.takings firstConnection).length = 2 ∧
      (w.yields 1 firstConnection).Sublist (w.admissions firstConnection) ∧
      v.deliveries (firstSubscription, 1) = w'.deliveries (firstSubscription, 1) := by
  have hrun : ∃ w, (delivery smallRegistry fourSlots).run (delivery smallRegistry fourSlots).start
        oneOfTwoHandedOut = some w ∧ (w.yields 1 firstConnection).length = 1 ∧
      ∃ w', (delivery smallRegistry fourSlots).step w
        (.registry (.revokeSubscription firstSubscription .identityRevoked ⟨3⟩)) = some w' ∧
      w.Ends w' firstSubscription 1 ∧
      ∃ v, (delivery smallRegistry fourSlots).run w' resubscribed = some v ∧
        (v.takings firstConnection).length = 2 :=
    ⟨_, rfl, rfl, _, rfl, ⟨.revokeSubscription firstSubscription .identityRevoked ⟨3⟩, _, rfl, rfl,
      _, rfl, rfl, rfl⟩, _, rfl, rfl⟩
  obtain ⟨w, hw, hone, w', hst, hends, v, hv, htwo⟩ := hrun
  obtain ⟨-, hord, -, -, hstop⟩ := delivery_order_and_revocation (Machine.reach_of_run _ hw)
  refine ⟨w, w', v, hw, hst, hv, hone, htwo, ?_, ?_⟩
  · exact (hord 1 firstConnection).1.trans (hord 1 firstConnection).2
  · exact hstop _ _ _ _ hst hends v (Machine.reach_of_run _ hv)

/-- A receiver has taken a normal message and not yet checked it when a high one is admitted. -/
def highAfterTaking : List Action :=
  subscribed ++ [.reserveCheck firstConnection .normal 4096 none, .reserveLock 2,
    .admitCheck 0 stampedPayload, .admitLock 0, .pollLock 1,
    .reserveCheck firstConnection .high 4096 none, .reserveLock 3, .admitCheck 1 plainPayload,
    .admitLock 1]

/-- **A normal message is handed out while a high one is queued**: the lock is not held between
the two. -/
theorem yields_under_queued_high :
    ∃ w w' q, (delivery smallRegistry fourSlots).Reach (delivery smallRegistry fourSlots).start w ∧
      (delivery smallRegistry fourSlots).step w (.pollCheck 1) = some w' ∧
      (w.yields 1 firstConnection).length = 0 ∧ (w'.yields 1 firstConnection).length = 1 ∧
      w'.hub.queues.lookup firstConnection = some q ∧ q.high.length = 1 :=
  ⟨_, _, _, Machine.reach_of_run highAfterTaking rfl, rfl, rfl, rfl, rfl, rfl⟩

end Omnius.Realtime.Delivery
