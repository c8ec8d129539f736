/-
# Draining loses nothing

`drain` closes the intake, waits until it READS that nothing is queued and nothing reserved, and
then, in another section, signals every receiver.  What makes that safe is stability: with the
intake closed a quiet hub stays quiet, because a message can only come in through a reservation,
and a reservation that could still be admitted is one its queue counts.

The last step needs every OPEN queue to have its receiver.  A receiver's `close` ends with a section
that marks the queue of its connection abandoned, whichever queue that is; if the connection was
reopened meanwhile, it is the new one, and a drain passes over it.  `FreshReceivers` says that a
queue is opened only when no closed receiver is left on the connection.
-/
import Omnius.Realtime.Delivery.Accounting

namespace Omnius.Realtime.Delivery

open Omnius.Lib List Option Table AList QueueRecord

variable {todo : List RegistryOp} {o : DeliveryDrainOutcome} {m : StoredMessage}

/-! ## 1. Queues and their receivers -/

/-- **A step opens a queue only where no closed receiver of the connection is left.** -/
def FreshReceivers (w w' : World) : Prop :=
  ∀ c, w.hub.queues.lookup c = none → (w'.hub.queues.lookup c).isSome = true →
    ∀ id x, w.receivers.lookup id = some x → x.connectionId = c → x.isOpen = true

/-- The same over the entries, where it can be evaluated. -/
theorem freshReceivers_iff {w w' : World} : FreshReceivers w w' ↔
    ∀ e ∈ w.receivers.entries, w.hub.queues.lookup e.2.connectionId = none →
      (w'.hub.queues.lookup e.2.connectionId).isSome = true → e.2.isOpen = true := by
  constructor
  · intro h e he habs hprs
    exact h _ habs hprs e.1 e.2 (mem_lookup_iff.mpr he) rfl
  · rintro h c habs hprs id x hx rfl
    exact h ⟨id, x⟩ (mem_lookup_iff.mp hx) habs hprs

instance (w w' : World) : Decidable (FreshReceivers w w') :=
  decidable_of_iff _ freshReceivers_iff.symm

def CalmStep (config : DeliveryQueueConfig) (w : World) (a : Action) : Prop :=
  FreshStep config w a ∧ ∀ w' ∈ World.step config w a, FreshReceivers w w'

instance (config : DeliveryQueueConfig) (w : World) (a : Action) :
    Decidable (CalmStep config w a) :=
  inferInstanceAs (Decidable (_ ∧ ∀ w' ∈ World.step config w a, FreshReceivers w w'))

/-- **Every open queue is attended**: it has its receiver. -/
structure Attended (w : World) : Prop where
  closing : ∀ id x todo dropping, w.receivers.lookup id = some x →
    x.phase = .closing todo dropping → x.isOpen = false
  shut : ∀ id x, w.receivers.lookup id = some x → x.isOpen = false →
    ∀ q, w.hub.queues.lookup x.connectionId = some q → q.closed = true
  receivers : ∀ c q, w.hub.queues.lookup c = some q → q.isOpen = true → q.receiverOpen = true

section

variable {config : DeliveryQueueConfig} {w w' : World} {k : Core} {c : ConnectionId}
  {q q' : QueueRecord} {id : Nat}

theorem QueueRecord.signalled_closed (q : QueueRecord) : q.signalled.closed = q.closed := by
  unfold signalled
  split <;> rfl

theorem QueueRecord.signalled_receiverOpen (q : QueueRecord) :
    q.signalled.receiverOpen = q.receiverOpen := by
  unfold signalled
  split <;> rfl

theorem QueueRecord.finished_closed (q : QueueRecord) (expired : Bool) :
    (q.finished expired).closed = q.closed := by
  cases expired <;> exact signalled_closed _

theorem QueueRecord.finished_receiverOpen (q : QueueRecord) (expired : Bool) :
    (q.finished expired).receiverOpen = q.receiverOpen := by
  cases expired <;> exact signalled_receiverOpen _

theorem QueueRecord.pushed_closed (q : QueueRecord) (m : StoredMessage) :
    (q.pushed m).closed = q.closed := by
  unfold pushed
  split <;> rfl

theorem QueueRecord.admitted_closed (q : QueueRecord) (bytes epoch : Nat) (m : StoredMessage) :
    (q.admitted bytes epoch m).closed = q.closed := by
  unfold admitted
  rw [pushed_closed]
  split <;> rfl

theorem Origin.closed (h : Origin w k c q')
    (hcl : ∀ q, w.hub.queues.lookup c = some q → q.closed = true) :
    q'.closed = true ∨ w.hub.queues.lookup c = none := by
  cases h with
  | opened _ habs => exact .inr habs
  | trimmed hq htrim | reserved _ _ hq htrim | slowed _ hq htrim =>
      exact .inl (htrim.closed.trans (hcl _ hq))
  | admitted _ _ _ _ hq htrim =>
    rw [admitted_closed]
    exact .inl (htrim.closed.trans (hcl _ hq))
  | released _ _ hq | abandoned _ _ _ hq =>
    have := hcl _ hq
    exact .inl this
  | terminated => exact .inl rfl
  | finished _ hq =>
    rw [finished_closed]
    exact .inl (hcl _ hq)

section

variable (h : Attended w) (hs : StepMove config w w')

include h hs

theorem Attended.shut_keep
    (hf : FreshReceivers w w') {x : Receiver} (hx : w.receivers.lookup id = some x)
    (hshut : x.isOpen = false) (hq' : w'.hub.queues.lookup x.connectionId = some q') :
    q'.closed = true := by
  rcases (hs.effect.origin hq').closed (h.shut id x hx hshut) with hcl | habs
  · exact hcl
  · have hopen := hf _ habs (by rw [hq']; rfl) id x hx rfl
    rw [hshut] at hopen
    cases hopen

theorem Attended.shut_move (hf : FreshReceivers w w')
    {x' : Receiver} (hx' : w'.receivers.lookup id = some x') (hshut : x'.isOpen = false)
    (hq' : w'.hub.queues.lookup x'.connectionId = some q') : q'.closed = true := by
  have hold : w.receivers.lookup id = some x' → q'.closed = true :=
    fun hx => h.shut_keep hs hf hx hshut hq'
  -- a receiver that only changed its phase
  have hph : ∀ {i : Nat} {x : Receiver} {p : ReceiverPhase}, w.receivers.lookup i = some x →
      w'.receivers = w.receivers.insert i { x with phase := p } → q'.closed = true := by
    intro i x p hx hrecv
    rcases lookup_insert_iff.mp (hrecv ▸ hx') with ⟨rfl, rfl⟩ | ⟨-, hx'⟩
    · exact h.shut_keep hs hf hx hshut hq'
    · exact hold hx'
  cases hs.receivers with
  | kept hrecv => exact hold (hrecv ▸ hx')
  | opened hrecv =>
    rcases lookup_insert_iff.mp (hrecv ▸ hx') with ⟨-, rfl⟩ | ⟨-, hx'⟩
    · cases hshut
    · exact hold hx'
  | turned hx _ _ hrecv | took hx _ hrecv | handed hx _ _ hrecv
  | yielded hx _ _ _ hrecv => exact hph hx hrecv
  | shut hx _ hqueue hrecv =>
    rcases lookup_insert_iff.mp (hrecv ▸ hx') with ⟨rfl, rfl⟩ | ⟨-, hx'⟩
    · exact hqueue q' hq'
    · exact hold hx'
  | dropped _ _ hrecv => exact hold (lookup_erase_iff.mp (hrecv ▸ hx')).2

theorem Attended.closing_move {x' : Receiver}
    {dropping : Bool} (hx' : w'.receivers.lookup id = some x')
    (hph : x'.phase = .closing todo dropping) : x'.isOpen = false := by
  have hold : w.receivers.lookup id = some x' → x'.isOpen = false :=
    fun hx => h.closing id x' _ _ hx hph
  -- a receiver that went to a phase which is not closing
  have hput : ∀ {i : Nat} {x : Receiver}, (∀ todo dropping, x.phase ≠ .closing todo dropping) →
      w'.receivers = w.receivers.insert i x → x'.isOpen = false := by
    intro i x hne hrecv
    rcases lookup_insert_iff.mp (hrecv ▸ hx') with ⟨-, rfl⟩ | ⟨-, hx'⟩
    · exact absurd hph (hne _ _)
    · exact hold hx'
  cases hs.receivers with
  | kept hrecv => exact hold (hrecv ▸ hx')
  | opened hrecv | took _ _ hrecv | handed _ _ _ hrecv
  | yielded _ _ _ _ hrecv => exact hput (by simp) hrecv
  | turned hx _ hclosing hrecv =>
    rcases lookup_insert_iff.mp (hrecv ▸ hx') with ⟨rfl, rfl⟩ | ⟨-, hx'⟩
    · rcases hclosing _ _ hph with hshut | ⟨todo', hbef⟩
      · exact hshut
      · have hshut := h.closing _ _ _ _ hx hbef
        exact hshut
    · exact hold hx'
  | shut _ _ _ hrecv =>
    rcases lookup_insert_iff.mp (hrecv ▸ hx') with ⟨-, rfl⟩ | ⟨-, hx'⟩
    · rfl
    · exact hold hx'
  | dropped _ _ hrecv => exact hold (lookup_erase_iff.mp (hrecv ▸ hx')).2

theorem Attended.receivers_move
    (hq' : w'.hub.queues.lookup c = some q') (hopen : q'.isOpen = true) :
    q'.receiverOpen = true := by
  cases hs.effect.origin hq' with
  | opened => rfl
  | trimmed hq htrim =>
    rw [htrim.isOpen] at hopen
    exact htrim.receiverOpen.trans (h.receivers c _ hq hopen)
  | reserved _ _ hq htrim =>
    rw [reserved_isOpen, htrim.isOpen] at hopen
    exact htrim.receiverOpen.trans (h.receivers c _ hq hopen)
  | slowed => simp at hopen
  | admitted _ _ _ _ hq htrim =>
    rw [admitted_isOpen, htrim.isOpen] at hopen
    rw [admitted_receiverOpen]
    exact htrim.receiverOpen.trans (h.receivers c _ hq hopen)
  | released _ _ hq =>
    have hrec := h.receivers c _ hq
    exact hrec hopen
  | terminated => simp [isOpen] at hopen
  | abandoned hx hph hc hq =>
    -- the receiver had lost its queue, so this one is closed
    subst hc
    have hcl := h.shut _ _ hx (h.closing _ _ _ _ hx hph) _ hq
    simp [isOpen, hcl] at hopen
  | finished _ hq =>
    have hrec := h.receivers c _ hq (finished_wasOpen hopen)
    rw [← finished_receiverOpen, finished_isOpen hopen] at hrec
    cases hrec

theorem Attended.move (hf : FreshReceivers w w') :
    Attended w' where
  closing := fun _ _ _ _ hx hph => h.closing_move hs hx hph
  shut := fun _ _ hx hshut _ hq => h.shut_move hs hf hx hshut hq
  receivers := fun _ _ hq hopen => h.receivers_move hs hq hopen

end

theorem attended_start (registryConfig : RegistryConfig) : Attended (.start registryConfig) where
  closing := nofun
  shut := nofun
  receivers := nofun

/-! ## 2. Quiet hubs -/

/-- What `drain` waits for. -/
def World.Quiet (w : World) : Prop := w.hub.queuedMessages = 0 ∧ w.hub.reservedMessages = 0

theorem Sound.quiet_iff (h : Sound w) :
    w.Quiet ↔ ∀ c q, w.hub.queues.lookup c = some q → q.Void := by
  have ha := h.balanced.accounted
  constructor
  · intro hquiet c q hq
    exact ha.void hquiet.1 hquiet.2 hq
  · intro hvoid
    refine ⟨ha.queuedMessages.trans (total_eq_zero ?_),
      ha.reservedMessages.trans (total_eq_zero ?_)⟩
    · intro c q hq
      simp [queuedMessages, (hvoid c q hq).high, (hvoid c q hq).normal]
    · intro c q hq
      exact (hvoid c q hq).reservedMessages

/-- **A quiet hub stays quiet**, once the intake is closed. -/
theorem quiet_move (h : Sound w) (hw : Steady w) (h' : Sound w') (hatt' : Attended w')
    (hs : StepMove config w w') (hdrain : w.hub.draining = true) (hquiet : w.Quiet) : w'.Quiet := by
  rw [h'.quiet_iff]
  intro c q' hq'
  by_cases hopen : q'.isOpen = true
  · exact h.settled_keep hw hs hdrain (fun c q hq _ _ => h.quiet_iff.mp hquiet c q hq) hq' hopen
      (hatt'.receivers c q' hq' hopen)
  · exact h'.idle c q' hq' (by simpa using hopen)

/-- A drain that has found nothing left has found the hub quiet. -/
theorem Sound.quiet_of_finishing (h : Sound w) (hatt : Attended w)
    (ht : w.tasks.lookup id = some (.finishing false)) : w.Quiet := by
  rw [h.quiet_iff]
  intro c q hq
  by_cases hopen : q.isOpen = true
  · exact h.settled id ht c q hq hopen (hatt.receivers c q hq hopen)
  · exact h.idle c q hq (by simpa using hopen)

/-- **The outcome of a drain.**  One that reports that its deadline did not expire leaves a quiet
hub behind; and messages were dropped by force only if some drain reports, or will report, that its
deadline did. -/
structure Outcomes (w : World) : Prop where
  pending : ∀ id todo o, w.tasks.lookup id = some (.calling todo (some o)) →
    o.deadlineExpired = false → w.hub.draining = true ∧ w.Quiet
  returned : ∀ o ∈ w.returned, o.deadlineExpired = false → w.hub.draining = true ∧ w.Quiet
  forced : ∀ c m, (c, m, .forced) ∈ w.removed →
    w.Expired ∨ ∃ o ∈ w.returned, o.deadlineExpired = true

section

variable (h : TaskMove w w')

include h

/-- Where the outcome of a drain in progress comes from. -/
theorem TaskMove.outcome (ht : w'.tasks.lookup id = some (.calling todo (some o))) :
    (∃ todo', w.tasks.lookup id = some (.calling todo' (some o))) ∨
      w.tasks.lookup id = some (.finishing o.deadlineExpired) := by
  have hput : ∀ {i : Nat} {t : Task}, (∀ todo o, t ≠ .calling todo (some o)) →
      w'.tasks = w.tasks.insert i t →
      ∃ todo', w.tasks.lookup id = some (.calling todo' (some o)) := by
    intro i t hne hts
    rcases lookup_insert_iff.mp (hts ▸ ht) with ⟨-, rfl⟩ | ⟨-, ht⟩
    · exact absurd rfl (hne _ _)
    · exact ⟨todo, ht⟩
  cases h with
  | kept hts => exact .inl ⟨todo, hts ▸ ht⟩
  | spawned hpl hts =>
    refine .inl (hput ?_ hts)
    rintro todo o rfl
    cases hpl
  | drainSpawned hkind hts =>
    refine .inl (hput ?_ hts)
    rintro todo o rfl
    rcases hkind with hkind | hkind <;> cases hkind
  | ended _ _ hts | returned _ hts =>
      exact .inl ⟨todo, (lookup_erase_iff.mp (hts ▸ ht)).2⟩
  | slowed _ _ hts | drained _ _ _ _ hts | timedOut _ _ hts =>
      exact .inl (hput (by simp) hts)
  | called hlk hts =>
    rcases lookup_insert_iff.mp (hts ▸ ht) with ⟨rfl, heq⟩ | ⟨-, ht⟩
    · cases heq
      exact .inl ⟨_, hlk⟩
    · exact .inl ⟨todo, ht⟩
  | finished hlk hts =>
    rcases lookup_insert_iff.mp (hts ▸ ht) with ⟨rfl, heq⟩ | ⟨-, ht⟩
    · cases heq
      exact .inr hlk
    · exact .inl ⟨todo, ht⟩

/-- Where it goes: it stays until it is returned. -/
theorem TaskMove.outcome_kept (hw : Steady w)
    (ht : w.tasks.lookup id = some (.calling todo (some o))) :
    (∃ todo', w'.tasks.lookup id = some (.calling todo' (some o))) ∨ o ∈ w'.returned := by
  -- another task was replaced or removed
  have hoth : ∀ {i : Nat} {t : Task}, w.tasks.lookup i = some t →
      (∀ todo o, t ≠ .calling todo (some o)) → id ≠ i := by
    rintro i t hi hne rfl
    rw [ht, some.injEq] at hi
    exact hne _ _ hi.symm
  have hnew : id ≠ w.nextId := (hw.taskIds id _ ht).ne
  have hpl : ∀ {t : Task}, t.isPlain = true → ∀ todo o, t ≠ .calling todo (some o) := by
    rintro t hpl todo o rfl
    cases hpl
  cases h with
  | kept hts => exact .inl ⟨todo, hts ▸ ht⟩
  | spawned _ hts | drainSpawned _ hts =>
    rw [hts]
    exact .inl ⟨todo, (lookup_insert_ne hnew).trans ht⟩
  | ended hi hkind hts =>
    rw [hts]
    exact .inl ⟨todo, (lookup_erase_ne (hoth hi (hpl hkind))).trans ht⟩
  | slowed hi hkind hts =>
    rw [hts]
    exact .inl ⟨todo, (lookup_insert_ne (hoth hi (hpl hkind))).trans ht⟩
  | @called i op rest outcome hi hts =>
    rw [hts]
    by_cases heq : id = i
    · subst heq
      rw [ht, some.injEq, Task.calling.injEq] at hi
      rw [lookup_insert, ← hi.2]
      exact .inl ⟨rest, rfl⟩
    · exact .inl ⟨todo, (lookup_insert_ne heq).trans ht⟩
  | @returned i o' hi hts hret =>
    by_cases heq : id = i
    · subst heq
      rw [ht, some.injEq, Task.calling.injEq, some.injEq] at hi
      rw [hret, hi.2]
      exact .inr (mem_cons_self ..)
    · rw [hts]
      exact .inl ⟨todo, (lookup_erase_ne heq).trans ht⟩
  | drained hi _ _ _ hts | timedOut hi _ hts | finished hi hts =>
    rw [hts]
    exact .inl ⟨todo, (lookup_insert_ne (hoth hi (by simp))).trans ht⟩

theorem TaskMove.returned_from (ho : o ∈ w'.returned) :
    o ∈ w.returned ∨ ∃ id, w.tasks.lookup id = some (.calling [] (some o)) := by
  cases h with
  | returned hlk _ hret =>
    rw [hret] at ho
    rcases mem_cons.mp ho with rfl | ho
    · exact .inr ⟨_, hlk⟩
    · exact .inl ho
  | kept _ hsame | spawned _ _ _ hsame | drainSpawned _ _ _ _ hsame | ended _ _ _ hsame
  | slowed _ _ _ hsame | called _ _ hsame | drained _ _ _ _ _ hsame | timedOut _ _ _ hsame
  | finished _ _ hsame => exact .inl (hsame ▸ ho)

theorem TaskMove.returned_mono (ho : o ∈ w.returned) : o ∈ w'.returned := by
  cases h with
  | returned _ _ hret =>
    rw [hret]
    exact mem_cons_of_mem _ ho
  | kept _ hsame | spawned _ _ _ hsame | drainSpawned _ _ _ _ hsame | ended _ _ _ hsame
  | slowed _ _ _ hsame | called _ _ hsame | drained _ _ _ _ _ hsame | timedOut _ _ _ hsame
  | finished _ _ hsame => exact hsame ▸ ho

end

theorem ReceiverMove.forced (h : ReceiverMove w w') (hm : (c, m, .forced) ∈ w'.removed) :
    (c, m, .forced) ∈ w.removed ∨ w'.Expired := by
  have hlost : ∀ {lost : List (ConnectionId × StoredMessage × Fate)}, Dropped w' lost →
      w'.removed = lost ++ w.removed → (c, m, .forced) ∈ w.removed ∨ w'.Expired := by
    intro lost hdrp hrem
    rw [hrem] at hm
    rcases mem_append.mp hm with hm | hm
    · exact .inr ((hdrp _ hm).2 rfl)
    · exact .inl hm
  have hpopped : ∀ {d : ConnectionId} {m' : StoredMessage} {r : Nat},
      w'.removed = (d, m', .popped r) :: w.removed → (c, m, .forced) ∈ w.removed ∨ w'.Expired := by
    intro d m' r hrem
    rw [hrem] at hm
    rcases mem_cons.mp hm with heq | hm
    · cases heq
    · exact .inl hm
  cases h with
  | kept _ _ hrem hdrp | shut _ _ _ _ _ hrem hdrp => exact hlost hdrp hrem
  | opened _ _ _ hsame | turned _ _ _ _ _ hsame | yielded _ _ _ _ _ _ hsame
  | dropped _ _ _ _ hsame => exact .inl (hsame ▸ hm)
  | took _ _ _ _ hrem | handed _ _ _ _ _ hrem => exact hpopped hrem

theorem Outcomes.move (ho : Outcomes w) (h : Sound w) (hw : Steady w) (hatt : Attended w)
    (h' : Sound w') (hatt' : Attended w') (hs : StepMove config w w') : Outcomes w' := by
  have hkeep : w.hub.draining = true ∧ w.Quiet → w'.hub.draining = true ∧ w'.Quiet :=
    fun ⟨hd, hq⟩ => ⟨hs.draining hw hd, quiet_move h hw h' hatt' hs hd hq⟩
  refine ⟨?_, ?_, ?_⟩
  · intro id todo o ht hgrc
    refine hkeep ?_
    rcases hs.tasks.outcome ht with ⟨todo', ht⟩ | ht
    · exact ho.pending id todo' o ht hgrc
    · rw [hgrc] at ht
      exact ⟨hw.drains id _ ht (.inr ⟨_, rfl⟩), h.quiet_of_finishing hatt ht⟩
  · intro o hmem hgrc
    refine hkeep ?_
    rcases hs.tasks.returned_from hmem with hmem | ⟨id, ht⟩
    · exact ho.returned o hmem hgrc
    · exact ho.pending id [] o ht hgrc
  · intro c m hm
    rcases hs.receivers.forced hm with hm | hexp
    · rcases ho.forced c m hm with ⟨id, todo, o, ht, hexpired⟩ | ⟨o, hmem, hexpired⟩
      · rcases hs.tasks.outcome_kept hw ht with ⟨todo', ht'⟩ | hmem
        · exact .inl ⟨id, todo', o, ht', hexpired⟩
        · exact .inr ⟨o, hmem, hexpired⟩
      · exact .inr ⟨o, hs.tasks.returned_mono hmem, hexpired⟩
    · exact .inl hexp

/-! ## 3. Every admitted message is accounted for -/

def Core.Traces (k : Core) (c : ConnectionId) (m : StoredMessage) : Prop :=
  (∃ q, k.hub.queues.lookup c = some q ∧ m ∈ q.high ++ q.normal) ∨
    ∃ fate, (c, m, fate) ∈ k.removed

theorem QueueRecord.mem_pushed {x : StoredMessage} (h : x ∈ q.high ++ q.normal ∨ x = m) :
    x ∈ (q.pushed m).high ++ (q.pushed m).normal := by
  unfold pushed
  rw [mem_append] at h
  split <;> simp only [mem_append, mem_singleton] <;> tauto

theorem QueueRecord.mem_admitted {x : StoredMessage} {bytes epoch : Nat}
    (h : x ∈ q.high ++ q.normal ∨ x = m) :
    x ∈ (q.admitted bytes epoch m).high ++ (q.admitted bytes epoch m).normal := by
  refine mem_pushed ?_
  split <;> exact h

theorem QueueRecord.Void.not_mem (h : q.Void) : m ∉ q.high ++ q.normal := by
  simp [h.high, h.normal]

theorem QueueRecord.mem_signalled (h : m ∈ q.high ++ q.normal) :
    m ∈ q.signalled.high ++ q.signalled.normal := by
  unfold signalled
  split <;> exact h

/-- **No message leaves its queue untold.** -/
theorem Effect.traces (he : Effect config w k) (h : Sound w) (hq : w.hub.queues.lookup c = some q)
    (hm : m ∈ q.high ++ q.normal) : k.Traces c m := by
  have hlost : ∀ {gone : List (ConnectionId × StoredMessage)}
      {lost : List (ConnectionId × StoredMessage × Fate)}, Lost gone lost → (c, m) ∈ gone →
      ∃ fate, (c, m, fate) ∈ lost ++ w.removed := by
    intro gone lost hl hgone
    obtain ⟨fate, hfate⟩ := hl.reported _ hgone
    exact ⟨fate, mem_append_left _ hfate⟩
  cases he with
  | stay | failed | checked => exact .inl ⟨q, hq, hm⟩
  | @opened c₀ _ habs =>
    have hne : c ≠ c₀ := by
      rintro rfl
      rw [habs] at hq
      cases hq
    exact .inl ⟨q, (lookup_insert_ne hne).trans hq, hm⟩
  | reserved _ htrim hl hp _ hedit =>
    obtain ⟨q₁, hq₁, -, hgone⟩ := htrim.present c q hq
    rcases hgone m hm with hm₁ | hm₁
    · obtain ⟨rfl, rfl⟩ | hkept := hedit.passed hp hq₁
      · exact .inl ⟨_, hedit.self, hm₁⟩
      · exact .inl ⟨q₁, hkept, hm₁⟩
    · exact .inr (hlost hl hm₁)
  | slowed _ htrim hl hp _ hedit =>
    obtain ⟨q₁, hq₁, -, hgone⟩ := htrim.present c q hq
    rcases hgone m hm with hm₁ | hm₁
    · obtain ⟨rfl, rfl⟩ | hkept := hedit.passed hp hq₁
      · exact .inr (hlost hl (mem_append_right _ (mem_map.mpr ⟨m, hm₁, rfl⟩)))
      · exact .inl ⟨q₁, hkept, hm₁⟩
    · exact .inr (hlost hl (mem_append_left _ hm₁))
  | @admitted id r m' o t lost p _ _ hadm hl =>
    obtain ⟨q₁, hq₁, -, hgone⟩ := hadm.trim.present c q hq
    rcases hgone m hm with hm₁ | hm₁
    · rw [← stamp_queues t m'] at hq₁
      have hp := hadm.lookup
      rw [← stamp_queues t m'] at hp
      obtain ⟨rfl, rfl⟩ | hkept := hadm.edit.passed hp hq₁
      · exact .inl ⟨_, hadm.edit.self, mem_admitted (.inl hm₁)⟩
      · exact .inl ⟨q₁, hkept, hm₁⟩
    · exact .inr (hlost hl hm₁)
  | @released id r hr =>
    rcases releaseReservationLocked_cases w.hub r.connectionId r.reservedBytes r.reservationEpoch
      with ⟨heq, -⟩ | ⟨p, hp, -, ⟨hcl, -, hedit⟩ | hedit⟩
    · refine .inl ⟨q, ?_, hm⟩
      simp only [heq]
      exact hq
    · obtain ⟨rfl, rfl⟩ | hkept := hedit.passed hp hq
      · exact absurd hm (h.idle _ _ hp (by simp [isOpen, hcl])).not_mem
      · exact .inl ⟨q, hkept, hm⟩
    · obtain ⟨rfl, rfl⟩ | hkept := hedit.passed hp hq
      · exact .inl ⟨_, hedit.self, hm⟩
      · exact .inl ⟨q, hkept, hm⟩
  | popped _ _ _ _ _ htrim =>
    obtain ⟨q₁, hq₁, -, hgone⟩ := htrim.present c q hq
    rcases hgone m hm with hm₁ | hm₁
    · exact .inl ⟨q₁, hq₁, hm₁⟩
    · cases mem_singleton.mp hm₁
      exact .inr ⟨_, mem_cons_self ..⟩
  | terminated hp | abandoned _ _ hp =>
    obtain ⟨rfl, rfl⟩ | hkept := (edit_insert w.hub _ _).passed hp hq
    · exact .inl ⟨_, lookup_insert _, hm⟩
    · exact .inl ⟨q, hkept, hm⟩
  | closed hp hedit hl =>
    obtain ⟨rfl, rfl⟩ | hkept := hedit.passed hp hq
    · exact .inr (hlost hl (mem_map.mpr ⟨m, hm, rfl⟩))
    · exact .inl ⟨q, hkept, hm⟩
  | collected hp hcl =>
    obtain ⟨rfl, rfl⟩ | hkept := (edit_erase w.hub _).passed hp hq
    · exact absurd hm (h.idle _ _ hp (by simp [isOpen, hcl])).not_mem
    · exact .inl ⟨q, hkept, hm⟩
  | beganDrain =>
    refine .inl ⟨q, ?_, hm⟩
    simp only [beginDrain_queues]
    exact hq
  | @finished task expired o _ hfsh =>
    cases expired with
    | true =>
      exact .inr ⟨.forced, mem_append_left _
        (mem_map.mpr ⟨(c, m), hfsh.dropped rfl c q hq m hm, rfl⟩)⟩
    | false =>
      refine .inl ⟨q.signalled, ?_, mem_signalled hm⟩
      simp only [hfsh.lookup, hq]
      rfl

theorem Effect.removed_mono (he : Effect config w k) {y : ConnectionId × StoredMessage × Fate}
    (hy : y ∈ w.removed) : y ∈ k.removed := by
  cases he with
  | reserved | slowed | admitted | closed | finished => exact mem_append_right _ hy
  | popped => exact mem_cons_of_mem _ hy
  | _ => exact hy

/-- A message that was admitted was admitted before, or is in its queue now. -/
theorem Effect.admitted_from (he : Effect config w k) (hm : (c, m) ∈ k.admitted) :
    (c, m) ∈ w.admitted ∨ k.Traces c m := by
  cases he with
  | admitted _ _ hadm =>
    rcases mem_cons.mp hm with heq | hm
    · cases heq
      exact .inr (.inl ⟨_, hadm.edit.self, mem_admitted (.inr rfl)⟩)
    · exact .inl hm
  | _ => exact .inl hm

/-- **Every admitted message is in its queue or has a fate.** -/
def Traced (w : World) : Prop := ∀ c m, (c, m) ∈ w.admitted → w.Traces c m

theorem Traced.move (ht : Traced w) (h : Sound w) (hs : StepMove config w w') : Traced w' := by
  intro c m hm
  rcases hs.effect.admitted_from hm with hm | hnew
  · rcases ht c m hm with ⟨q, hq, hmem⟩ | ⟨fate, hfate⟩
    · exact hs.effect.traces h hq hmem
    · exact .inr ⟨fate, hs.effect.removed_mono hfate⟩
  · exact hnew

/-! ## 4. Runs -/

/-- What holds in every world that calm steps reach. -/
structure Calm (w : World) : Prop where
  sound : Sound w
  steady : Steady w
  attended : Attended w
  outcomes : Outcomes w
  traced : Traced w

theorem Calm.move (h : Calm w) (hs : StepMove config w w')
    (hf : FreshEpochs w.toCore w'.toCore) (hf' : FreshReceivers w w') : Calm w' := by
  have hsd := h.sound.move h.steady hs hf
  have hatt := h.attended.move hs hf'
  exact ⟨hsd, h.steady.move hs, hatt,
    h.outcomes.move h.sound h.steady h.attended hsd hatt hs, h.traced.move h.sound hs⟩

theorem calm_start (registryConfig : RegistryConfig) : Calm (.start registryConfig) where
  sound := sound_start registryConfig
  steady := steady_start registryConfig
  attended := attended_start registryConfig
  outcomes := ⟨nofun, nofun, nofun⟩
  traced := nofun

variable {registryConfig : RegistryConfig}

theorem Calm.reach (h : Calm w)
    (hre : (delivery registryConfig config).ReachIf (CalmStep config) w w') : Calm w' := by
  refine hre.invariant h ?_
  intro u a v hu hcalm hst
  exact hu.move (step_move hu.steady.typed hst) (hcalm.1 v hst) (hcalm.2 v hst)

theorem Steady.no_reservation (h : Steady w) (hdrain : w.hub.draining = true)
    (hre : (delivery registryConfig config).Reach w w') :
    w'.hub.draining = true ∧ ∀ id, (w'.reservations.lookup id).isSome = true →
      (w.reservations.lookup id).isSome = true := by
  refine (hre.invariant (I := fun u => Steady u ∧ u.hub.draining = true ∧
    ∀ id, (u.reservations.lookup id).isSome = true → (w.reservations.lookup id).isSome = true)
    ⟨h, hdrain, fun _ hid => hid⟩ ?_).2
  rintro u a v ⟨hu, hd, hsub⟩ - hst
  have hmove := step_move hu.typed hst
  refine ⟨hu.move hmove, hmove.draining hu hd, ?_⟩
  intro id hid
  obtain ⟨r, hr⟩ := isSome_iff_exists.mp hid
  refine hsub id ?_
  cases hmove.effect.held hr with
  | old hold =>
    rw [hold]
    rfl
  | new _ _ _ hint =>
    rw [hu.intake, hd] at hint
    cases hint

theorem finishLock_graceful {task : Nat} {order : List ConnectionId}
    (ht : w.tasks.lookup task = some (.finishing false))
    (hst : (delivery registryConfig config).step w (.finishLock task order) = some w') :
    w'.removed = w.removed := by
  simp only [delivery, World.step, World.finishLock, ht] at hst
  split at hst
  · rename_i hord
    cases hst
    rfl
  · cases hst

theorem pollRecv_terminal {s s' : HubState} {terminal : DeliveryTerminal}
    (hty : ∀ q, s.queues.lookup c = some q → q.Typed) (hq : s.queues.lookup c = some q)
    (hpoll : s.pollRecv c = (.terminal terminal, s')) : q.terminal = some terminal := by
  have hpolled := pollRecv_polled hty
  generalize s.pollRecv c = o at hpolled hpoll
  cases hpolled with
  | missing | message => cases hpoll
  | terminal hp hself =>
    cases hpoll
    rw [hp, some.injEq] at hq
    exact hq ▸ hself
  | idle =>
    rename_i p _ _ _
    cases hcl : p.closed <;> simp [hcl] at hpoll

/-- **A graceful drain loses nothing.**  In every interleaving of calm steps: once a drain has
begun no reservation is made; a quiet hub then stays quiet; when a drain has returned that its
deadline did not expire, every message ever admitted was taken by its receiver, purged, or removed
with its connection's close or slowness, or by force in ANOTHER drain that reports its deadline as
expired; the section that ends such a drain removes nothing; and a receiver that is told of the
drain has an empty queue. -/
theorem graceful_drain_of_calm
    (h : (delivery registryConfig config).ReachIf (CalmStep config)
      (delivery registryConfig config).start w) :
    (w.hub.draining = true → ∀ w', (delivery registryConfig config).Reach w w' →
      w'.hub.draining = true ∧ ∀ id, (w'.reservations.lookup id).isSome = true →
        (w.reservations.lookup id).isSome = true) ∧
    (w.hub.draining = true → w.Quiet →
      ∀ w', (delivery registryConfig config).ReachIf (CalmStep config) w w' → w'.Quiet) ∧
    (∀ o ∈ w.returned, o.deadlineExpired = false → ∀ c m, (c, m) ∈ w.admitted →
      ∃ fate, (c, m, fate) ∈ w.removed ∧
        (fate = .forced → w.Expired ∨ ∃ o' ∈ w.returned, o'.deadlineExpired = true)) ∧
    (∀ task order w', w.tasks.lookup task = some (.finishing false) →
      (delivery registryConfig config).step w (.finishLock task order) = some w' →
      w'.removed = w.removed) ∧
    (∀ c q s', w.hub.queues.lookup c = some q → w.hub.pollRecv c = (.terminal .draining, s') →
      q.high = [] ∧ q.normal = []) := by
  have hcalm := (calm_start registryConfig).reach h
  refine ⟨fun hdrain w' => hcalm.steady.no_reservation hdrain, ?_, ?_,
    fun task order w' => finishLock_graceful, ?_⟩
  · intro hdrain hquiet w' hre
    refine (hre.invariant (I := fun u => Calm u ∧ u.hub.draining = true ∧ u.Quiet)
      ⟨hcalm, hdrain, hquiet⟩ ?_).2.2
    rintro u a v ⟨hu, hd, hq⟩ hstep hst
    have hmove := step_move hu.steady.typed hst
    have hv := hu.move hmove (hstep.1 v hst) (hstep.2 v hst)
    exact ⟨hv, hmove.draining hu.steady hd,
      quiet_move hu.sound hu.steady hv.sound hv.attended hmove hd hq⟩
  · intro o ho hgrc c m hm
    have hquiet := (hcalm.outcomes.returned o ho hgrc).2
    rcases hcalm.traced c m hm with ⟨q, hq, hmem⟩ | ⟨fate, hfate⟩
    · exact absurd hmem (hcalm.sound.quiet_iff.mp hquiet c q hq).not_mem
    refine ⟨fate, hfate, ?_⟩
    rintro rfl
    exact hcalm.outcomes.forced c m hfate
  · intro c q s' hq hpoll
    have hterm := pollRecv_terminal (hcalm.steady.typed c) hq hpoll
    have hvoid := hcalm.sound.idle c q hq (by simp [isOpen, hterm])
    exact ⟨hvoid.high, hvoid.normal⟩

end

/-! ## 5. A quiet hub that does not stay quiet -/

/-- One message is admitted; a drain begins, the receiver takes the message, and the drain returns
in time. -/
def drainedInTime : List Action :=
  opening ++ [.reserveCheck firstConnection .normal 4096 none, .reserveLock 2,
    .admitCheck 0 plainPayload, .admitLock 0, .drainStart, .pollLock 1, .drainCheck 3,
    .finishLock 3 [firstConnection], .taskCall 3, .taskCall 3, .taskReturn 3]

theorem graceful_drain_of_calm_drainedInTime :
    ∃ w, (delivery smallRegistry oneSlot).ReachIf (CalmStep oneSlot)
        (delivery smallRegistry oneSlot).start w ∧
      w.admitted.length = 1 ∧ w.returned = [⟨false, 0⟩] ∧
      ∀ c m, (c, m) ∈ w.admitted → ∃ fate, (c, m, fate) ∈ w.removed := by
  have hrun : ∃ w, (delivery smallRegistry oneSlot).runIf (CalmStep oneSlot)
        (delivery smallRegistry oneSlot).start drainedInTime = some w ∧
      w.admitted.length = 1 ∧ w.returned = [⟨false, 0⟩] := ⟨_, rfl, rfl, rfl⟩
  obtain ⟨w, hw, hone, hret⟩ := hrun
  have hre := Machine.reachIf_of_runIf _ hw
  have h := graceful_drain_of_calm hre
  refine ⟨w, hre, hone, hret, ?_⟩
  intro c m hm
  obtain ⟨fate, hfate, -⟩ := h.2.2.1 ⟨false, 0⟩ (by simp [hret]) rfl c m hm
  exact ⟨fate, hfate⟩

/-- A connection is reopened before its old receiver has finished closing, and a slot reserved in
the new queue; the old receiver marks that queue abandoned, so the forced drain clears it and does
not close it. -/
def quietWithAReservation : List Action :=
  opening ++ [.openCheck firstConnection, .reserveCheck firstConnection .normal 4096 none,
    .dropLock 1, .openLock 2, .reserveLock 3, .receiverCall 1, .receiverCall 1, .dropEnd 1,
    .forceClose, .finishLock 5 [firstConnection]]

/-- **The hub is draining and quiet, and a message is admitted to it.** -/
theorem quiet_hub_admits :
    ∃ w w', (delivery smallRegistry oneSlot).Reach (delivery smallRegistry oneSlot).start w ∧
      w.hub.draining = true ∧ w.Quiet ∧ (delivery smallRegistry oneSlot).Reach w w' ∧
      w'.hub.queuedMessages = 1 ∧ ¬ w'.Quiet := by
  refine ⟨_, _, Machine.reach_of_run quietWithAReservation rfl, rfl, ⟨rfl, rfl⟩,
    Machine.reach_of_run [.admitCheck 0 plainPayload, .admitLock 0] rfl, rfl, ?_⟩
  intro hstill
  cases hstill.1

end Omnius.Realtime.Delivery
