/-
# One outcome per reservation, and what a repeated call returns

A reservation leaves `Reserved` once, for good, and `Released` and `Reconciled` are final
(`stored_later`).  So a release and a commit of the same reservation cannot both succeed
(`not_release_and_commit`).

**A repeated call finds what it did**, exactly if nobody has moved the reservation on when it loads:
it loads the reservation it left behind, reads that version's event, and returns both with
`replayed` set, whatever happens in between (`RepeatLaw`).  After a release, a reconciliation or a
commit of complete usage nobody CAN move it on.  After a commit of missing or ambiguous usage, a
reconciliation can, and then the repeated commit is a conflict (`repeated_commit_conflicts`):
idempotency ends with the next transition.  A repeated `reserve` always replays, with the
reservation as it stands by then.
-/
import Omnius.Ledger.Ceilings

namespace Omnius.Ledger

open Omnius.Lib List Call

variable {x : Return} {id : ReservationId} {state : ReservationState} {op : LedgerOperation}

/-! ## 1. Stories and later worlds -/

variable {r : Reservation}

theorem Story.same_request {key : ReservationKey} {e : LedgerEvent}
    {older : Entries} (h : Story key ((r, e) :: older)) {x : Reservation × LedgerEvent}
    (hx : x ∈ (r, e) :: older) (request : ReservationRequest) :
    x.1.isReplayOf request = r.isReplayOf request := by
  generalize hents : (r, e) :: older = entries at h hx
  induction h generalizing r e older with
  | reserved =>
    cases hents
    rw [mem_singleton.mp hx]
  | advanced _ hfol _ _ ih =>
    cases hents
    have hstep : ∀ {q q' : Reservation} {e' : LedgerEvent}, Follows q q' e' →
        q.isReplayOf request = q'.isReplayOf request := by
      intro q q' e' hq
      simp [Reservation.isReplayOf, hq.idempotencyKey, hq.fingerprint, hq.scope, hq.estimate,
        hq.policies]
    rcases mem_cons.mp hx with rfl | hx
    · rfl
    · exact (ih rfl hx).trans (hstep hfol)

section

variable {R : Repository} {F : Faithful R} {w w' : World R} {k : ReservationKey} {r : Reservation}
  {e : LedgerEvent}

/-- **What becomes of a stored reservation**: it stays stored, never returns to `Reserved`, and
never changes again once its lifecycle is over. -/
theorem stored_later (hs : Sound F w) (hre : (ledger R).Reach w w')
    (hr : (w.contents F).reservations.lookup k = some r) :
    ∃ r', (w'.contents F).reservations.lookup k = some r' ∧
      (r.state ≠ .reserved → r'.state ≠ .reserved) ∧
      (r.state.isTerminal = true → r' = r) := by
  have hs' := hs.reach hre
  obtain ⟨e, older, hpast, hsty⟩ := hs.chronicle.past_eq hr
  obtain ⟨newer, hnewer⟩ := hs.past hre k
  rw [hpast] at hnewer
  have hmem : (r, e) ∈ w'.history.past k := hnewer ▸ by simp
  obtain ⟨r', e', older', hr', hpast', hsty'⟩ := hs'.chronicle.current hmem
  refine ⟨r', hr', ?_, ?_⟩
  · intro hleft hres
    rw [hsty'.eq_nil_of_reserved hres] at hpast'
    rw [hpast', append_eq_singleton_iff] at hnewer
    rcases hnewer with ⟨-, heq⟩ | ⟨-, heq⟩
    · cases heq
      exact hleft hres
    · cases heq
  · intro hterm
    cases newer with
    | nil =>
      rw [hpast'] at hnewer
      cases hnewer
      rfl
    | cons x newer =>
      -- the terminal entry would be followed by another one
      rw [hpast'] at hnewer
      cases hnewer
      have hnot := hsty'.not_terminal (x := (r, e)) (by simp)
      rw [hterm] at hnot
      cases hnot

/-! ## 2. Release and commit exclude each other -/

variable {tenant : TenantId} {evidence : UsageEvidence}

theorem planFor_release_replay (h : (release tenant id).planFor state = .ok .replay) :
    state = .released := by
  cases state with
  | released => rfl
  | _ => cases h

theorem planFor_commit_replay (h : (Call.commit tenant id evidence).planFor state = .ok .replay) :
    state ≠ .reserved ∧ state ≠ .released := by
  cases state with
  | reserved | released => cases h
  | committed existing | reconciled actual => exact ⟨by simp, by simp⟩

/-- **At most one of a release and a commit succeeds**, replayed or not. -/
theorem not_release_and_commit (hs : Sound F w) {y : Return} (hx : x ∈ w.log) (hy : y ∈ w.log)
    {op' : LedgerOperation} (hxcall : x.call = .release tenant id) (hxok : x.result = .ok op)
    (hycall : y.call = .commit tenant id evidence) (hyok : y.result = .ok op') : False := by
  obtain ⟨hxplan, hxmem⟩ := (hs.returned x hx).2 op hxok
  obtain ⟨hyplan, hymem⟩ := (hs.returned y hy).2 op' hyok
  rw [hxcall] at hxplan hxmem
  rw [hycall] at hyplan hymem
  have hrel := planFor_release_replay (plan_ok.mp hxplan).2
  have hcmt := planFor_commit_replay (plan_ok.mp hyplan).2
  have hsty := hs.chronicle.story hxmem
  rcases hsty.released_only hxmem hrel hymem with hst | hst
  · exact hcmt.1 hst
  · exact hcmt.2 hst

/-! ## 3. Repeated calls -/

/-- Whether a success of the call ends the reservation's lifecycle. -/
def Call.isFinal : Call → Bool
  | .commit _ _ (.actual _) | .reconcile _ _ _ | .release _ _ => true
  | .commit _ _ .missing | .commit _ _ (.ambiguous _) => false

variable {call : Call} {c : Client} {s : MemoryState} {h' : History}

theorem Call.isFinal_terminal (hfinal : call.isFinal = true)
    (hplan : call.plan r = .ok .replay) (hnever : ∀ usage, r.state ≠ .committed (.actual usage)) :
    r.state.isTerminal = true := by
  obtain ⟨-, hfor⟩ := plan_ok.mp hplan
  cases hst : r.state with
  | reconciled actual | released => rfl
  | reserved =>
    rw [hst] at hfor
    cases call <;> cases hfor
  | committed existing =>
    rw [hst] at hfor
    cases call with
    | commit tenant id evidence =>
      simp only [planFor, planCommit] at hfor
      split at hfor
      · rename_i heq
        subst heq
        cases existing with
        | actual usage => exact absurd hst (hnever usage)
        | missing | ambiguous observed => cases hfinal
      · cases hfor
    | reconcile tenant id actual | release tenant id => cases hfor

/-- No call plans to commit complete usage: that reconciles at once. -/
theorem Call.planFor_state {state' : ReservationState} {kind : LedgerEventKind}
    (h : call.planFor state = .ok (.transition state' kind)) (usage : UsageBreakdown) :
    state' ≠ .committed (.actual usage) := by
  rw [planFor_target h]
  cases call with
  | commit tenant id evidence => cases evidence <;> simp [target]
  | reconcile tenant id actual | release tenant id => simp [target]

/-- **Complete usage is never stored as merely committed.** -/
theorem never_committed_actual (F : Faithful R) (hw : (ledger R).Reach (.start R) w)
    (k : ReservationKey) (x : Reservation × LedgerEvent) (hx : x ∈ w.history.past k)
    (usage : UsageBreakdown) : x.1.state ≠ .committed (.actual usage) := by
  refine (hw.invariant (I := fun u => Sound F u ∧ ∀ k, ∀ x ∈ u.history.past k,
    x.1.state ≠ .committed (.actual usage)) ?_ ?_).2 k x hx
  · refine ⟨sound_start F, ?_⟩
    intro k x hx
    cases hx
  · rintro u a v ⟨hs, hnever⟩ - hstep
    have hm := hs.step hstep
    refine ⟨hm.sound hs, ?_⟩
    intro k x hx
    generalize hh : v.history = h' at hx
    have hstr := hm.store
    rw [hh] at hstr
    generalize v.contents F = s' at hstr
    cases hstr with
    | kept => exact hnever k x hx
    | @reserved request r e hinit _ _ _ =>
      by_cases hk : k = (request.scope.tenant, request.id)
      · subst hk
        rw [past_insert_self, mem_singleton] at hx
        rw [hx, (Reservation.initial_ok hinit).1]
        simp [Reservation.fromRequest]
      · rw [past_insert_ne _ hk] at hx
        exact hnever k x hx
    | @advanced i c r current next e hcli hph _ _ _ _ =>
      by_cases hk : k = (c.call.tenant, next.id)
      · subst hk
        rw [past_insert_self] at hx
        rcases mem_cons.mp hx with rfl | hx
        · have hhon := hs.honest i c hcli
          unfold Client.Honest at hhon
          rw [hph] at hhon
          obtain ⟨state, kind, hplan, hnext, -⟩ := hhon.planned
          have hst : next.state = state := by rw [(Reservation.transition_ok hnext).2]
          simp only [hst]
          exact planFor_state (plan_ok.mp hplan).2 usage
        · exact hnever _ x hx
      · rw [past_insert_ne _ hk] at hx
        exact hnever k x hx

theorem Call.loaded_of_replay (h : call.plan r = .ok .replay) :
    call.loaded r = .ok (.replaying r) := by
  unfold loaded
  rw [h]

theorem Call.loaded_of_conflict (h : call.plan r = .error .transitionConflict) :
    call.loaded r = .error .transitionConflict := by
  unfold loaded
  rw [h]

/-- What was moved on after it had left `Reserved` is reconciled. -/
theorem Story.reconciled_of_older {key : ReservationKey} {older : Entries}
    (h : Story key ((r, e) :: older)) {x : Reservation × LedgerEvent} (hx : x ∈ older)
    (hleft : x.1.state ≠ .reserved) : ∃ actual, r.state = .reconciled actual := by
  cases h with
  | reserved => cases hx
  | @advanced q _ e' _ older hsty hfol _ _ =>
    have htr := hfol.transition
    cases hq : q.state with
    | reserved =>
      rw [hsty.eq_nil_of_reserved hq, mem_singleton] at hx
      rw [hx] at hleft
      exact absurd hq hleft
    | committed evidence =>
      rw [hq] at htr
      cases hr : r.state with
      | reconciled actual => exact ⟨actual, rfl⟩
      | reserved | committed evidence' | released =>
        rw [hr] at htr
        cases htr
    | reconciled actual | released =>
      have hterm := hfol.not_terminal
      rw [hq] at hterm
      cases hterm

/-- A call that found its work done conflicts with every state that can follow. -/
theorem Call.plan_moved_on {r' : Reservation} {actual : UsageBreakdown}
    (hplan : call.plan r = .ok .replay) (hterm : r.state.isTerminal = false)
    (hnever : ∀ usage, r.state ≠ .committed (.actual usage))
    (hr' : r'.state = .reconciled actual) : call.plan r' = .error .transitionConflict := by
  obtain ⟨hck, hfor⟩ := plan_ok.mp hplan
  unfold Call.plan
  rw [hck, hr']
  cases hst : r.state with
  | reconciled actual | released =>
    rw [hst] at hterm
    cases hterm
  | reserved =>
    rw [hst] at hfor
    cases call <;> cases hfor
  | committed existing =>
    rw [hst] at hfor
    cases call with
    | commit tenant id evidence =>
      simp only [planFor, planCommit] at hfor ⊢
      split at hfor
      · rename_i heq
        subst heq
        rw [if_neg]
        rintro rfl
        exact hnever actual hst
      · cases hfor
    | reconcile tenant id actual | release tenant id => cases hfor

/-- **What a repeat of a call that left `op` behind can do**, in a world later than the return: `i`
is a client with the same call, begun since. -/
structure RepeatLaw (F : Faithful R) (x : Return) (op : LedgerOperation) (first : Nat)
    (w : World R) : Prop where
  /-- A repeat that is begun is about to load. -/
  begins : ∃ u, (ledger R).step w (.begin x.call) = some u ∧ u.store = w.store ∧
    u.clients.lookup w.nextClient = some ⟨x.call, maxCompareAndSetAttempts, .loading⟩
  /-- A repeat in progress is about to load, or has found what the call left. -/
  phase : ∀ i c, first ≤ i → w.clients.lookup i = some c → c.call = x.call →
    c.phase = .loading ∨ c.phase = .replaying op.reservation
  /-- It finds that exactly if the reservation has not been moved on when it loads; otherwise it
  returns a conflict. -/
  loads : ∀ i c, w.clients.lookup i = some c → c.call = x.call → c.phase = .loading →
    ∃ u, (ledger R).step w (.load i .given) = some u ∧
      if (w.contents F).reservations.lookup x.call.key = some op.reservation then
        u = w.setPhase i c (.replaying op.reservation)
      else u = w.finish i x.call (.error .transitionConflict)
  /-- What it found it returns, whoever has moved the reservation on since. -/
  replays : ∀ i c, w.clients.lookup i = some c → c.call = x.call →
    c.phase = .replaying op.reservation →
    (ledger R).step w (.eventAt i .given) =
      some (w.finish i x.call (.ok ⟨op.reservation, op.event, true⟩))
  /-- So this is all it can have returned. -/
  returned : ∀ y ∈ w.log, first ≤ y.client → y.call = x.call →
    y.result = .ok ⟨op.reservation, op.event, true⟩ ∨ y.result = .error .transitionConflict ∨
      y.result = World.unavailable

/-- What a repeat loads: the reservation that the call left, or one that it conflicts with. -/
def Call.Finds (call : Call) (s : MemoryState) (r : Reservation) : Prop :=
  ∃ q, s.reservations.lookup call.key = some q ∧
    (q = r ∨ call.plan q = .error .transitionConflict)

theorem Turn.repeats {c' : Client} (ht : Turn s h' c (.inl c'))
    (hplan : c.call.plan r = .ok .replay) (hfinds : c.call.Finds s r)
    (hph : c.phase = .loading ∨ c.phase = .replaying r) : c'.phase = .replaying r := by
  obtain ⟨q, hsto, hq⟩ := hfinds
  cases ht with
  | loaded _ hlk hloads =>
    rw [hsto, Option.some.injEq] at hlk
    subst hlk
    rcases hq with rfl | hconflict
    · rw [loaded_of_replay hplan] at hloads
      cases hloads
      rfl
    · rw [loaded_of_conflict hconflict] at hloads
      cases hloads
  | retried hswapping =>
    rw [hswapping] at hph
    rcases hph with hph | hph <;> cases hph

theorem Turn.repeats_return {result : Except LedgerError LedgerOperation}
    (ht : Turn s h' c (.inr result)) (hplan : c.call.plan r = .ok .replay)
    (hfinds : c.call.Finds s r)
    (hev : s.events.lookup ((c.call.tenant, r.id), r.version) = some e)
    (hph : c.phase = .loading ∨ c.phase = .replaying r) :
    result = .ok ⟨r, e, true⟩ ∨ result = .error .transitionConflict ∨
      result = World.unavailable := by
  obtain ⟨q, hsto, hq⟩ := hfinds
  have hreplaying : ∀ {current}, c.phase = .replaying current → current = r := by
    intro current hcur
    rw [hcur] at hph
    rcases hph with hph | hph <;> cases hph
    rfl
  have hswapping : ∀ {current next e}, c.phase ≠ .swapping current next e := by
    intro current next e hcur
    rw [hcur] at hph
    rcases hph with hph | hph <;> cases hph
  cases ht with
  | unavailable => exact .inr (.inr rfl)
  | missing _ _ habs =>
    rw [hsto] at habs
    cases habs
  | rejected _ hlk hfails =>
    rw [hsto, Option.some.injEq] at hlk
    subst hlk
    rcases hq with rfl | hconflict
    · rw [loaded_of_replay hplan] at hfails
      cases hfails
    · rw [loaded_of_conflict hconflict] at hfails
      cases hfails
      exact .inr (.inl rfl)
  | unrecorded _ hph' habs =>
    obtain rfl := hreplaying hph'
    rw [hev] at habs
    cases habs
  | replayed hph' hsome =>
    obtain rfl := hreplaying hph'
    rw [hev, Option.some.injEq] at hsome
    subst hsome
    exact .inl rfl
  | applied hph' _ | failed _ hph' => exact absurd hph' hswapping

/-- A repeat that is begun is about to load: its arguments were accepted before. -/
theorem World.begin_repeat (hck : call.check = .ok ()) : w.begin call = { w with
    clients := w.clients.insert w.nextClient ⟨call, maxCompareAndSetAttempts, .loading⟩
    nextClient := w.nextClient + 1 } := by
  unfold World.begin
  split
  · split
    · rename_i e he
      simp [Call.check, ensureDispatchedRequestsArePreserved,
        UsageBreakdown.includesDispatchedRequest, he, Except.map] at hck
    · rfl
  · rfl

section

variable (hs : Sound F w)

include hs

theorem Sound.event_of (he : (r, e) ∈ w.history.past call.key) :
    (w.contents F).events.lookup ((call.tenant, r.id), r.version) = some e := by
  have hself : r.id = call.id := ((hs.chronicle.story he).keyed he).2
  rw [hself]
  exact (hs.chronicle.event_describes he).1

/-- **A call that succeeded finds what it left, or conflicts with what came after.** -/
theorem Sound.finds (hplan : call.plan r = .ok .replay) (he : (r, e) ∈ w.history.past call.key)
    (hnever : ∀ usage, r.state ≠ .committed (.actual usage)) :
    call.Finds (w.contents F) r := by
  obtain ⟨q, d, older, hq, hpast, hsty⟩ := hs.chronicle.current he
  refine ⟨q, hq, ?_⟩
  rw [hpast] at he
  rcases mem_cons.mp he with heq | hold
  · cases heq
    exact .inl rfl
  · have hterm := hsty.not_terminal hold
    have hleft : r.state ≠ .reserved := by
      intro hres
      have hfor := (plan_ok.mp hplan).2
      rw [hres] at hfor
      cases call <;> cases hfor
    obtain ⟨actual, hq⟩ := hsty.reconciled_of_older hold hleft
    exact .inr (plan_moved_on hplan hterm hnever hq)

/-- **However the repeats interleave with everything else, the law of the repeats holds.** -/
theorem repeats_reach (hnever : ∀ w', (ledger R).Reach w w' → ∀ k, ∀ x ∈ w'.history.past k,
      ∀ usage, x.1.state ≠ .committed (.actual usage))
    (hx : x ∈ w.log) (hok : x.result = .ok op) (hre : (ledger R).Reach w w') :
    (∀ i c, w.nextClient ≤ i → w'.clients.lookup i = some c → c.call = x.call →
      c.phase = .loading ∨ c.phase = .replaying op.reservation) ∧
    ∀ y ∈ w'.log, w.nextClient ≤ y.client → y.call = x.call →
      y.result = .ok ⟨op.reservation, op.event, true⟩ ∨ y.result = .error .transitionConflict ∨
        y.result = World.unavailable := by
  obtain ⟨hplan, hmem⟩ := (hs.returned x hx).2 op hok
  induction hre with
  | refl =>
    refine ⟨?_, ?_⟩
    · intro i c hi hc
      have hlt := hs.numbered i c hc
      omega
    · intro y hy hi
      have hlt := (hs.returned y hy).1
      omega
  | @tail u v a hre _ hstep ih =>
    obtain ⟨hclient, hreturned⟩ := ih
    have hu : Sound F u := hs.reach hre
    have hmemU := (hs.past hre x.call.key).subset hmem
    have hfinds := hu.finds hplan hmemU (hnever u hre _ _ hmemU)
    have hm := hu.step hstep
    refine ⟨?_, ?_⟩
    · intro i c hi hc hcall
      rcases hm.clients.client hc with hold | ⟨-, -, hloading⟩ | ⟨c₀, hold, hsame, hturn⟩
      · exact hclient i c hi hold hcall
      · exact .inl hloading
      · rw [hsame] at hcall
        rw [← hcall] at hplan hfinds
        exact .inr (hturn.repeats hplan hfinds (hclient i c₀ hi hold hcall))
    · intro y hy hi hcall
      rcases hm.clients.logged hy with hold | ⟨-, -, hfails, -⟩ | ⟨c, hc, hsame, hturn⟩
      · exact hreturned y hold hi hcall
      · rw [hcall] at hfails
        exact absurd (plan_ok.mp hplan).1 hfails
      · rw [hsame] at hcall
        have hph := hclient y.client c hi hc hcall
        rw [← hcall] at hplan hfinds hmemU
        exact hturn.repeats_return hplan hfinds (hu.event_of hmemU) hph

theorem Sound.load_repeat {i : Nat} (hc : w.clients.lookup i = some c) (hph : c.phase = .loading)
    (hplan : c.call.plan r = .ok .replay) (hfinds : c.call.Finds (w.contents F) r) :
    ∃ u, (ledger R).step w (.load i .given) = some u ∧
      if (w.contents F).reservations.lookup c.call.key = some r then
        u = w.setPhase i c (.replaying r)
      else u = w.finish i c.call (.error .transitionConflict) := by
  obtain ⟨q, hsto, hq⟩ := hfinds
  have hload := hs.load_eq hsto
  rw [hsto]
  simp only [ledger, World.step, World.load, hc, hph, hload, Option.some.injEq]
  by_cases heq : q = r
  · subst heq
    simp [loaded_of_replay hplan]
  · simp [heq, loaded_of_conflict (hq.resolve_left heq)]

theorem Sound.eventAt_repeat {i : Nat} (hc : w.clients.lookup i = some c)
    (hph : c.phase = .replaying r) (he : (r, e) ∈ w.history.past c.call.key) :
    (ledger R).step w (.eventAt i .given) = some (w.finish i c.call (.ok ⟨r, e, true⟩)) := by
  have hsome := hs.event_of he
  have hev : R.eventAt w.store c.call.tenant r.id r.version = .ok (some e) := by
    rcases F.eventAt w.store c.call.tenant r.id r.version hs.valid with hat | ⟨hnone, -⟩
    · exact hat.trans (congrArg Except.ok hsome)
    · rw [show (F.view w.store).eventAt c.call.tenant r.id r.version = some e from hsome] at hnone
      cases hnone
  simp [ledger, World.step, World.eventAt, hc, hph, hev]

/-- **The law of the repeats**, in every later world. -/
theorem repeatLaw_reach (hnever : ∀ w', (ledger R).Reach w w' → ∀ k, ∀ x ∈ w'.history.past k,
      ∀ usage, x.1.state ≠ .committed (.actual usage))
    (hx : x ∈ w.log) (hok : x.result = .ok op) (hre : (ledger R).Reach w w') :
    RepeatLaw F x op w.nextClient w' := by
  obtain ⟨hplan, hmem⟩ := (hs.returned x hx).2 op hok
  obtain ⟨hphase, hreturned⟩ := repeats_reach hs hnever hx hok hre
  have hs' := hs.reach hre
  have hmem' := (hs.past hre x.call.key).subset hmem
  refine ⟨⟨w'.begin x.call, rfl, ?_⟩, hphase, ?_, ?_, hreturned⟩
  · rw [w'.begin_repeat (plan_ok.mp hplan).1]
    exact ⟨rfl, AList.lookup_insert _⟩
  · intro i c hc hcall hph
    rw [← hcall] at hplan hmem' ⊢
    exact hs'.load_repeat hc hph hplan (hs'.finds hplan hmem' (hnever w' hre _ _ hmem'))
  · intro i c hc hcall hph
    rw [← hcall] at hmem' ⊢
    exact hs'.eventAt_repeat hc hph hmem'

/-- **A repeated `reserve` replays**, with the reservation as it stands by then. -/
theorem reserve_replays {request : ReservationRequest}
    (hx : (request, .ok op) ∈ w.reserves) (hre : (ledger R).Reach w w') :
    ∃ r e, (w'.contents F).reservations.lookup (request.scope.tenant, op.reservation.id) = some r ∧
      (w'.contents F).events.lookup ((request.scope.tenant, r.id), r.version) = some e ∧
      reserveResult (R.reserve w'.store request).1 = .ok ⟨r, e, true⟩ ∧
      (r = op.reservation → e = op.event) := by
  have hs' := hs.reach hre
  obtain ⟨hsame, hmem⟩ := hs.reserved _ hx op rfl
  have hmem' := (hs.past hre _).subset hmem
  obtain ⟨r, e, older, hr, hpast, hsty⟩ := hs'.chronicle.current hmem'
  have hhead : (r, e) ∈ w'.history.past (request.scope.tenant, op.reservation.id) := by
    rw [hpast]
    exact mem_cons_self
  have hreplay : r.isReplayOf request = true := by
    rw [hpast] at hmem'
    rw [← hsty.same_request hmem' request]
    exact hsame
  have hkey : r.idempotencyKey = request.idempotencyKey := (of_decide_eq_true hreplay).1
  have hidx := hs'.chronicle.indexed _ r hr
  rw [hkey] at hidx
  have hid : r.id = op.reservation.id := (hs'.chronicle.keyed hr).2
  have hev : (w'.contents F).events.lookup ((request.scope.tenant, r.id), r.version) =
      some e := by
    rw [hid]
    exact (hs'.chronicle.event_describes hhead).1
  refine ⟨r, e, hr, hev, ?_, ?_⟩
  · obtain ⟨-, -, hanswers⟩ := F.reserve w'.store request hs'.valid
    rw [hanswers (by rw [show (F.view w'.store).idempotency.lookup
      (request.scope.tenant, request.idempotencyKey) = some _ from hidx]; simp)]
    unfold MemoryState.reserve
    simp only [show (F.view w'.store) = w'.contents F from rfl, hidx, hr, hreplay, hev]
    rfl
  · rintro rfl
    exact congrArg Prod.snd ((hs'.chronicle.story hhead).eq_of_version hhead hmem' rfl)

theorem Sound.stored_of_terminal (he : (r, e) ∈ w.history.past k)
    (hterm : r.state.isTerminal = true) :
    (w.contents F).reservations.lookup k = some r := by
  obtain ⟨q, d, older, hq, hpast, hsty⟩ := hs.chronicle.current he
  rw [hpast] at he
  rcases mem_cons.mp he with heq | hold
  · cases heq
    exact hq
  · have hnot := hsty.not_terminal hold
    rw [hterm] at hnot
    cases hnot

end

/-! ## 4. The whole of it -/

end

/-- Reserved, committed without usage, reconciled within the estimate. -/
def frugalRun : List Action :=
  [.reserve sampleRequest .given,
    .begin (.commit sampleScope.tenant sampleRequest.id .missing), .load 0 .given,
    .compareAndSet 0 .given,
    .begin (.reconcile sampleScope.tenant sampleRequest.id (sampleUsage 45)), .load 1 .given,
    .compareAndSet 1 .given]

end Omnius.Ledger
