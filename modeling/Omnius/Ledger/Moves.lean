/-
# What one step of the ledger can do

A step has three sides: what it does to the store (`StoreMove`), to the clients and what they
return (`ClientMove`), and to the calls of `reserve` that have returned (`ReserveMove`).
`step_move` is the INVERSION of `World.step` on all three, over any faithful repository; from here
on a repository is only seen through its `view`.

What makes the inversion possible is that a client in progress is HONEST: what it is about to swap
in is the successor, by the call's own plan, of what it loaded.  What it loaded may long be out of
date.
-/
import Omnius.Ledger.Chronicle

namespace Omnius.Ledger

open Omnius.Lib

/-! ## 1. Plans -/

def Call.key (call : Call) : ReservationKey := (call.tenant, call.id)

variable {r : Reservation} {state : ReservationState} {call : Call}

theorem Call.plan_ok {p : Plan} :
    call.plan r = .ok p ↔ call.check = .ok () ∧ call.planFor r.state = .ok p := by
  unfold Call.plan
  cases call.check with
  | error e | ok => simp

def Call.target : Call → ReservationState
  | .commit _ _ (.actual usage) | .reconcile _ _ usage => .reconciled usage
  | .commit _ _ evidence => .committed evidence
  | .release _ _ => .released

variable {state' : ReservationState}

theorem Call.planFor_target {kind : LedgerEventKind}
    (h : call.planFor state = .ok (.transition state' kind)) : state' = call.target := by
  cases call with
  | commit tenant id evidence =>
    cases state with simp only [Call.planFor, planCommit] at h
    | reserved => cases evidence <;> cases h <;> rfl
    | committed existing | reconciled actual => split at h <;> cases h
    | released => cases h
  | reconcile tenant id actual =>
    cases state with simp only [Call.planFor, planReconcile] at h
    | reserved | released => cases h
    | committed existing =>
      cases h
      rfl
    | reconciled existing => split at h <;> cases h
  | release tenant id =>
    cases state <;> cases h
    rfl

theorem Call.planFor_replay {kind : LedgerEventKind}
    (h : call.planFor state = .ok (.transition state' kind)) :
    call.planFor state' = .ok .replay := by
  obtain rfl := Call.planFor_target h
  cases call with
  | commit tenant id evidence => cases evidence <;> simp [Call.planFor, planCommit, Call.target]
  | reconcile tenant id actual => simp [Call.planFor, planReconcile, Call.target]
  | release tenant id => rfl

/-- `next` and `event` are what the call makes of `current`. -/
structure Swaps (call : Call) (current next : Reservation) (event : LedgerEvent) : Prop where
  planned : ∃ state kind, call.plan current = .ok (.transition state kind) ∧
    current.transition state = .ok next ∧
    LedgerEvent.forTransition kind current.effectiveUsage next = .ok event
  owner : current.scope.tenant = call.tenant
  self : current.id = call.id

theorem Reservation.transition_ok {r' : Reservation} (h : r.transition state = .ok r') :
    checkedNext r.version = .ok r'.version ∧
      r' = { r with state := state, version := r'.version } := by
  unfold Reservation.transition at h
  split at h
  · cases h
  rename_i v hv
  cases h
  exact ⟨hv, rfl⟩

theorem Call.loaded_ok {current : Reservation} {phase : Phase}
    (h : call.loaded current = .ok phase) (how : current.scope.tenant = call.tenant)
    (hself : current.id = call.id) :
    (phase = .replaying current ∧ call.plan current = .ok .replay) ∨
      ∃ next event, phase = .swapping current next event ∧ Swaps call current next event := by
  unfold Call.loaded at h
  split at h
  · cases h
  · rename_i hplan
    cases h
    exact .inl ⟨rfl, hplan⟩
  rename_i state kind hplan
  split at h
  · cases h
  rename_i next hnext
  split at h
  · cases h
  rename_i event hev
  cases h
  exact .inr ⟨next, event, rfl, ⟨state, kind, hplan, hnext, hev⟩, how, hself⟩

namespace Swaps

variable {call : Call} {current next : Reservation} {event : LedgerEvent}

variable (h : Swaps call current next event)

include h

theorem next_eq :
    next = { current with state := next.state, version := next.version } := by
  obtain ⟨state, kind, -, hnext, -⟩ := h.planned
  have heq := (Reservation.transition_ok hnext).2
  have hst : next.state = state := by rw [heq]
  rw [hst]
  exact heq

theorem next_key : (call.tenant, next.id) = call.key := by
  rw [h.next_eq]
  exact Prod.ext rfl h.self

theorem described :
    MemoryState.Described call.tenant current.version next event := by
  have hsc : next.scope = current.scope := by rw [h.next_eq]
  obtain ⟨state, kind, -, hnext, hev⟩ := h.planned
  obtain ⟨hver, -, hst, hstatus, hdims, hus, -, -⟩ :=
    LedgerEvent.forTransition_ok hev
  exact ⟨hsc ▸ h.owner, (Reservation.transition_ok hnext).1, hver, hst, hstatus, hdims, hus⟩

/-- **A call that has swapped in its successor finds it done.** -/
theorem replay : call.plan next = .ok .replay := by
  obtain ⟨state, kind, hplan, hnext, -⟩ := h.planned
  obtain ⟨hck, hfor⟩ := Call.plan_ok.mp hplan
  have hst : next.state = state := by rw [(Reservation.transition_ok hnext).2]
  rw [Call.plan_ok, hst]
  exact ⟨hck, Call.planFor_replay hfor⟩

end Swaps

/-! ## 2. Moves -/

/-- What a client in progress knows. -/
def Client.Honest (h : History) (c : Client) : Prop :=
  match c.phase with
  | .loading => True
  | .replaying current => c.call.plan current = .ok .replay ∧ ∃ e, (current, e) ∈ h.past c.call.key
  | .swapping current next event => Swaps c.call current next event

/-- **What a step does to the store**, and to what was stored; a replacement is in the hands of one
of the clients. -/
inductive StoreMove (clients : Table Nat Client) (s : MemoryState) (h : History) :
    MemoryState → History → Prop
  | kept : StoreMove clients s h s h
  | reserved {request : ReservationRequest} {r : Reservation} {e : LedgerEvent}
      (initial : Reservation.initial request = .ok (r, e))
      (unused : s.idempotency.lookup (request.scope.tenant, request.idempotencyKey) = none)
      (fresh : s.reservations.lookup (request.scope.tenant, request.id) = none)
      (admits : s.Admits request) :
      StoreMove clients s h (s.insertInitial request r e)
        (h.insert (request.scope.tenant, request.id) [(r, e)])
  | advanced {i : Nat} {c : Client} {r current next : Reservation} {e : LedgerEvent}
      (client : clients.lookup i = some c) (swapping : c.phase = .swapping current next e)
      (lookup : s.reservations.lookup (c.call.tenant, next.id) = some r)
      (owner : next.scope.tenant = c.call.tenant) (follows : Follows r next e)
      (unrecorded : s.events.lookup ((c.call.tenant, next.id), next.version) = none) :
      StoreMove clients s h (s.insertReplacement c.call.tenant next e)
        (h.insert (c.call.tenant, next.id) ((next, e) :: h.past (c.call.tenant, next.id)))

/-- What a call of `reserve` returns, with `h'` the history after it. -/
inductive Decided (s : MemoryState) (h' : History) (request : ReservationRequest) :
    Except LedgerError LedgerOperation → Prop
  | failed (e : LedgerError) : Decided s h' request (.error e)
  | replayed {key : ReservationKey} {r : Reservation} {e : LedgerEvent}
      (indexed : s.idempotency.lookup (request.scope.tenant, request.idempotencyKey) = some key)
      (lookup : s.reservations.lookup key = some r) (same : r.isReplayOf request = true)
      (event : s.events.lookup ((request.scope.tenant, r.id), r.version) = some e) :
      Decided s h' request (.ok ⟨r, e, true⟩)
  | applied {r : Reservation} {e : LedgerEvent}
      (initial : Reservation.initial request = .ok (r, e))
      (stored : (r, e) ∈ h'.past (request.scope.tenant, request.id)) :
      Decided s h' request (.ok ⟨r, e, false⟩)

/-- **What becomes of a client in its turn**: it goes on, or its call returns. -/
inductive Turn (s : MemoryState) (h' : History) (c : Client) :
    Client ⊕ Except LedgerError LedgerOperation → Prop
  | unavailable : Turn s h' c (.inr World.unavailable)
  | missing (e : LedgerError) (loading : c.phase = .loading)
      (absent : s.reservations.lookup c.call.key = none) : Turn s h' c (.inr (.error e))
  | rejected {r : Reservation} {e : LedgerError} (loading : c.phase = .loading)
      (lookup : s.reservations.lookup c.call.key = some r) (fails : c.call.loaded r = .error e) :
      Turn s h' c (.inr (.error e))
  | loaded {r : Reservation} {phase : Phase} (loading : c.phase = .loading)
      (lookup : s.reservations.lookup c.call.key = some r) (loads : c.call.loaded r = .ok phase) :
      Turn s h' c (.inl { c with phase := phase })
  | unrecorded {current : Reservation} (e : LedgerError) (replaying : c.phase = .replaying current)
      (absent : s.events.lookup ((c.call.tenant, current.id), current.version) = none) :
      Turn s h' c (.inr (.error e))
  | replayed {current : Reservation} {e : LedgerEvent} (replaying : c.phase = .replaying current)
      (event : s.events.lookup ((c.call.tenant, current.id), current.version) = some e) :
      Turn s h' c (.inr (.ok ⟨current, e, true⟩))
  | applied {current next : Reservation} {e : LedgerEvent}
      (swapping : c.phase = .swapping current next e) (stored : (next, e) ∈ h'.past c.call.key) :
      Turn s h' c (.inr (.ok ⟨next, e, false⟩))
  | failed {current next : Reservation} {e : LedgerEvent} (error : LedgerError)
      (swapping : c.phase = .swapping current next e) : Turn s h' c (.inr (.error error))
  | retried {current next : Reservation} {e : LedgerEvent}
      (swapping : c.phase = .swapping current next e) :
      Turn s h' c (.inl ⟨c.call, c.attempts - 1, .loading⟩)

/-- **What a step does to the clients**, and to what was returned. -/
inductive ClientMove {R : Repository} (s : MemoryState) (w w' : World R) : Prop
  | kept (clients : w'.clients = w.clients) (next : w'.nextClient = w.nextClient)
      (log : w'.log = w.log)
  | begun (call : Call)
      (clients : w'.clients =
        w.clients.insert w.nextClient ⟨call, maxCompareAndSetAttempts, .loading⟩)
      (next : w'.nextClient = w.nextClient + 1) (log : w'.log = w.log)
  | rejected (call : Call) (e : LedgerError) (fails : call.check ≠ .ok ())
      (clients : w'.clients = w.clients)
      (next : w'.nextClient = w.nextClient + 1)
      (log : w'.log = ⟨w.nextClient, call, .error e⟩ :: w.log)
  | moved {i : Nat} {c c' : Client} (lookup : w.clients.lookup i = some c)
      (turn : Turn s w'.history c (.inl c')) (clients : w'.clients = w.clients.insert i c')
      (next : w'.nextClient = w.nextClient) (log : w'.log = w.log)
  | returned {i : Nat} {c : Client} {result : Except LedgerError LedgerOperation}
      (lookup : w.clients.lookup i = some c) (turn : Turn s w'.history c (.inr result))
      (clients : w'.clients = w.clients.erase i) (next : w'.nextClient = w.nextClient)
      (log : w'.log = ⟨i, c.call, result⟩ :: w.log)
  | abandoned (i : Nat) (clients : w'.clients = w.clients.erase i)
      (next : w'.nextClient = w.nextClient) (log : w'.log = w.log)

/-- **What a step does to the calls of `reserve` that have returned.** -/
inductive ReserveMove {R : Repository} (s : MemoryState) (w w' : World R) : Prop
  | kept (reserves : w'.reserves = w.reserves)
  | returned {request : ReservationRequest} {result : Except LedgerError LedgerOperation}
      (decided : Decided s w'.history request result)
      (reserves : w'.reserves = (request, result) :: w.reserves)

def World.contents {R : Repository} (F : Faithful R) (w : World R) : MemoryState := F.view w.store

/-- **Everything one step does.** -/
structure StepMove {R : Repository} (F : Faithful R) (w w' : World R) : Prop where
  valid : F.Valid w'.store
  store : StoreMove w.clients (w.contents F) w.history (w'.contents F) w'.history
  clients : ClientMove (w.contents F) w w'
  reserves : ReserveMove (w.contents F) w w'

/-! ## 3. The inversion -/

section Read

variable {α ε : Type} {x : Except ε (Option α)} {o : Option α}
  (h : x = .ok o ∨ (o = none ∧ ∃ e, x = .error e))

include h

theorem absent_of_error {e : ε} (hx : x = .error e) : o = none := by
  rcases h with hok | ⟨hnone, -⟩
  · rw [hx] at hok
    cases hok
  · exact hnone

theorem eq_of_answer {o' : Option α} (hx : x = .ok o') : o = o' := by
  subst hx
  rcases h with hok | ⟨-, e, he⟩
  · exact (Except.ok.inj hok).symm
  · cases he

end Read

section

variable {R : Repository} (F : Faithful R) {w w' : World R}

theorem stored_move (hv : F.Valid w.store) (request : ReservationRequest) :
    F.Valid (w.stored request).store ∧
      StoreMove w.clients (w.contents F) w.history ((w.stored request).contents F)
        (w.stored request).history ∧
      Decided (w.contents F) (w.stored request).history request
        (reserveResult (R.reserve w.store request).1) := by
  obtain ⟨hval, hacts, -⟩ := F.reserve w.store request hv
  refine ⟨hval, ?_⟩
  unfold World.contents World.stored
  rcases hacts with ⟨a, hout, href⟩ | ⟨e, hout, hview⟩
  · have hres := MemoryState.reserve_reserved (F.view w.store) request
    rw [href] at hres
    simp only [hout]
    generalize F.view (R.reserve w.store request).2 = s' at hres
    cases hres with
    | conflict | exhausted x => exact ⟨.kept, .failed _⟩
    | replay hidx hlk hsame hev => exact ⟨.kept, .replayed hidx hlk hsame hev⟩
    | applied hinit hun hfr had =>
      refine ⟨.reserved hinit hun hfr had, .applied hinit ?_⟩
      rw [past_insert_self]
      exact List.mem_singleton.mpr rfl
  · simp only [hout, hview]
    exact ⟨.kept, .failed _⟩

variable {i : Nat} {answer : Answer}

variable (hv : F.Valid w.store)

include hv

theorem swapped_move {c : Client} {current next : Reservation}
    {event : LedgerEvent} (hc : w.clients.lookup i = some c)
    (hph : c.phase = .swapping current next event) (hswaps : Swaps c.call current next event) :
    F.Valid (w.swapped c.call.tenant current next event).store ∧
      StoreMove w.clients (w.contents F) w.history
        ((w.swapped c.call.tenant current next event).contents F)
        (w.swapped c.call.tenant current next event).history ∧
      ((R.compareAndSet w.store c.call.tenant current.version next event).1 = .ok .applied →
        (next, event) ∈ (w.swapped c.call.tenant current next event).history.past c.call.key) := by
  obtain ⟨hval, hacts⟩ := F.compareAndSet w.store c.call.tenant current.version next event hv
    hswaps.described
  refine ⟨hval, ?_⟩
  unfold World.contents World.swapped
  rcases hacts with ⟨a, hout, href⟩ | ⟨e, hout, hview⟩
  · have hswapped := MemoryState.compareAndSet_swapped (F.view w.store) c.call.tenant
      current.version next event
    rw [href] at hswapped
    simp only [hout]
    generalize F.view (R.compareAndSet w.store c.call.tenant current.version next event).2 = s'
      at hswapped
    cases hswapped with
    | kept hnot =>
      cases a with
      | applied => exact absurd rfl hnot
      | versionConflict | notFound => exact ⟨.kept, fun h => by cases h⟩
    | applied hlk how hfol hnone =>
      refine ⟨.advanced hc hph hlk how hfol hnone, fun _ => ?_⟩
      rw [hswaps.next_key, past_insert_self]
      exact List.mem_cons_self
  · simp only [hout, hview]
    exact ⟨.kept, fun h => by cases h⟩

theorem StepMove.ofClients (hstr : w'.store = w.store)
    (hhistory : w'.history = w.history) (hrsvs : w'.reserves = w.reserves)
    (hclis : ClientMove (w.contents F) w w') : StepMove F w w' where
  valid := hstr ▸ hv
  store := by
    rw [World.contents, World.contents, hstr, hhistory]
    exact .kept
  clients := hclis
  reserves := .kept hrsvs

theorem reserve_move (request : ReservationRequest) (answer : Answer) :
    StepMove F w (w.reserve request answer) := by
  obtain ⟨hval, hstr, hdecided⟩ := stored_move F hv request
  cases answer with
  | given => exact ⟨hval, hstr, .kept rfl rfl rfl, .returned hdecided rfl⟩
  | refused => exact ⟨hv, .kept, .kept rfl rfl rfl, .returned (.failed _) rfl⟩
  | lost => exact ⟨hval, hstr, .kept rfl rfl rfl, .returned (.failed _) rfl⟩

theorem begin_move (call : Call) : StepMove F w (w.begin call) := by
  unfold World.begin
  split
  · rename_i tenant id actual
    split
    · rename_i e he
      refine .ofClients F hv rfl rfl rfl (.rejected (.reconcile tenant id actual) _ ?_ rfl rfl rfl)
      simp [Call.check, ensureDispatchedRequestsArePreserved,
        UsageBreakdown.includesDispatchedRequest, he, Except.map]
    · exact .ofClients F hv rfl rfl rfl (.begun (.reconcile tenant id actual) rfl rfl rfl)
  · exact .ofClients F hv rfl rfl rfl (.begun call rfl rfl rfl)

theorem returned_move {c : Client} {result : Except LedgerError LedgerOperation}
    (hc : w.clients.lookup i = some c) (hturn : Turn (w.contents F) w.history c (.inr result)) :
    StepMove F w (w.finish i c.call result) :=
  .ofClients F hv rfl rfl rfl (.returned hc hturn rfl rfl rfl)

theorem load_move (h : w.load i answer = some w') : StepMove F w w' := by
  unfold World.load at h
  split at h
  · cases h
  rename_i c hc
  split at h
  · rename_i hph
    have hload := F.load w.store c.call.tenant c.call.id hv
    split at h
    · rename_i e he
      cases h
      exact returned_move F hv hc (.missing _ hph (absent_of_error hload he))
    · rename_i hnone
      cases h
      exact returned_move F hv hc (.missing _ hph (eq_of_answer hload hnone))
    · rename_i current hcur
      have hlk := eq_of_answer hload hcur
      split at h
      · rename_i e he
        cases h
        exact returned_move F hv hc (.rejected hph hlk he)
      · rename_i phase hloads
        cases h
        exact .ofClients F hv rfl rfl rfl (.moved hc (.loaded hph hlk hloads) rfl rfl rfl)
  · cases h
    exact returned_move F hv hc .unavailable
  · cases h

theorem eventAt_move (h : w.eventAt i answer = some w') : StepMove F w w' := by
  unfold World.eventAt at h
  split at h
  · cases h
  rename_i c hc
  split at h
  · rename_i current hph
    have hev := F.eventAt w.store c.call.tenant current.id current.version hv
    split at h
    · rename_i e he
      cases h
      exact returned_move F hv hc (.unrecorded _ hph (absent_of_error hev he))
    · rename_i hnone
      cases h
      exact returned_move F hv hc (.unrecorded _ hph (eq_of_answer hev hnone))
    · rename_i event hsome
      cases h
      exact returned_move F hv hc (.replayed hph (eq_of_answer hev hsome))
  · cases h
    exact returned_move F hv hc .unavailable
  · cases h

theorem compareAndSet_move (hhon : ∀ i c, w.clients.lookup i = some c → c.Honest w.history)
    (h : w.compareAndSet i answer = some w') : StepMove F w w' := by
  unfold World.compareAndSet at h
  split at h
  · cases h
  rename_i c hc
  have hcli := hhon i c hc
  unfold Client.Honest at hcli
  split at h
  · rename_i current next event hph
    rw [hph] at hcli
    obtain ⟨hval, hstr, hsto⟩ := swapped_move F hv hc hph hcli
    split at h
    · rename_i hapd
      cases h
      exact ⟨hval, hstr, .returned hc (.applied hph (hsto hapd)) rfl rfl rfl, .kept rfl⟩
    · cases h
      unfold World.retry
      split
      · exact ⟨hval, hstr, .returned hc (.failed _ hph) rfl rfl rfl, .kept rfl⟩
      · exact ⟨hval, hstr, .moved hc (.retried hph) rfl rfl rfl, .kept rfl⟩
    · cases h
      exact ⟨hval, hstr, .returned hc (.failed _ hph) rfl rfl rfl, .kept rfl⟩
    · cases h
      exact ⟨hval, hstr, .returned hc (.failed _ hph) rfl rfl rfl, .kept rfl⟩
  · rename_i current next event hph
    rw [hph] at hcli
    obtain ⟨hval, hstr, -⟩ := swapped_move F hv hc hph hcli
    cases h
    exact ⟨hval, hstr, .returned hc .unavailable rfl rfl rfl, .kept rfl⟩
  · cases h
    exact returned_move F hv hc .unavailable
  · cases h

/-- **The inversion of a step.** -/
theorem step_move (hhon : ∀ i c, w.clients.lookup i = some c → c.Honest w.history) {a : Action}
    (h : (ledger R).step w a = some w') : StepMove F w w' := by
  cases a with
  | reserve request answer =>
    cases h
    exact reserve_move F hv request answer
  | begin call =>
    cases h
    exact begin_move F hv call
  | load i answer => exact load_move F hv h
  | eventAt i answer => exact eventAt_move F hv h
  | compareAndSet i answer => exact compareAndSet_move F hv hhon h
  | abandon i =>
    cases h
    exact .ofClients F hv rfl rfl rfl (.abandoned i rfl rfl rfl)

end

end Omnius.Ledger
