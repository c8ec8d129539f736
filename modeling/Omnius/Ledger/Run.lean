/-
# What holds in every world of the ledger

`Sound` is the invariant of the ledger's runs: the store is the newest entry of each story
(`Chronicle`), clients in progress are honest, and whatever was returned as a success stands in the
history.  Each part of it is kept by `StepMove`, so this file never looks at `World.step`.

The second half of the invariant is about TWO worlds of one run: a past only grows, so what was ever
stored or returned stays part of its reservation's story.
-/
import Omnius.Ledger.Moves

namespace Omnius.Ledger

open Omnius.Lib List

/-! ## 1. The invariant -/

/-- **What holds in every world.**  What was returned as a success stands in the history, and the
call that returned it would find it done. -/
structure Sound {R : Repository} (F : Faithful R) (w : World R) : Prop where
  valid : F.Valid w.store
  chronicle : Chronicle (w.contents F) w.history
  honest : ∀ i c, w.clients.lookup i = some c → c.Honest w.history
  numbered : ∀ i c, w.clients.lookup i = some c → i < w.nextClient
  returned : ∀ x ∈ w.log, x.client < w.nextClient ∧ ∀ op, x.result = .ok op →
    x.call.plan op.reservation = .ok .replay ∧
      (op.reservation, op.event) ∈ w.history.past x.call.key
  reserved : ∀ x ∈ w.reserves, ∀ op, x.2 = .ok op → op.reservation.isReplayOf x.1 = true ∧
    (op.reservation, op.event) ∈ w.history.past (x.1.scope.tenant, op.reservation.id)

section

variable {R : Repository} {F : Faithful R} {w w' : World R} {s s' : MemoryState} {h h' : History}
  {clients : Table Nat Client}

/-! ## 2. What one step keeps -/

theorem StoreMove.chronicle (hm : StoreMove clients s h s' h') (hc : Chronicle s h) :
    Chronicle s' h' := by
  cases hm with
  | kept => exact hc
  | reserved hinit hun hfr _ => exact hc.reserved hinit hun hfr
  | advanced _ _ hlk how hfol hnone => exact hc.advanced hlk how hfol hnone

/-- **A past only grows**, at its newer end. -/
theorem StoreMove.past (hm : StoreMove clients s h s' h') (hc : Chronicle s h)
    (k : ReservationKey) :
    h.past k <:+ h'.past k := by
  cases hm with
  | kept => exact suffix_rfl
  | @reserved request r e _ _ hfr _ =>
    by_cases hk : k = (request.scope.tenant, request.id)
    · subst hk
      rw [hc.past_nil hfr]
      exact nil_suffix
    · exact ⟨[], (past_insert_ne h hk _).symm⟩
  | @advanced i c r current next e _ _ _ _ _ _ =>
    by_cases hk : k = (c.call.tenant, next.id)
    · subst hk
      rw [past_insert_self]
      exact suffix_cons _ _
    · exact ⟨[], (past_insert_ne h hk _).symm⟩

variable {c c' : Client} {op : LedgerOperation}

theorem Client.Honest.mono (hc : c.Honest h) (hpast : ∀ k, h.past k <:+ h'.past k) :
    c.Honest h' := by
  unfold Client.Honest at *
  split
  · trivial
  · rename_i current hph
    rw [hph] at hc
    obtain ⟨hplan, e, he⟩ := hc
    exact ⟨hplan, e, (hpast _).subset he⟩
  · rename_i current next event hph
    rw [hph] at hc
    exact hc

theorem Turn.call (ht : Turn s h' c (.inl c')) : c'.call = c.call := by
  cases ht with
  | loaded | retried => rfl

theorem Turn.honest (ht : Turn s h' c (.inl c')) (hc : Chronicle s h)
    (hpast : ∀ k, h.past k <:+ h'.past k) : c'.Honest h' := by
  cases ht with
  | loaded _ hlk hloads =>
    obtain ⟨how, hself⟩ := hc.keyed hlk
    rcases Call.loaded_ok hloads how hself with ⟨rfl, hplan⟩ | ⟨next, event, rfl, hswaps⟩
    · obtain ⟨e, older, heq, -⟩ := hc.past_eq hlk
      refine ⟨hplan, e, (hpast _).subset ?_⟩
      rw [heq]
      exact mem_cons_self
    · exact hswaps
  | retried _ => trivial

theorem Turn.success (ht : Turn s h' c (.inr (.ok op))) (hc : Chronicle s h)
    (hpast : ∀ k, h.past k <:+ h'.past k) (hhon : c.Honest h) :
    c.call.plan op.reservation = .ok .replay ∧ (op.reservation, op.event) ∈ h'.past c.call.key := by
  unfold Client.Honest at hhon
  cases ht with
  | @replayed current e hph hev =>
    rw [hph] at hhon
    obtain ⟨hplan, d, hd⟩ := hhon
    have hsty := hc.story hd
    have hself : current.id = c.call.id := (hsty.keyed hd).2
    rw [hself] at hev
    obtain ⟨q, hq, hver⟩ := (hc.events _ _ _).mp hev
    obtain ⟨rfl, -⟩ := Prod.mk.injEq .. ▸ hsty.eq_of_version hq hd hver
    exact ⟨hplan, (hpast _).subset hq⟩
  | applied hph hsto =>
    rw [hph] at hhon
    exact ⟨hhon.replay, hsto⟩

theorem Decided.success {request : ReservationRequest} (hd : Decided s h' request (.ok op))
    (hc : Chronicle s h) (hpast : ∀ k, h.past k <:+ h'.past k) :
    op.reservation.isReplayOf request = true ∧
      (op.reservation, op.event) ∈ h'.past (request.scope.tenant, op.reservation.id) := by
  cases hd with
  | @replayed key r e hidx hlk hsame hev =>
    obtain ⟨howns, -⟩ := hc.index _ _ hidx
    obtain ⟨-, hself⟩ := hc.keyed hlk
    have hkey : (request.scope.tenant, r.id) = key := Prod.ext howns.symm hself
    obtain ⟨d, older, heq, hsty⟩ := hc.past_eq hlk
    rw [hkey] at hev
    obtain ⟨q, hq, hver⟩ := (hc.events _ _ _).mp hev
    have hmem : (r, d) ∈ h.past key := by
      rw [heq]
      exact mem_cons_self
    obtain ⟨rfl, -⟩ := Prod.mk.injEq .. ▸ (hc.story hmem).eq_of_version hq hmem hver
    exact ⟨hsame, (hpast _).subset (hkey ▸ hq)⟩
  | @applied r e hinit hsto =>
    obtain ⟨rfl, -⟩ := Reservation.initial_ok hinit
    exact ⟨by simp [Reservation.isReplayOf, Reservation.fromRequest], hsto⟩

theorem sound_start (F : Faithful R) : Sound F (.start R) where
  valid := F.start.1
  chronicle := by
    rw [World.contents, World.start, F.start.2]
    exact .empty
  honest := by
    intro i c hc
    cases hc
  numbered := by
    intro i c hc
    cases hc
  returned := by
    intro x hx
    cases hx
  reserved := by
    intro x hx
    cases hx

/-- A client after a step was there before it, has just begun, or has had its turn. -/
theorem ClientMove.client (hm : ClientMove s w w') {i : Nat} (hc : w'.clients.lookup i = some c) :
    w.clients.lookup i = some c ∨
      (i = w.nextClient ∧ w'.nextClient = w.nextClient + 1 ∧ c.phase = .loading) ∨
      ∃ c₀, w.clients.lookup i = some c₀ ∧ c.call = c₀.call ∧ Turn s w'.history c₀ (.inl c) := by
  cases hm with
  | kept hclis | rejected call e _ hclis =>
    rw [hclis] at hc
    exact .inl hc
  | begun call hclis hnext =>
    rw [hclis] at hc
    rcases Table.lookup_insert_iff.mp hc with ⟨rfl, rfl⟩ | ⟨-, hc⟩
    · exact .inr (.inl ⟨rfl, hnext, rfl⟩)
    · exact .inl hc
  | moved hlk hturn hclis =>
    rw [hclis] at hc
    rcases Table.lookup_insert_iff.mp hc with ⟨rfl, rfl⟩ | ⟨-, hc⟩
    · exact .inr (.inr ⟨_, hlk, hturn.call, hturn⟩)
    · exact .inl hc
  | returned _ _ hclis | abandoned j hclis =>
    rw [hclis] at hc
    exact .inl (Table.lookup_erase_iff.mp hc).2

/-- What was returned after a step was returned before it, or by a client in its turn, or it is a
call that was rejected at once. -/
theorem ClientMove.logged (hm : ClientMove s w w') {x : Return} (hx : x ∈ w'.log) :
    x ∈ w.log ∨
      (x.client = w.nextClient ∧ w'.nextClient = w.nextClient + 1 ∧ x.call.check ≠ .ok () ∧
        ∃ e, x.result = .error e) ∨
      ∃ c, w.clients.lookup x.client = some c ∧ x.call = c.call ∧
        Turn s w'.history c (.inr x.result) := by
  cases hm with
  | kept _ _ hlog | begun _ _ _ hlog | moved _ _ _ _ hlog | abandoned _ _ _ hlog =>
    rw [hlog] at hx
    exact .inl hx
  | rejected _ e hfails _ hnext hlog =>
    rw [hlog] at hx
    rcases mem_cons.mp hx with rfl | hx
    · exact .inr (.inl ⟨rfl, hnext, hfails, e, rfl⟩)
    · exact .inl hx
  | @returned i c result hlk hturn _ _ hlog =>
    rw [hlog] at hx
    rcases mem_cons.mp hx with rfl | hx
    · exact .inr (.inr ⟨c, hlk, rfl, hturn⟩)
    · exact .inl hx

theorem ClientMove.next_le (hm : ClientMove s w w') : w.nextClient ≤ w'.nextClient := by
  cases hm with
  | kept _ hnext | moved _ _ _ hnext | returned _ _ _ hnext | abandoned _ _ hnext => exact hnext.ge
  | begun _ _ hnext | rejected _ _ _ _ hnext => omega

namespace StepMove

variable (hm : StepMove F w w')

include hm

variable (hs : Sound F w)

include hs

theorem honest (i : Nat) (c : Client)
    (hc : w'.clients.lookup i = some c) : c.Honest w'.history := by
  have hpast := hm.store.past hs.chronicle
  rcases hm.clients.client hc with hold | ⟨-, -, hph⟩ | ⟨c₀, -, -, hturn⟩
  · exact (hs.honest i c hold).mono hpast
  · unfold Client.Honest
    rw [hph]
    trivial
  · exact hturn.honest hs.chronicle hpast

theorem numbered (i : Nat) (c : Client)
    (hc : w'.clients.lookup i = some c) : i < w'.nextClient := by
  have hle := hm.clients.next_le
  rcases hm.clients.client hc with hold | ⟨rfl, hnext, -⟩ | ⟨c₀, hold, -⟩
  · exact (hs.numbered i c hold).trans_le hle
  · omega
  · exact (hs.numbered i c₀ hold).trans_le hle

theorem returned (x : Return) (hx : x ∈ w'.log) :
    x.client < w'.nextClient ∧ ∀ op, x.result = .ok op →
      x.call.plan op.reservation = .ok .replay ∧
        (op.reservation, op.event) ∈ w'.history.past x.call.key := by
  have hpast := hm.store.past hs.chronicle
  have hle := hm.clients.next_le
  rcases hm.clients.logged hx with hold | ⟨hcli, hnext, -, e, he⟩ | ⟨c, hc, hcall, hturn⟩
  · obtain ⟨hcli, hok⟩ := hs.returned x hold
    refine ⟨hcli.trans_le hle, fun op hop => ?_⟩
    obtain ⟨hplan, hmem⟩ := hok op hop
    exact ⟨hplan, (hpast _).subset hmem⟩
  · refine ⟨by omega, fun op hop => ?_⟩
    rw [he] at hop
    cases hop
  · refine ⟨(hs.numbered _ c hc).trans_le hle, fun op hop => ?_⟩
    rw [hop] at hturn
    rw [hcall]
    exact hturn.success hs.chronicle hpast (hs.honest _ c hc)

theorem reserved
    (x : ReservationRequest × Except LedgerError LedgerOperation) (hx : x ∈ w'.reserves)
    (op : LedgerOperation) (hop : x.2 = .ok op) : op.reservation.isReplayOf x.1 = true ∧
      (op.reservation, op.event) ∈ w'.history.past (x.1.scope.tenant, op.reservation.id) := by
  have hpast := hm.store.past hs.chronicle
  have hold : x ∈ w.reserves → op.reservation.isReplayOf x.1 = true ∧
      (op.reservation, op.event) ∈ w'.history.past (x.1.scope.tenant, op.reservation.id) := by
    intro hx
    obtain ⟨hsame, hmem⟩ := hs.reserved x hx op hop
    exact ⟨hsame, (hpast _).subset hmem⟩
  cases hm.reserves with
  | kept hrsvs =>
    rw [hrsvs] at hx
    exact hold hx
  | returned hdecided hrsvs =>
    rw [hrsvs] at hx
    rcases mem_cons.mp hx with rfl | hx
    · subst hop
      exact hdecided.success hs.chronicle hpast
    · exact hold hx

end StepMove

/-- **Every step keeps a world sound.** -/
theorem StepMove.sound (hm : StepMove F w w') (hs : Sound F w) : Sound F w' where
  __ := hm
  chronicle := hm.store.chronicle hs.chronicle
  honest := hm.honest hs
  numbered := hm.numbered hs
  returned := hm.returned hs
  reserved := hm.reserved hs

theorem Sound.step (hs : Sound F w) {a : Action} (h : (ledger R).step w a = some w') :
    StepMove F w w' := step_move F hs.valid hs.honest h

/-! ## 3. Whole runs -/

variable {P : World R → Action → Prop}

/-- **Every world that can be reached is sound**, whatever is asked of the steps. -/
theorem Sound.reach (hs : Sound F w) (h : (ledger R).ReachIf P w w') : Sound F w' :=
  h.invariant hs fun _ _ _ hu _ hstep => (hu.step hstep).sound hu

theorem sound_reach (F : Faithful R) (h : (ledger R).ReachIf P (.start R) w) : Sound F w :=
  (sound_start F).reach h

/-- **Along a run, pasts only grow.** -/
theorem Sound.past (hs : Sound F w) (h : (ledger R).ReachIf P w w') (k : ReservationKey) :
    w.history.past k <:+ w'.history.past k := by
  induction h with
  | refl => exact suffix_rfl
  | tail hre _ hstep ih =>
    have hsd := hs.reach hre
    exact ih.trans ((hsd.step hstep).store.past hsd.chronicle k)

end

end Omnius.Ledger
