/-
# Retired generations stay retired

A subscription id can be used again, but a generation is handed out once.  A generation is RETIRED
when it has been handed out and messages for it are no longer to be delivered: its record is
revoked, gone or replaced, or the connection of the record is closing.  Nothing the registry does
afterwards brings it back, whichever ids are subscribed again: a record only turns active under a
NEW generation, and a connection only turns active before it owns anything.

Both facts are read off `Evolves` and `Consistent`, so that no operation is looked into twice; only
the six operations that retire a generation are opened here.
-/
import Omnius.Realtime.RegistryIndex

namespace Omnius.Realtime

open Omnius.Lib Option

namespace RegistryState

variable {config : RegistryConfig} {s s' : RegistryState} {i : SubscriptionId} {g : Nat}

/-! ## 1. Retirement is stable -/

/-- Handed out, and not deliverable. -/
structure Retired (s : RegistryState) (i : SubscriptionId) (g : Nat) : Prop where
  issued : g ≤ s.nextSubscriptionGeneration
  inactive : s.isSubscriptionCurrentActive i g = false

theorem isSubscriptionCurrentActive_iff : s.isSubscriptionCurrentActive i g = true ↔
    ∃ r k, s.subscriptions.lookup i = some r ∧ r.generation = g ∧ r.state = .active ∧
      s.connections.lookup r.connectionId = some k ∧ k.state = .active := by
  unfold isSubscriptionCurrentActive
  constructor
  · intro h
    split at h
    · cases h
    rename_i r hr
    split at h
    · cases h
    rename_i hno
    simp only [not_or, not_not] at hno
    rw [any_eq_true] at h
    obtain ⟨k, hk, hst⟩ := h
    exact ⟨r, k, hr, hno.1, hno.2, hk, by simpa using hst⟩
  · rintro ⟨r, k, hr, hg, hst, hk, hkst⟩
    simp [hr, hg, hst, hk, hkst]

variable {issued : List Nat}

theorem Evolves.next_le (he : Evolves s issued s') :
    s.nextSubscriptionGeneration ≤ s'.nextSubscriptionGeneration := by
  rcases he.next with ⟨-, h⟩ | ⟨-, h⟩ <;> omega

/-- **A retired generation stays retired.** -/
theorem Retired.evolves (h : s.Retired i g) (hc : s.Consistent config) (he : Evolves s issued s') :
    s'.Retired i g := by
  refine ⟨h.issued.trans he.next_le, ?_⟩
  rw [Bool.eq_false_iff]
  intro hact
  obtain ⟨r', k', hr', hg, hst, hk', hkst⟩ := isSubscriptionCurrentActive_iff.mp hact
  rcases he.record i r' hr' with ⟨r, hr, hgen, hconn, hwas⟩ | hnew
  · -- the same record was active before, and so was its connection
    obtain ⟨k, hk, hkwas⟩ := he.connection _ k' hk' hkst
    rw [hconn] at hk
    have hkactive : k.state = .active := by
      obtain ⟨k₀, hk₀, -, hreg⟩ := hc.owner i r hr
      rw [hk, some.injEq] at hk₀
      subst hk₀
      exact hkwas.resolve_right hreg
    have hbef := isSubscriptionCurrentActive_iff.mpr
      ⟨r, k, hr, hgen.symm.trans hg, hwas hst, hk, hkactive⟩
    rw [h.inactive] at hbef
    cases hbef
  · have hiss := h.issued
    omega

/-! ## 2. What retires a generation -/

theorem revokeSubscriptionLocked_ok {expected : Option Nat} {reason : RevocationReason}
    {messageId : MessageId} {intent : ControlIntent} :
    (s.revokeSubscriptionLocked i expected reason messageId).1 = .ok intent → ∀ r,
      (s.revokeSubscriptionLocked i expected reason messageId).2.subscriptions.lookup i = some r →
        r.state ≠ .active := by
  unfold revokeSubscriptionLocked
  split
  · nofun
  split
  · nofun
  split
  · nofun
  · rintro - r hr
    rw [AList.lookup_insert, some.injEq] at hr
    simp [← hr]

variable {c : ConnectionId} {snapshot : SubscriptionSnapshot}

theorem removeSubscriptionLocked_ok :
    (s.removeSubscriptionLocked c i).1 = .ok snapshot → ∀ r,
      (s.removeSubscriptionLocked c i).2.subscriptions.lookup i = some r → r.state ≠ .active := by
  unfold removeSubscriptionLocked
  split
  · nofun
  split
  · nofun
  · rintro - r hr
    exact absurd rfl (lookup_dropSubscription.mp hr).1

theorem removeSubscriptionIfCurrent_ok {expected : SubscriptionSnapshot} :
    (s.removeSubscriptionIfCurrent c expected).1 = .ok snapshot → ∀ r,
      (s.removeSubscriptionIfCurrent c expected).2.subscriptions.lookup expected.id = some r →
        r.state ≠ .active := by
  unfold removeSubscriptionIfCurrent
  split
  · nofun
  split
  · nofun
  split
  · nofun
  · exact removeSubscriptionLocked_ok

theorem beginClose_ok {snapshot : ConnectionSnapshot} :
    (s.beginClose c).1 = .ok snapshot → ∀ k,
      (s.beginClose c).2.connections.lookup c = some k → k.state ≠ .active := by
  unfold beginClose
  split
  · nofun
  rename_i k₀ hk₀
  split
  · rintro - k hk
    rw [AList.lookup_insert, some.injEq] at hk
    simp [← hk]
  · rintro - k hk
    rw [AList.lookup_insert, some.injEq] at hk
    simp [← hk]
  · rename_i hst
    rintro - k hk
    rw [hk₀, some.injEq] at hk
    simp [← hk, hst]
  · nofun

theorem lookup_close (c : ConnectionId) : (s.close c).2.connections.lookup c = none := by
  unfold close
  split
  · assumption
  rename_i k hk
  obtain ⟨hconn, -⟩ := foldl_dropSubscription k.subscriptions.elems
    { s with connections := s.connections.erase c }
  rw [hconn]
  exact AList.lookup_erase _ _

end RegistryState

/-- The operation is a removal or revocation of `i`, or closes the connection of its record `r`. -/
def RegistryOp.Targets (i : SubscriptionId) (r : SubscriptionRecord) : RegistryOp → Prop
  | .beginClose c | .close c => r.connectionId = c
  | .removeSubscription _ j | .revokeSubscription j _ _ => j = i
  | .removeSubscriptionIfCurrent _ expected | .revokeSubscriptionIfCurrent expected _ _ =>
    expected.id = i
  | .register .. | .activate _ | .addSubscription .. => False

/-- Generation `g` of `i` is what the operation removes, revokes or closes the connection of. -/
def RegistryOp.Ends (op : RegistryOp) (s : RegistryState) (i : SubscriptionId) (g : Nat) : Prop :=
  ∃ r, s.subscriptions.lookup i = some r ∧ r.generation = g ∧ op.Targets i r

namespace RegistryState

variable {config : RegistryConfig} {s s' : RegistryState} {i : SubscriptionId} {g : Nat}

/-- A generation with no active record. -/
theorem Retired.of_record (hiss : g ≤ s.nextSubscriptionGeneration)
    (h : ∀ r, s.subscriptions.lookup i = some r → r.state ≠ .active) : s.Retired i g := by
  refine ⟨hiss, Bool.eq_false_iff.mpr ?_⟩
  intro hact
  obtain ⟨r, -, hr, -, hst, -⟩ := isSubscriptionCurrentActive_iff.mp hact
  exact h r hr hst

/-- A generation whose record is still the one of a connection that is no longer active. -/
theorem Retired.of_connection {issued : List Nat} {r : SubscriptionRecord}
    (hc : s.Consistent config) (he : Evolves s issued s') (hr : s.subscriptions.lookup i = some r)
    (hg : r.generation = g)
    (h : ∀ k, s'.connections.lookup r.connectionId = some k → k.state ≠ .active) :
    s'.Retired i g := by
  have hiss := hc.generation_le i r hr
  have hnext := he.next_le
  refine ⟨by omega, Bool.eq_false_iff.mpr ?_⟩
  intro hact
  obtain ⟨r', k', hr', hg', -, hk', hkst⟩ := isSubscriptionCurrentActive_iff.mp hact
  rcases he.record i r' hr' with ⟨q, hq, -, hconn, -⟩ | hnew
  · rw [hr, some.injEq] at hq
    subst hq
    rw [hconn] at hk'
    exact h k' hk' hkst
  · omega

/-- **A removal, a revocation and the closing of a connection retire what they end.** -/
theorem retired_of_ends {op : RegistryOp} {reply : RegistryReply} (hc : s.Consistent config)
    (hends : op.Ends s i g) (hok : (op.locked config s).1 = .ok reply) :
    (op.locked config s).2.Retired i g := by
  obtain ⟨r, hr, hg, htgt⟩ := hends
  have he := evolves_locked config s op
  have hiss : g ≤ (op.locked config s).2.nextSubscriptionGeneration := by
    have hle := hc.generation_le i r hr
    have hnext := he.next_le
    omega
  -- an operation that succeeds has done so in its section
  have hmap : ∀ {β : Type} {f : β → RegistryReply} {e : Except RegistryError β},
      e.map f = .ok reply → ∃ b, e = .ok b := by
    intro β f e h
    cases e with
    | error => cases h
    | ok b => exact ⟨b, rfl⟩
  cases op with
  | register | activate | addSubscription => cases htgt
  | beginClose c =>
    obtain ⟨b, hb⟩ := hmap hok
    obtain rfl : r.connectionId = c := htgt
    exact .of_connection hc he hr hg (beginClose_ok hb)
  | close c =>
    obtain rfl : r.connectionId = c := htgt
    refine .of_connection hc he hr hg ?_
    intro k hk
    have hnone := lookup_close (s := s) r.connectionId
    rw [show (s.close r.connectionId).2.connections.lookup r.connectionId = some k from hk] at hnone
    cases hnone
  | removeSubscription c j =>
    obtain ⟨b, hb⟩ := hmap hok
    obtain rfl : j = i := htgt
    exact .of_record hiss (removeSubscriptionLocked_ok hb)
  | removeSubscriptionIfCurrent c expected =>
    obtain ⟨b, hb⟩ := hmap hok
    obtain rfl : expected.id = i := htgt
    exact .of_record hiss (removeSubscriptionIfCurrent_ok hb)
  | revokeSubscription j reason messageId =>
    obtain ⟨b, hb⟩ := hmap hok
    obtain rfl : j = i := htgt
    exact .of_record hiss (revokeSubscriptionLocked_ok hb)
  | revokeSubscriptionIfCurrent expected reason messageId =>
    obtain ⟨b, hb⟩ := hmap hok
    obtain rfl : expected.id = i := htgt
    exact .of_record hiss (revokeSubscriptionLocked_ok hb)

end RegistryState

/-! ## 3. Whole runs -/

namespace RegistryState

theorem Retired.run {config : RegistryConfig} {w w' : RegistryRun} {i : SubscriptionId} {g : Nat}
    (h : w.registry.state.Retired i g) (hinv : w.Inv config)
    (hrun : (registryMachine config).Reach w w') : w'.registry.state.Retired i g := by
  refine (hrun.invariant (I := fun u => u.Inv config ∧ u.registry.state.Retired i g) ⟨hinv, h⟩ ?_).2
  rintro u (op | _) v ⟨hu, hret⟩ - ⟨⟩
  · refine ⟨hu.op op, ?_⟩
    unfold ConnectionRegistry.apply
    split
    · exact hret
    · exact hret.evolves hu.consistent (evolves_locked _ _ _)
  · exact ⟨{ hu with }, hret⟩

end RegistryState

/-- **What was ended is never delivered again.**  Once an operation has removed or revoked a
generation or begun to close its connection, no run that follows makes the generation deliverable,
whichever connections are opened and whichever ids are subscribed again. -/
theorem ended_generation_stays_inactive {config : RegistryConfig} {w u w' : RegistryRun}
    {op : RegistryOp} {reply : RegistryReply} {i : SubscriptionId} {g : Nat}
    (h : (registryMachine config).Reach (registryMachine config).start w)
    (hends : op.Ends w.registry.state i g) (hok : (w.registry.apply op).1 = .ok reply)
    (hstep : (registryMachine config).step w (.op op) = some u)
    (hrun : (registryMachine config).Reach u w') :
    w'.registry.state.isSubscriptionCurrentActive i g = false := by
  have hinv := RegistryRun.inv_reach h
  have hinv' := RegistryRun.inv_reach (h.tail trivial hstep)
  cases hstep
  have hret : (w.registry.apply op).2.state.Retired i g := by
    unfold ConnectionRegistry.apply at hok ⊢
    split at hok
    · cases hok
    rename_i hlock
    rw [if_neg hlock]
    exact RegistryState.retired_of_ends (hinv.config_eq ▸ hinv.consistent) hends hok
  exact (hret.run hinv' hrun).inactive

/-- The id is subscribed again, under the next generation. -/
theorem ended_generation_stays_inactive_resubscribed : ∃ w,
    (registryMachine ⟨1, 2, 2⟩).run (registryMachine ⟨1, 2, 2⟩).start
      (revokedThenClosed.take 3 ++ [.op (.removeSubscription ⟨1⟩ ⟨5⟩),
        .op (.addSubscription ⟨1⟩ ⟨5⟩ ⟨7⟩ ⟨"orders"⟩ none)]) = some w ∧
    w.registry.state.isSubscriptionCurrentActive ⟨5⟩ 2 = true ∧
    w.registry.state.isSubscriptionCurrentActive ⟨5⟩ 1 = false := by
  refine ⟨_, rfl, by decide, ?_⟩
  exact ended_generation_stays_inactive (Machine.reach_of_run (revokedThenClosed.take 3) rfl)
    (show RegistryOp.Ends (.removeSubscription ⟨1⟩ ⟨5⟩) _ _ _ from ⟨_, rfl, rfl, rfl⟩) rfl rfl
    (Machine.reach_of_run [.op (.addSubscription ⟨1⟩ ⟨5⟩ ⟨7⟩ ⟨"orders"⟩ none)] rfl)

end Omnius.Realtime
