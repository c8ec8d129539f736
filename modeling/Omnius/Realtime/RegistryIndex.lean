/-
# The registry's three indexes agree

Everything here is about `RegistryState.Consistent`: the topic index holds exactly the ACTIVE
subscriptions under their own tenant and topic, every connection's id set is exactly the
subscriptions it owns, every owner exists in the subscription's tenant, nothing empty is kept, the
capacities hold, and no two records share a generation.

The records and the topic index are tied together by `Indexed`, which does not mention
connections.  That is what `close` needs: halfway through its loop the connection is gone and
some of its subscriptions are not, yet each round keeps `Indexed`.
-/
import Omnius.Realtime.Registry

namespace Omnius.Realtime

open Omnius.Lib List Option Table AList SortedSet

variable {c : ConnectionId} {k : ConnectionRecord}

/-! ## 1. The topic index alone -/

section

variable {tt : TenantTopics} {topics : Table Topic (SortedSet SubscriptionId)}
  {t t' : TenantId} {p p' : Topic} {i x : SubscriptionId}

theorem TenantTopics.mem_ids : x ∈ tt.ids t p ↔
    ∃ topics ids, tt.lookup t = some topics ∧ topics.lookup p = some ids ∧ x ∈ ids := by
  unfold TenantTopics.ids
  cases ht : tt.lookup t with
  | none => simp
  | some topics =>
    cases hp : topics.lookup p with
    | none | some ids => simp [hp]

theorem mem_ids_insertTopicIndex : x ∈ (insertTopicIndex tt t p i).ids t' p' ↔
    (x = i ∧ t' = t ∧ p' = p) ∨ x ∈ tt.ids t' p' := by
  unfold insertTopicIndex TenantTopics.ids
  by_cases ht : t' = t
  · subst ht
    by_cases hp : p' = p
    · subst hp
      cases hl : tt.lookup t' <;> simp [-insert_empty]
    · cases hl : tt.lookup t' <;> simp [lookup_insert_ne hp, hp, -insert_empty]
  · simp [ht]

theorem lookup_removeTopic {ids : SortedSet SubscriptionId} :
    (removeTopic topics p i).lookup p' = some ids ↔
      (p' ≠ p ∧ topics.lookup p' = some ids) ∨
      (p' = p ∧ ∃ old, topics.lookup p = some old ∧ ids = old.erase i ∧ ∃ x, x ∈ ids) := by
  have hsome (s : SortedSet SubscriptionId) : ¬ s.isEmpty = true ↔ ∃ x, x ∈ s := by
    simp
  simp only [← hsome]
  exact lookup_shrink (fun h => by rw [removeTopic, h]) fun old h => by rw [removeTopic, h]

theorem lookup_removeTopicIndex : (removeTopicIndex tt t p i).lookup t' = some topics ↔
    (t' ≠ t ∧ tt.lookup t' = some topics) ∨
    (t' = t ∧ ∃ old, tt.lookup t = some old ∧ topics = removeTopic old p i ∧
      ∃ q ids, topics.lookup q = some ids) := by
  have hsome (topics : Table Topic (SortedSet SubscriptionId)) :
      ¬ topics.isEmpty = true ↔ ∃ q ids, topics.lookup q = some ids := by
    simp [Table.isEmpty_iff, ne_none_iff_exists']
  simp only [← hsome]
  exact lookup_shrink (f := (removeTopic · p i)) (fun h => by rw [removeTopicIndex, h])
    fun old h => by rw [removeTopicIndex, h]

theorem mem_ids_removeTopicIndex : x ∈ (removeTopicIndex tt t p i).ids t' p' ↔
    x ∈ tt.ids t' p' ∧ ¬ (x = i ∧ t' = t ∧ p' = p) := by
  simp only [TenantTopics.mem_ids]
  constructor
  · rintro ⟨topics, ids, htopics, hids, hx⟩
    rcases lookup_removeTopicIndex.mp htopics with ⟨hne, hold⟩ | ⟨rfl, old, hold, rfl, -⟩
    · exact ⟨⟨topics, ids, hold, hids, hx⟩, fun h => hne h.2.1⟩
    · rcases lookup_removeTopic.mp hids with ⟨hne, hold'⟩ | ⟨rfl, ids', hold', rfl, -⟩
      · exact ⟨⟨old, ids, hold, hold', hx⟩, fun h => hne h.2.2⟩
      · rw [SortedSet.mem_erase] at hx
        exact ⟨⟨old, ids', hold, hold', hx.2⟩, fun h => hx.1 h.1⟩
  · rintro ⟨⟨topics, ids, htopics, hids, hx⟩, hne⟩
    by_cases ht : t' = t
    · subst ht
      -- the topic's set survives, since it still holds `x`
      have hkeep : ∃ ids', (removeTopic topics p i).lookup p' = some ids' ∧ x ∈ ids' := by
        by_cases hp : p' = p
        · subst hp
          have hxi : x ∈ ids.erase i :=
            mem_erase.mpr ⟨fun h => hne ⟨h, rfl, rfl⟩, hx⟩
          exact ⟨_, lookup_removeTopic.mpr (.inr ⟨rfl, ids, hids, rfl, x, hxi⟩), hxi⟩
        · exact ⟨ids, lookup_removeTopic.mpr (.inl ⟨hp, hids⟩), hx⟩
      obtain ⟨ids', hids', hx'⟩ := hkeep
      exact ⟨_, ids', lookup_removeTopicIndex.mpr
        (.inr ⟨rfl, topics, htopics, rfl, p', ids', hids'⟩), hids', hx'⟩
    · exact ⟨topics, ids, lookup_removeTopicIndex.mpr (.inl ⟨ht, htopics⟩), hids, hx⟩

/-- No tenant without a topic, no topic without an id. -/
structure TenantTopics.Compact (tt : TenantTopics) : Prop where
  tenant : ∀ t topics, tt.lookup t = some topics → ∃ p ids, topics.lookup p = some ids
  topic : ∀ t topics p ids, tt.lookup t = some topics → topics.lookup p = some ids → ∃ x, x ∈ ids

theorem TenantTopics.Compact.insert (h : tt.Compact) (t : TenantId) (p : Topic)
    (i : SubscriptionId) : (insertTopicIndex tt t p i).Compact where
  tenant := forall_lookup_insert ⟨p, _, lookup_insert _⟩ h.tenant
  topic := by
    intro t' topics p' ids ht hp
    rcases lookup_insert_iff.mp ht with ⟨rfl, rfl⟩ | ⟨-, ht⟩
    · rcases lookup_insert_iff.mp hp with ⟨rfl, rfl⟩ | ⟨-, hp⟩
      · exact ⟨i, mem_insert.mpr (.inl rfl)⟩
      · cases hl : tt.lookup t' with
        | none =>
          rw [hl] at hp
          cases hp
        | some old =>
          rw [hl] at hp
          exact h.topic t' old p' ids hl hp
    · exact h.topic t' topics p' ids ht hp

theorem TenantTopics.Compact.remove (h : tt.Compact) (t : TenantId) (p : Topic)
    (i : SubscriptionId) : (removeTopicIndex tt t p i).Compact where
  tenant := by
    intro t' topics ht
    rcases lookup_removeTopicIndex.mp ht with ⟨-, hold⟩ | ⟨rfl, old, -, -, hq⟩
    · exact h.tenant t' topics hold
    · exact hq
  topic := by
    intro t' topics p' ids ht hp
    rcases lookup_removeTopicIndex.mp ht with ⟨-, hold⟩ | ⟨rfl, old, hold, rfl, -⟩
    · exact h.topic t' topics p' ids hold hp
    · rcases lookup_removeTopic.mp hp with ⟨-, hold'⟩ | ⟨rfl, ids', -, -, hx⟩
      · exact h.topic t' old p' ids hold hold'
      · exact hx

end

/-! ## 2. Records and their index -/

/-- The topic index holds exactly the active records, each under its own tenant and topic. -/
structure Indexed (subs : Table SubscriptionId SubscriptionRecord) (tt : TenantTopics) :
    Prop where
  id_eq : ∀ i r, subs.lookup i = some r → r.id = i
  mem_iff : ∀ t p i, i ∈ tt.ids t p ↔
    ∃ r, subs.lookup i = some r ∧ r.state = .active ∧ r.tenantId = t ∧ r.topic = p
  compact : tt.Compact

section

variable {subs : Table SubscriptionId SubscriptionRecord} {tt : TenantTopics}
  {i : SubscriptionId} {r : SubscriptionRecord}

variable (h : Indexed subs tt)

include h

theorem Indexed.erase (hr : subs.lookup i = some r) :
    Indexed (subs.erase i) (removeTopicIndex tt r.tenantId r.topic r.id) where
  id_eq := by
    intro j q hq
    exact h.id_eq j q (lookup_erase_iff.mp hq).2
  mem_iff := by
    intro t p j
    rw [mem_ids_removeTopicIndex, h.mem_iff, h.id_eq i r hr]
    by_cases hj : j = i
    · subst hj
      simp only [lookup_erase, reduceCtorEq, false_and, exists_false, iff_false, hr,
        some.injEq, true_and]
      rintro ⟨⟨_, rfl, -, rfl, rfl⟩, hne⟩
      exact hne ⟨rfl, rfl⟩
    · simp [hj]
  compact := h.compact.remove _ _ _

theorem Indexed.revoke (hr : subs.lookup i = some r) :
    Indexed (subs.insert i { r with state := .revoked })
      (removeTopicIndex tt r.tenantId r.topic i) where
  id_eq := forall_lookup_insert (h.id_eq i r hr) h.id_eq
  mem_iff := by
    intro t p j
    rw [mem_ids_removeTopicIndex, h.mem_iff]
    by_cases hj : j = i
    · subst hj
      simp only [lookup_insert, hr, some.injEq, true_and]
      constructor
      · rintro ⟨⟨_, rfl, -, rfl, rfl⟩, hne⟩
        exact absurd ⟨rfl, rfl⟩ hne
      · rintro ⟨_, rfl, hst, -⟩
        cases hst
    · simp [hj]
  compact := h.compact.remove _ _ _

theorem Indexed.add (hi : subs.lookup i = none) (hid : r.id = i) (hst : r.state = .active) :
    Indexed (subs.insert i r) (insertTopicIndex tt r.tenantId r.topic i) where
  id_eq := forall_lookup_insert hid h.id_eq
  mem_iff := by
    intro t p j
    rw [mem_ids_insertTopicIndex, h.mem_iff]
    by_cases hj : j = i
    · subst hj
      simp only [lookup_insert, hi, some.injEq, reduceCtorEq, false_and, exists_false,
        or_false, true_and]
      constructor
      · rintro ⟨rfl, rfl⟩
        exact ⟨r, rfl, hst, rfl, rfl⟩
      · rintro ⟨_, rfl, -, rfl, rfl⟩
        exact ⟨rfl, rfl⟩
    · simp [hj]
  compact := h.compact.insert _ _ _

end

/-! ## 3. Consistency -/

namespace RegistryState

/-- The registry's invariant. -/
structure Consistent (config : RegistryConfig) (s : RegistryState) : Prop where
  indexed : Indexed s.subscriptions s.tenantTopics
  connection_id : ∀ c k, s.connections.lookup c = some k → k.id = c
  /-- A connection's ids are the ids of the records it owns. -/
  owned : ∀ c k, s.connections.lookup c = some k → ∀ i,
    i ∈ k.subscriptions ↔ ∃ r, s.subscriptions.lookup i = some r ∧ r.connectionId = c
  /-- A record's owner exists, is of the record's tenant, and has been activated. -/
  owner : ∀ i r, s.subscriptions.lookup i = some r → ∃ k,
    s.connections.lookup r.connectionId = some k ∧ k.principal.tenantId = some r.tenantId ∧
      k.state ≠ .registered
  connections_le : s.connections.size ≤ config.maxConnections
  subscriptions_le : s.subscriptions.size ≤ config.maxSubscriptions
  perConnection_le : ∀ c k, s.connections.lookup c = some k →
    k.subscriptions.size ≤ config.maxSubscriptionsPerConnection
  generation_le : ∀ i r, s.subscriptions.lookup i = some r →
    r.generation ≤ s.nextSubscriptionGeneration
  generation_inj : ∀ i j r q, s.subscriptions.lookup i = some r →
    s.subscriptions.lookup j = some q → r.generation = q.generation → i = j

variable {config : RegistryConfig} {s : RegistryState}

theorem consistent_empty : Consistent config .empty where
  indexed :=
    ⟨by simp [empty], by simp [empty, TenantTopics.mem_ids], ⟨by simp [empty], by simp [empty]⟩⟩
  connection_id := by simp [empty]
  owned := by simp [empty]
  owner := by simp [empty]
  connections_le := Nat.zero_le _
  subscriptions_le := Nat.zero_le _
  perConnection_le := by simp [empty]
  generation_le := by simp [empty]
  generation_inj := by simp [empty]

variable {r : SubscriptionRecord} {i : SubscriptionId}

section

variable (h : Consistent config s)

include h

/-- A connection that is not there owns nothing. -/
theorem Consistent.not_owner (hc : s.connections.lookup c = none)
    (hr : s.subscriptions.lookup i = some r) :
    r.connectionId ≠ c := by
  intro hrc
  obtain ⟨k, hk, -⟩ := h.owner i r hr
  rw [hrc, hc] at hk
  cases hk

theorem Consistent.owner_insert (hk : s.connections.lookup c = some k)
    (k' : ConnectionRecord) (hprincipal : k'.principal = k.principal)
    (hsta : k'.state ≠ .registered)
    (hr : s.subscriptions.lookup i = some r) :
    ∃ q, (s.connections.insert c k').lookup r.connectionId = some q ∧
      q.principal.tenantId = some r.tenantId ∧ q.state ≠ .registered := by
  obtain ⟨q, hq, hten, hreg⟩ := h.owner i r hr
  by_cases hd : r.connectionId = c
  · rw [hd, hk, some.injEq] at hq
    subst hq
    exact ⟨k', lookup_insert_iff.mpr (.inl ⟨hd, rfl⟩), hprincipal ▸ hten, hsta⟩
  · exact ⟨q, lookup_insert_iff.mpr (.inr ⟨hd, hq⟩), hten, hreg⟩

theorem Consistent.addConnection (hc : s.connections.lookup c = none)
    (hcap : s.connections.size < config.maxConnections) (principal : Principal) : Consistent config
      { s with connections := s.connections.insert c ⟨c, principal, .registered, .empty⟩ } where
  __ := h
  connection_id := forall_lookup_insert rfl h.connection_id
  owned := by
    refine forall_lookup_insert (fun i => ?_) h.owned
    simp only [not_mem_empty, false_iff, not_exists, not_and]
    exact fun r hr => h.not_owner hc hr
  owner := by
    intro i r hr
    obtain ⟨k, hk, hten⟩ := h.owner i r hr
    exact ⟨k, lookup_insert_iff.mpr (.inr ⟨h.not_owner hc hr, hk⟩), hten⟩
  connections_le := by
    rw [size_insert_new hc]
    exact hcap
  perConnection_le := forall_lookup_insert (Nat.zero_le _) h.perConnection_le

theorem Consistent.setState (hk : s.connections.lookup c = some k)
    {st : ConnectionState} (hst : st ≠ .registered) : Consistent config
      { s with connections := s.connections.insert c { k with state := st } } :=
  { h with
    connection_id := forall_lookup_insert (h.connection_id c k hk) h.connection_id
    owned := forall_lookup_insert (h.owned c k hk) h.owned
    owner := fun _ _ hr => h.owner_insert hk { k with state := st } rfl hst hr
    connections_le := by
      rw [size_insert_old hk]
      exact h.connections_le
    perConnection_le := forall_lookup_insert (h.perConnection_le c k hk) h.perConnection_le }

end

/-! ## 4. Dropping subscriptions: `close` and `remove_subscription` -/

@[simp] theorem dropSubscription_connections (i : SubscriptionId) :
    (s.dropSubscription i).connections = s.connections := by
  unfold dropSubscription
  split <;> rfl

@[simp] theorem dropSubscription_next (i : SubscriptionId) :
    (s.dropSubscription i).nextSubscriptionGeneration = s.nextSubscriptionGeneration := by
  unfold dropSubscription
  split <;> rfl

theorem lookup_dropSubscription {j : SubscriptionId} :
    (s.dropSubscription i).subscriptions.lookup j = some r ↔
      j ≠ i ∧ s.subscriptions.lookup j = some r := by
  unfold dropSubscription
  split
  · rename_i hnone
    constructor
    · intro hj
      refine ⟨?_, hj⟩
      rintro rfl
      rw [hnone] at hj
      cases hj
    · exact fun h => h.2
  · exact lookup_erase_iff

theorem size_dropSubscription_le (i : SubscriptionId) :
    (s.dropSubscription i).subscriptions.size ≤ s.subscriptions.size := by
  unfold dropSubscription
  split
  · exact le_refl _
  · exact size_erase_le

theorem indexed_dropSubscription (h : Indexed s.subscriptions s.tenantTopics) (i : SubscriptionId) :
    Indexed (s.dropSubscription i).subscriptions (s.dropSubscription i).tenantTopics := by
  unfold dropSubscription
  split
  · exact h
  · rename_i r hr
    exact h.erase hr

/-- What `close`'s whole loop does: it drops the records of the list, keeps the index in step at
every round, and touches nothing else. -/
theorem foldl_dropSubscription : ∀ (l : List SubscriptionId) (s : RegistryState),
    (l.foldl dropSubscription s).connections = s.connections ∧
    (l.foldl dropSubscription s).nextSubscriptionGeneration = s.nextSubscriptionGeneration ∧
    (∀ j r, (l.foldl dropSubscription s).subscriptions.lookup j = some r ↔
      j ∉ l ∧ s.subscriptions.lookup j = some r) ∧
    (l.foldl dropSubscription s).subscriptions.size ≤ s.subscriptions.size ∧
    (Indexed s.subscriptions s.tenantTopics →
      Indexed (l.foldl dropSubscription s).subscriptions (l.foldl dropSubscription s).tenantTopics)
  | [], s => ⟨rfl, rfl, by simp, le_refl _, id⟩
  | i :: l, s => by
    obtain ⟨hc, hn, hl, hsz, hix⟩ := foldl_dropSubscription l (s.dropSubscription i)
    refine ⟨?_, ?_, ?_, le_trans hsz (size_dropSubscription_le i),
      fun h => hix (indexed_dropSubscription h i)⟩
    · rw [foldl_cons, hc, dropSubscription_connections]
    · rw [foldl_cons, hn, dropSubscription_next]
    · intro j r
      rw [foldl_cons, hl, lookup_dropSubscription, mem_cons]
      tauto

section

variable (h : Consistent config s)

include h

theorem Consistent.close (hk : s.connections.lookup c = some k) :
    Consistent config (k.subscriptions.elems.foldl dropSubscription
      { s with connections := s.connections.erase c }) := by
  obtain ⟨hconn, hnext, hlook, hsize, hix⟩ := foldl_dropSubscription k.subscriptions.elems
    { s with connections := s.connections.erase c }
  -- the records that are left belong to other connections
  have hoth : ∀ i r, s.subscriptions.lookup i = some r → i ∉ k.subscriptions.elems →
      r.connectionId ≠ c := by
    intro i r hr hi hrc
    exact hi ((h.owned c k hk i).mpr ⟨r, hr, hrc⟩)
  refine ⟨hix h.indexed, ?_, ?_, ?_, ?_, le_trans hsize h.subscriptions_le, ?_, ?_, ?_⟩
  · intro d q hq
    rw [hconn] at hq
    exact h.connection_id d q (lookup_erase_iff.mp hq).2
  · intro d q hq i
    rw [hconn] at hq
    obtain ⟨hd, hq⟩ := lookup_erase_iff.mp hq
    rw [h.owned d q hq i]
    constructor
    · rintro ⟨r, hr, rfl⟩
      refine ⟨r, (hlook i r).mpr ⟨?_, hr⟩, rfl⟩
      intro hi
      obtain ⟨r', hr', hrc'⟩ := (h.owned c k hk i).mp hi
      rw [hr, some.injEq] at hr'
      exact hd (hr' ▸ hrc')
    · rintro ⟨r, hr, hrc⟩
      exact ⟨r, ((hlook i r).mp hr).2, hrc⟩
  · intro i r hr
    obtain ⟨hi, hr⟩ := (hlook i r).mp hr
    obtain ⟨q, hq, hten⟩ := h.owner i r hr
    rw [hconn]
    exact ⟨q, lookup_erase_iff.mpr ⟨hoth i r hr hi, hq⟩, hten⟩
  · rw [hconn]
    exact le_trans size_erase_le h.connections_le
  · intro d q hq
    rw [hconn] at hq
    exact h.perConnection_le d q (lookup_erase_iff.mp hq).2
  · intro i r hr
    rw [hnext]
    exact h.generation_le i r ((hlook i r).mp hr).2
  · intro i j r q hr hq
    exact h.generation_inj i j r q ((hlook i r).mp hr).2 ((hlook j q).mp hq).2

theorem Consistent.remove
    (hr : s.subscriptions.lookup i = some r) (hk : s.connections.lookup r.connectionId = some k)
    (hreg : k.state ≠ .registered) : Consistent config { dropSubscription s i with
      connections := s.connections.insert r.connectionId
        { k with subscriptions := k.subscriptions.erase i } } := by
  refine ⟨indexed_dropSubscription h.indexed i, ?_, ?_, ?_, ?_,
    le_trans (size_dropSubscription_le i) h.subscriptions_le, ?_, ?_, ?_⟩
  · exact forall_lookup_insert (h.connection_id _ k hk) h.connection_id
  · intro d q hq j
    simp only [lookup_dropSubscription]
    rcases lookup_insert_iff.mp hq with ⟨rfl, rfl⟩ | ⟨hd, hq⟩
    · rw [SortedSet.mem_erase, h.owned _ k hk j]
      constructor
      · rintro ⟨hj, q, hq, hqc⟩
        exact ⟨q, ⟨hj, hq⟩, hqc⟩
      · rintro ⟨q, ⟨hj, hq⟩, hqc⟩
        exact ⟨hj, q, hq, hqc⟩
    · rw [h.owned d q hq j]
      constructor
      · rintro ⟨r', hr', hrd⟩
        refine ⟨r', ⟨?_, hr'⟩, hrd⟩
        rintro rfl
        rw [hr, some.injEq] at hr'
        exact hd (hr' ▸ hrd).symm
      · rintro ⟨r', ⟨-, hr'⟩, hrd⟩
        exact ⟨r', hr', hrd⟩
  · intro j q hq
    exact h.owner_insert hk ⟨_, _, _, k.subscriptions.erase i⟩ rfl hreg
      (lookup_dropSubscription.mp hq).2
  · rw [size_insert_old hk]
    exact h.connections_le
  · exact forall_lookup_insert
      (le_trans size_erase_le (h.perConnection_le _ k hk)) h.perConnection_le
  · intro j q hq
    simp only [dropSubscription_next]
    exact h.generation_le j q (lookup_dropSubscription.mp hq).2
  · intro j j' q q' hq hq'
    exact h.generation_inj j j' q q' (lookup_dropSubscription.mp hq).2
      (lookup_dropSubscription.mp hq').2

/-! ## 5. Revoking and adding -/

theorem Consistent.revoke
    (hr : s.subscriptions.lookup i = some r) : Consistent config { s with
      subscriptions := s.subscriptions.insert i { r with state := .revoked }
      tenantTopics := removeTopicIndex s.tenantTopics r.tenantId r.topic i } := by
  -- the revoked record keeps its owner, tenant, topic and generation
  have hold : ∀ j q, (s.subscriptions.insert i { r with state := .revoked }).lookup j = some q →
      ∃ q', s.subscriptions.lookup j = some q' ∧ q.connectionId = q'.connectionId ∧
        q.tenantId = q'.tenantId ∧ q.generation = q'.generation :=
    forall_lookup_insert ⟨r, hr, rfl, rfl, rfl⟩ fun j q hq => ⟨q, hq, rfl, rfl, rfl⟩
  refine { h with indexed := h.indexed.revoke hr, owned := ?_, owner := ?_, subscriptions_le := ?_,
                  generation_le := ?_, generation_inj := ?_ }
  · intro c k hk j
    rw [h.owned c k hk j]
    constructor
    · rintro ⟨q, hq, hqc⟩
      by_cases hj : j = i
      · subst hj
        rw [hr, some.injEq] at hq
        subst hq
        exact ⟨_, lookup_insert _, hqc⟩
      · exact ⟨q, lookup_insert_iff.mpr (.inr ⟨hj, hq⟩), hqc⟩
    · rintro ⟨q, hq, hqc⟩
      obtain ⟨q', hq', hown, -⟩ := hold j q hq
      exact ⟨q', hq', hown ▸ hqc⟩
  · intro j q hq
    obtain ⟨q', hq', hown, hten, -⟩ := hold j q hq
    rw [hown, hten]
    exact h.owner j q' hq'
  · rw [size_insert_old hr]
    exact h.subscriptions_le
  · intro j q hq
    obtain ⟨q', hq', -, -, hgen⟩ := hold j q hq
    rw [hgen]
    exact h.generation_le j q' hq'
  · intro j j' q q' hq hq' hgen
    obtain ⟨p, hp, -, -, hpg⟩ := hold j q hq
    obtain ⟨p', hp', -, -, hpg'⟩ := hold j' q' hq'
    exact h.generation_inj j j' p p' hp hp' (by rw [← hpg, ← hpg', hgen])

theorem Consistent.addRecord (hk : s.connections.lookup c = some k) (hreg : k.state ≠ .registered)
    (hnew : s.subscriptions.lookup r.id = none) (hown : r.connectionId = c)
    (hten : k.principal.tenantId = some r.tenantId)
    (hgen : r.generation = s.nextSubscriptionGeneration + 1) (hst : r.state = .active)
    (hcap : s.subscriptions.size < config.maxSubscriptions)
    (hper : k.subscriptions.size < config.maxSubscriptionsPerConnection) : Consistent config
      { connections := s.connections.insert c
          { k with subscriptions := k.subscriptions.insert r.id }
        subscriptions := s.subscriptions.insert r.id r
        tenantTopics := insertTopicIndex s.tenantTopics r.tenantId r.topic r.id
        nextSubscriptionGeneration := r.generation } := by
  have hmem : r.id ∉ k.subscriptions := by
    rw [h.owned c k hk]
    rintro ⟨q, hq, -⟩
    rw [hnew] at hq
    cases hq
  refine ⟨h.indexed.add hnew rfl hst, ?_, ?_, ?_, ?_, ?_, ?_, ?_, ?_⟩
  · exact forall_lookup_insert (h.connection_id c k hk) h.connection_id
  · intro d q hq j
    have hrec : (∃ r', (s.subscriptions.insert r.id r).lookup j = some r' ∧ r'.connectionId = d) ↔
        (j = r.id ∧ c = d) ∨ ∃ r', s.subscriptions.lookup j = some r' ∧ r'.connectionId = d := by
      by_cases hj : j = r.id
      · subst hj
        simp [hnew, hown]
      · simp [hj]
    rw [hrec]
    rcases lookup_insert_iff.mp hq with ⟨rfl, rfl⟩ | ⟨hd, hq⟩
    · rw [SortedSet.mem_insert, h.owned d k hk j]
      simp
    · rw [h.owned d q hq j]
      simp [Ne.symm hd]
  · exact forall_lookup_insert
      ⟨_, lookup_insert_iff.mpr (.inl ⟨hown, rfl⟩), hten, hreg⟩ fun j q =>
        h.owner_insert hk ⟨_, _, _, k.subscriptions.insert r.id⟩ rfl hreg
  · rw [size_insert_old hk]
    exact h.connections_le
  · rw [size_insert_new hnew]
    exact hcap
  · refine forall_lookup_insert ?_ h.perConnection_le
    simp only [size_insert hmem]
    exact hper
  · refine forall_lookup_insert le_rfl fun j q hq => ?_
    have := h.generation_le j q hq
    simp only
    omega
  · -- the new generation is above every old one
    intro j j' q q' hq hq' heq
    rcases lookup_insert_iff.mp hq with ⟨rfl, rfl⟩ | ⟨-, hold⟩ <;>
      rcases lookup_insert_iff.mp hq' with ⟨rfl, rfl⟩ | ⟨-, hold'⟩
    · rfl
    · have := h.generation_le j' q' hold'
      omega
    · have := h.generation_le j q hold
      omega
    · exact h.generation_inj j j' q q' hold hold' heq

end

/-! ## 6. What an operation does -/

/-- What an operation that hands out the generations `issued` makes of the state. -/
inductive Change (config : RegistryConfig) (s : RegistryState) : List Nat → RegistryState → Prop
  | same : Change config s [] s
  | register {c : ConnectionId} (principal : Principal) (fresh : s.connections.lookup c = none)
      (room : s.connections.size < config.maxConnections) : Change config s []
        { s with connections := s.connections.insert c ⟨c, principal, .registered, .empty⟩ }
  | move {c : ConnectionId} {k : ConnectionRecord} {st : ConnectionState}
      (found : s.connections.lookup c = some k) (left : st ≠ .registered)
      (active : st = .active → k.state = .registered) :
      Change config s [] { s with connections := s.connections.insert c { k with state := st } }
  | close {c : ConnectionId} {k : ConnectionRecord} (found : s.connections.lookup c = some k) :
      Change config s [] (k.subscriptions.elems.foldl dropSubscription
        { s with connections := s.connections.erase c })
  | remove {i : SubscriptionId} {r : SubscriptionRecord} (found : s.subscriptions.lookup i = some r)
      {connections : Table ConnectionId ConnectionRecord}
      (owner : (s.connections.lookup r.connectionId = none ∧ connections = s.connections) ∨
        ∃ k, s.connections.lookup r.connectionId = some k ∧
          connections = s.connections.insert r.connectionId
            { k with subscriptions := k.subscriptions.erase i }) :
      Change config s [] { dropSubscription s i with connections := connections }
  | revoke {i : SubscriptionId} {r : SubscriptionRecord}
      (found : s.subscriptions.lookup i = some r) : Change config s [] { s with
        subscriptions := s.subscriptions.insert i { r with state := .revoked }
        tenantTopics := removeTopicIndex s.tenantTopics r.tenantId r.topic i }
  | add {c : ConnectionId} {k : ConnectionRecord} {r : SubscriptionRecord}
      (found : s.connections.lookup c = some k) (active : k.state = .active)
      (fresh : s.subscriptions.lookup r.id = none) (owner : r.connectionId = c)
      (tenant : k.principal.tenantId = some r.tenantId)
      (next : r.generation = s.nextSubscriptionGeneration + 1) (new : r.state = .active)
      (room : s.subscriptions.size < config.maxSubscriptions)
      (roomPer : k.subscriptions.size < config.maxSubscriptionsPerConnection) :
      Change config s [r.generation]
        { connections := s.connections.insert c
            { k with subscriptions := k.subscriptions.insert r.id }
          subscriptions := s.subscriptions.insert r.id r
          tenantTopics := insertTopicIndex s.tenantTopics r.tenantId r.topic r.id
          nextSubscriptionGeneration := r.generation }

/-- An error leaves the state as it was, a success changes it and hands out `issued`. -/
inductive Done (config : RegistryConfig) (s : RegistryState) {α : Type} (issued : α → List Nat) :
    Except RegistryError α × RegistryState → Prop
  | fails (e : RegistryError) : Done config s issued (.error e, s)
  | does {a : α} {s' : RegistryState} (change : Change config s (issued a) s') :
      Done config s issued (.ok a, s')

theorem Done.map {α β : Type} {issued : α → List Nat} {out : Except RegistryError α × RegistryState}
    (h : Done config s issued out) {f : α → β} {issued' : β → List Nat}
    (hiss : ∀ a, issued' (f a) = issued a) : Done config s issued' (out.map (.map f) id) := by
  cases h with
  | fails e => exact .fails e
  | does change => exact .does ((hiss _).symm ▸ change)

section

variable (c : ConnectionId) (i : SubscriptionId) (expected : SubscriptionSnapshot)
  (reason : RevocationReason) (messageId : MessageId)

theorem done_register (principal : Principal) :
    Done config s (fun _ => []) (s.register config c principal) := by
  unfold register
  split
  · exact .fails _
  rename_i hcap
  split
  · exact .fails _
  rename_i hnew
  exact .does (.register principal (by simpa using hnew) (not_le.mp hcap))

theorem done_activate : Done config s (fun _ => []) (s.activate c) := by
  unfold activate
  split
  · exact .fails _
  rename_i k hk
  split
  · rename_i hst
    exact .does (.move hk (by simp) fun _ => hst)
  · exact .does .same
  · exact .fails _
  · exact .fails _

theorem done_beginClose : Done config s (fun _ => []) (s.beginClose c) := by
  unfold beginClose
  split
  · exact .fails _
  rename_i k hk
  split
  · exact .does (.move hk (by simp) (by simp))
  · exact .does (.move hk (by simp) (by simp))
  · exact .does .same
  · exact .fails _

theorem done_close : Done config s (fun _ => []) (s.close c) := by
  unfold RegistryState.close
  split
  · exact .does .same
  · rename_i k hk
    exact .does (.close hk)

theorem done_addSubscription (t : TenantId) (p : Topic) (cursor : Option OpaqueCursor) :
    Done config s (fun r => [r.generation]) (s.addSubscription config c i t p cursor) := by
  unfold addSubscription
  split
  · split
    · exact .fails _
    · exact .fails _
  rename_i hnew
  split
  · exact .fails _
  rename_i hcap
  split
  · exact .fails _
  rename_i k hk
  split
  · exact .fails _
  rename_i hact
  split
  · exact .fails _
  rename_i hten
  split
  · exact .fails _
  rename_i hper
  split
  · exact .fails _
  exact .does (.add (r := ⟨i, c, k.principal.subjectId, t, p, cursor, _, .active⟩) hk
    (not_not.mp hact) hnew rfl (not_not.mp hten) rfl rfl (not_le.mp hcap) (not_le.mp hper))

theorem done_removeSubscriptionLocked :
    Done config s (fun _ => []) (s.removeSubscriptionLocked c i) := by
  unfold removeSubscriptionLocked
  split
  · exact .fails _
  rename_i r hr
  split
  · exact .fails _
  rename_i hrc
  obtain rfl := not_not.mp hrc
  refine .does (.remove hr ?_)
  split
  · rename_i hk
    exact .inl ⟨hk, rfl⟩
  · rename_i k hk
    exact .inr ⟨k, hk, rfl⟩

theorem done_removeSubscriptionIfCurrent :
    Done config s (fun _ => []) (s.removeSubscriptionIfCurrent c expected) := by
  unfold removeSubscriptionIfCurrent
  split
  · exact .fails _
  split
  · exact .fails _
  split
  · exact .fails _
  · exact done_removeSubscriptionLocked c expected.id

theorem done_revokeSubscriptionLocked (generation : Option Nat) :
    Done config s (fun _ => []) (s.revokeSubscriptionLocked i generation reason messageId) := by
  unfold revokeSubscriptionLocked
  split
  · exact .fails _
  rename_i r hr
  split
  · exact .fails _
  split
  · exact .fails _
  · exact .does (.revoke hr)

end

/-- The generation an operation handed out. -/
def issuedBy : RegistryOp → Except RegistryError RegistryReply → List Nat
  | .addSubscription .., .ok (.subscription snapshot) => [snapshot.generation]
  | _, _ => []

theorem done_locked (config : RegistryConfig) (s : RegistryState) (op : RegistryOp) :
    Done config s (fun reply => issuedBy op (.ok reply)) (op.locked config s) := by
  cases op with
  | register c principal => exact (done_register c principal).map fun _ => rfl
  | activate c => exact (done_activate c).map fun _ => rfl
  | beginClose c => exact (done_beginClose c).map fun _ => rfl
  | close c => exact (done_close c).map fun _ => rfl
  | addSubscription c i t p cursor => exact (done_addSubscription c i t p cursor).map fun _ => rfl
  | removeSubscription c i => exact (done_removeSubscriptionLocked c i).map fun _ => rfl
  | removeSubscriptionIfCurrent c expected =>
    exact (done_removeSubscriptionIfCurrent c expected).map fun _ => rfl
  | revokeSubscription i reason messageId =>
    exact (done_revokeSubscriptionLocked i reason messageId none).map fun _ => rfl
  | revokeSubscriptionIfCurrent expected reason messageId =>
    exact (done_revokeSubscriptionLocked _ reason messageId _).map fun _ => rfl

variable {issued : List Nat} {s' : RegistryState}

theorem Consistent.change (h : Consistent config s) (hch : Change config s issued s') :
    Consistent config s' := by
  cases hch with
  | same => exact h
  | register principal fresh room => exact h.addConnection fresh room principal
  | move found left => exact h.setState found left
  | close found => exact h.close found
  | remove found owner =>
    obtain ⟨k, hk, -, hreg⟩ := h.owner _ _ found
    rcases owner with ⟨hnone, -⟩ | ⟨k', hk', rfl⟩
    · rw [hk] at hnone
      cases hnone
    · rw [hk, some.injEq] at hk'
      subst hk'
      exact h.remove found hk hreg
  | revoke found => exact h.revoke found
  | add found active fresh owner tenant next new room roomPer =>
    exact h.addRecord found (by simp [active]) fresh owner tenant next new room roomPer

theorem Consistent.locked (h : Consistent config s) (op : RegistryOp) :
    Consistent config (op.locked config s).2 := by
  have hdone := done_locked config s op
  generalize op.locked config s = out at hdone ⊢
  cases hdone with
  | fails e => exact h
  | does change => exact h.change change

/-- **A failed operation changes nothing.** -/
theorem locked_of_error {op : RegistryOp} {e : RegistryError}
    (h : (op.locked config s).1 = .error e) : (op.locked config s).2 = s := by
  have hdone := done_locked config s op
  generalize op.locked config s = out at h hdone ⊢
  cases hdone with
  | fails e => rfl
  | does change => cases h

/-! ## 7. What an operation can never undo

No operation revives a record or re-activates a connection that is closing, and a generation that
is handed out is new.  `Evolves` says this once for all nine operations. -/

/-- How an operation that hands out the generations `issued` can change the state. -/
structure Evolves (s : RegistryState) (issued : List Nat) (s' : RegistryState) : Prop where
  /-- The generation handed out, if any, is the one the counter moves to. -/
  next : (issued = [] ∧ s'.nextSubscriptionGeneration = s.nextSubscriptionGeneration) ∨
    (issued = [s.nextSubscriptionGeneration + 1] ∧
      s'.nextSubscriptionGeneration = s.nextSubscriptionGeneration + 1)
  /-- A record is an earlier one, active only if that was, or of a new generation. -/
  record : ∀ i r', s'.subscriptions.lookup i = some r' →
    (∃ r, s.subscriptions.lookup i = some r ∧ r'.generation = r.generation ∧
      r'.connectionId = r.connectionId ∧ (r'.state = .active → r.state = .active)) ∨
    s.nextSubscriptionGeneration < r'.generation
  /-- An active connection was there before, active or just registered. -/
  connection : ∀ c k', s'.connections.lookup c = some k' → k'.state = .active →
    ∃ k, s.connections.lookup c = some k ∧ (k.state = .active ∨ k.state = .registered)

theorem Evolves.refl (s : RegistryState) : Evolves s [] s where
  next := .inl ⟨rfl, rfl⟩
  record := fun _ r hr => .inl ⟨r, hr, rfl, rfl, id⟩
  connection := fun _ k hk hst => ⟨k, hk, .inl hst⟩

theorem Change.evolves (h : Change config s issued s') : Evolves s issued s' := by
  -- most changes keep every record, or every active connection
  have hsame := Evolves.refl s
  cases h with
  | same => exact hsame
  | register principal fresh room =>
    exact { hsame with connection := forall_lookup_insert nofun hsame.connection }
  | move found left active =>
    exact { hsame with connection :=
      forall_lookup_insert (fun hst => ⟨_, found, .inr (active hst)⟩) hsame.connection }
  | @close c k found =>
    obtain ⟨hconn, hnext, hlook, -, -⟩ := foldl_dropSubscription k.subscriptions.elems
      { s with connections := s.connections.erase c }
    refine ⟨.inl ⟨rfl, hnext⟩, fun i r hr => ?_, fun d q hq hst => ?_⟩
    · exact .inl ⟨r, ((hlook i r).mp hr).2, rfl, rfl, id⟩
    · rw [hconn] at hq
      exact ⟨q, (lookup_erase_iff.mp hq).2, .inl hst⟩
  | remove found owner =>
    refine ⟨.inl ⟨rfl, dropSubscription_next _⟩, fun j r hr => ?_, ?_⟩
    · exact .inl ⟨r, (lookup_dropSubscription.mp hr).2, rfl, rfl, id⟩
    · rcases owner with ⟨-, rfl⟩ | ⟨k, hk, rfl⟩
      · exact hsame.connection
      · exact forall_lookup_insert (fun hst => ⟨k, hk, .inl hst⟩) hsame.connection
  | revoke found =>
    exact { hsame with record :=
      forall_lookup_insert (.inl ⟨_, found, rfl, rfl, nofun⟩) hsame.record }
  | add found active fresh owner tenant next =>
    exact ⟨.inr ⟨by rw [next], next⟩, forall_lookup_insert (.inr (by omega)) hsame.record,
      forall_lookup_insert (fun _ => ⟨_, found, .inl active⟩) hsame.connection⟩

/-- **Every operation evolves the state.** -/
theorem evolves_locked (config : RegistryConfig) (s : RegistryState) (op : RegistryOp) :
    Evolves s (issuedBy op (op.locked config s).1) (op.locked config s).2 := by
  have hdone := done_locked config s op
  generalize op.locked config s = out at hdone ⊢
  cases hdone with
  | fails e => cases op <;> exact .refl s
  | does change => exact change.evolves

end RegistryState

/-! ## 8. The machine of all operations -/

open RegistryState

/-- A registry and, newest first, the generations it has handed out. -/
structure RegistryRun where
  registry : ConnectionRegistry
  issued : List Nat

/-- An operation, or the panic of a thread that holds the lock. -/
inductive RegistryAction
  | op (op : RegistryOp)
  | poison

def registryMachine (config : RegistryConfig) : Machine RegistryRun RegistryAction where
  start := ⟨.new config, []⟩
  step w a := match a with
    | .op op => some ⟨(w.registry.apply op).2, issuedBy op (w.registry.apply op).1 ++ w.issued⟩
    | .poison => some { w with registry := { w.registry with poisoned := true } }

structure RegistryRun.Inv (config : RegistryConfig) (w : RegistryRun) : Prop where
  config_eq : w.registry.config = config
  consistent : w.registry.state.Consistent config
  increasing : w.issued.Pairwise (· > ·)
  issued_le : ∀ g ∈ w.issued, g ≤ w.registry.state.nextSubscriptionGeneration
  record_mem : ∀ i r, w.registry.state.subscriptions.lookup i = some r → r.generation ∈ w.issued

variable {w : RegistryRun} {config : RegistryConfig}

theorem RegistryRun.Inv.op (h : w.Inv config) (op : RegistryOp) :
    RegistryRun.Inv config
      ⟨(w.registry.apply op).2, issuedBy op (w.registry.apply op).1 ++ w.issued⟩ := by
  unfold ConnectionRegistry.apply
  split
  · cases op <;> exact h
  have hcons := h.consistent.locked op
  have hev := evolves_locked config w.registry.state op
  rw [h.config_eq]
  refine ⟨rfl, hcons, ?_, ?_, ?_⟩
  · rcases hev.next with ⟨hnil, -⟩ | ⟨hone, -⟩
    · rw [hnil]
      exact h.increasing
    · rw [hone]
      refine pairwise_cons.mpr ⟨fun g hg => ?_, h.increasing⟩
      exact Nat.lt_succ_of_le (h.issued_le g hg)
  · intro g hg
    rcases hev.next with ⟨hnil, hnext⟩ | ⟨hone, hnext⟩
    · rw [hnil] at hg
      rw [hnext]
      exact h.issued_le g hg
    rw [hone] at hg
    rw [hnext]
    rcases mem_cons.mp hg with rfl | hg
    · exact le_refl _
    · exact le_trans (h.issued_le g hg) (Nat.le_succ _)
  · intro i r hr
    rcases hev.record i r hr with ⟨q, hq, hgen, -⟩ | hgt
    · rw [hgen]
      exact mem_append_right _ (h.record_mem i q hq)
    -- above the old counter and not above the new one: the generation just handed out
    have hle := hcons.generation_le i r hr
    rcases hev.next with ⟨-, hnext⟩ | ⟨hone, hnext⟩
    · omega
    · rw [hone]
      exact mem_append_left _ (mem_singleton.mpr (by omega))

theorem RegistryRun.inv_reach
    (h : (registryMachine config).Reach (registryMachine config).start w) : w.Inv config := by
  refine h.invariant ⟨rfl, consistent_empty, .nil, by simp [registryMachine],
    by simp [registryMachine, ConnectionRegistry.new, RegistryState.empty]⟩ ?_
  intro u a v hu _ hst
  cases a with
  | op op =>
    simp only [registryMachine, some.injEq] at hst
    subst hst
    exact hu.op op
  | poison =>
    simp only [registryMachine, some.injEq] at hst
    subst hst
    exact { hu with }

/-- **Registry index consistency.**  After any sequence of operations, successful or not, the
three indexes agree and respect the configured capacities, the generations handed out so far are
strictly increasing and every record carries one of them, and any operation that fails now leaves
the registry as it is. -/
theorem registry_index_consistency {config : RegistryConfig} {w : RegistryRun}
    (h : (registryMachine config).Reach (registryMachine config).start w) :
    w.registry.state.Consistent config ∧ w.issued.Pairwise (· > ·) ∧
    (∀ i r, w.registry.state.subscriptions.lookup i = some r → r.generation ∈ w.issued) ∧
    ∀ op e, (w.registry.apply op).1 = .error e → (w.registry.apply op).2 = w.registry := by
  have hinv := RegistryRun.inv_reach h
  refine ⟨hinv.consistent, hinv.increasing, hinv.record_mem, ?_⟩
  intro op e he
  unfold ConnectionRegistry.apply at he ⊢
  split
  · rfl
  rename_i hlock
  rw [if_neg hlock] at he
  rw [locked_of_error he]

/-- A run that revokes one subscription, fails to add a third, and closes the connection. -/
def revokedThenClosed : List RegistryAction :=
  [.op (.register ⟨1⟩ ⟨⟨9⟩, some ⟨7⟩⟩), .op (.activate ⟨1⟩),
    .op (.addSubscription ⟨1⟩ ⟨5⟩ ⟨7⟩ ⟨"orders"⟩ none),
    .op (.addSubscription ⟨1⟩ ⟨6⟩ ⟨7⟩ ⟨"orders"⟩ none),
    .op (.revokeSubscription ⟨5⟩ .identityRevoked ⟨3⟩),
    .op (.addSubscription ⟨1⟩ ⟨8⟩ ⟨7⟩ ⟨"orders"⟩ none), .op (.close ⟨1⟩)]

theorem registry_index_consistency_revokedThenClosed :
    ∃ w, (registryMachine ⟨1, 2, 2⟩).run (registryMachine ⟨1, 2, 2⟩).start revokedThenClosed =
        some w ∧ w.issued = [2, 1] ∧ w.registry.state.subscriptions.size = 0 ∧
      w.registry.state.Consistent ⟨1, 2, 2⟩ := by
  refine ⟨_, rfl, by decide, by decide, ?_⟩
  exact (registry_index_consistency
    (Machine.reach_of_run (M := registryMachine ⟨1, 2, 2⟩) revokedThenClosed rfl)).1

end Omnius.Realtime
