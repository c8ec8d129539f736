/-
# Making room for a high-priority message

Two passes throw normal messages away before a high-priority reservation is tested: one over the
connection's own deque, one over the whole hub in the order of admission.  Neither should throw away
more than the bounds ask for.

The GLOBAL pass does not.  The LOCAL pass tests `queued_bytes` in its loop and reduces it only after
the loop: a byte bound that is exceeded at first stays exceeded in every round, and the whole deque
goes even if its first message would have been enough (`local_room_empties_deque`).
-/
import Omnius.Realtime.Delivery.Order

namespace Omnius.Realtime.Delivery

open Omnius.Lib List Table HubState

variable {config : DeliveryQueueConfig} {bytes : Nat} {q : QueueRecord} {s : HubState}
  {c : ConnectionId} {m : StoredMessage} {rest : List StoredMessage}

/-! ## 1. No more than needed -/

/-- `gone` is enough, or nothing else was left; and what went first of it was not enough. -/
def Shortest {α : Type} (enough : List α → Prop) (gone : List α) (emptied : Prop) : Prop :=
  (enough gone ∨ emptied) ∧ ∀ short, short <+: gone → short ≠ gone → ¬ enough short

section

variable {α : Type} {enough : List α → Prop} {gone : List α} {emptied : Prop}

theorem Shortest.nil (h : enough [] ∨ emptied) : Shortest enough [] emptied :=
  ⟨h, fun _ hs hne => absurd (prefix_nil.mp hs) hne⟩

theorem Shortest.cons {x : α} (h : Shortest (fun l => enough (x :: l)) gone emptied)
    (hx : ¬ enough []) : Shortest enough (x :: gone) emptied := by
  refine ⟨h.1, fun short hs hne => ?_⟩
  rcases prefix_cons_iff.mp hs with rfl | ⟨t, rfl, ht⟩
  · exact hx
  · exact h.2 t ht fun heq => hne (congrArg _ heq)

theorem Shortest.congr {enough' : List α → Prop} (he : ∀ l, enough l ↔ enough' l)
    (h : Shortest enough gone emptied) : Shortest enough' gone emptied := by
  simpa [Shortest, he] using h

end

/-! ## 2. The connection's own deque -/

/-- The connection's bounds admit `bytes` more, once the messages in `gone` are out. -/
def QueueRecord.Admits (q : QueueRecord) (config : DeliveryQueueConfig) (bytes : Nat)
    (gone : List StoredMessage) : Prop :=
  q.queuedMessages + q.reservedMessages < config.maxMessagesPerConnection + gone.length ∧
    q.queuedBytes + q.reservedBytes + bytes ≤ config.maxBytesPerConnection + bytesOf gone

/-- Within the byte bound, the loop only counts messages. -/
theorem roomLoop_shortest
    (hb : q.queuedBytes + q.reservedBytes + bytes ≤ config.maxBytesPerConnection) :
    ∀ l, Shortest (fun gone => q.high.length + l.length + q.reservedMessages <
        config.maxMessagesPerConnection + gone.length)
      (roomLoop config bytes q l).1 ((roomLoop config bytes q l).2 = [])
  | [] => .nil (.inr rfl)
  | m :: rest => by
    unfold roomLoop
    split
    · next hfull =>
      refine .cons (.congr (fun gone => ?_) (roomLoop_shortest hb rest))
        (not_lt.mpr (hfull.resolve_right (not_lt.mpr hb)))
      simp only [length_cons]
      omega
    · next hroom => exact .nil (.inl (not_le.mp (not_or.mp hroom).1))

theorem roomLoop_all (hb : config.maxBytesPerConnection < q.queuedBytes + q.reservedBytes + bytes) :
    ∀ l, roomLoop config bytes q l = (l, [])
  | [] => rfl
  | m :: rest => by rw [roomLoop, if_pos (.inr hb), roomLoop_all hb rest]

/-! ## 3. The whole hub -/

def HubState.normals (s : HubState) : Multiset (ConnectionId × StoredMessage) :=
  s.queues.total fun c q => ↑(q.normal.map (Prod.mk c))

/-- The hub's bound admits `bytes` more, once the messages in `gone` are out. -/
def HubState.Admits (s : HubState) (config : DeliveryQueueConfig) (bytes : Nat)
    (gone : List (ConnectionId × StoredMessage)) : Prop :=
  s.queuedBytes + s.reservedBytes + bytes ≤ config.maxTotalBytes + bytesOf (gone.map Prod.snd)

/-- Deques are in the order of admission, and the total counts what they hold. -/
structure HubState.Sequenced (s : HubState) : Prop where
  increasing : ∀ c q, s.queues.lookup c = some q →
    q.normal.Pairwise fun m m' => m.sequence < m'.sequence
  counted : (s.queues.total fun _ q => bytesOf q.normal) ≤ s.queuedBytes

/-- The hub of a reachable world is in order, and so is what is left of it after a trim. -/
theorem Settled.sequenced {w : World} {lost : List (ConnectionId × StoredMessage)}
    (h : Settled w) (ha : w.hub.Accounted) (ht : Trim w.hub lost s) : s.Sequenced where
  increasing c q' hq' := by
    obtain ⟨q, hq, htrim, -⟩ := ht.source hq'
    have hline := (sublist_append_left _ _).trans (h.ordered.line c)
    rw [waiting_some hq] at hline
    exact (pairwise_reverse.mp ((h.ordered.increasing c).sublist hline)).sublist htrim.normal
  counted := by
    rw [(ht.accounted ha).queuedBytes]
    refine total_le_total fun c q hq => ?_
    rw [share_some hq, (ht.accounted ha).bytes c q hq]
    exact Nat.le_add_left _ _

/-- The messages in `gone` left `s`: the oldest of all, and no more than needed. -/
structure Evicted (s : HubState) (enough : List (ConnectionId × StoredMessage) → Prop)
    (gone : List (ConnectionId × StoredMessage)) (s' : HubState) : Prop where
  parts : s.normals = gone + s'.normals
  sorted : gone.Pairwise fun e e' => e.2.sequence ≤ e'.2.sequence
  oldest : ∀ e ∈ gone, ∀ e' ∈ s'.normals, e.2.sequence ≤ e'.2.sequence
  shortest : Shortest enough gone (s'.normals = 0)

theorem Evicted.none {enough : List (ConnectionId × StoredMessage) → Prop}
    (h : enough [] ∨ s.normals = 0) : Evicted s enough [] s :=
  ⟨(zero_add _).symm, .nil, nofun, .nil h⟩

theorem HubState.mem_normals {e : ConnectionId × StoredMessage} (h : e ∈ s.normals) :
    ∃ q, s.queues.lookup e.1 = some q ∧ e.2 ∈ q.normal := by
  rw [normals, Table.total, ← Multiset.sum_coe] at h
  obtain ⟨l, hl, he⟩ := Multiset.mem_join.mp h
  obtain ⟨⟨c, q⟩, hentry, rfl⟩ := mem_map.mp hl
  obtain ⟨m, hm, rfl⟩ := mem_map.mp he
  exact ⟨q, AList.mem_lookup_iff.mpr hentry, hm⟩

theorem minBySequence_spec : ∀ l, (minBySequence l = none ∧ l = []) ∨
    ∃ x ∈ l, minBySequence l = some x ∧ ∀ y ∈ l, x.2 ≤ y.2
  | [] => .inl ⟨rfl, rfl⟩
  | x :: rest => by
    right
    unfold minBySequence
    rcases minBySequence_spec rest with ⟨hn, rfl⟩ | ⟨y, hy, hs, hmin⟩
    · exact ⟨x, mem_cons_self, by rw [hn], by simp⟩
    rw [hs]
    by_cases hxy : x.2 ≤ y.2
    · exact ⟨x, mem_cons_self, if_pos hxy,
        forall_mem_cons.mpr ⟨le_rfl, fun z hz => hxy.trans (hmin z hz)⟩⟩
    · exact ⟨y, mem_cons_of_mem _ hy, if_neg hxy, forall_mem_cons.mpr ⟨(not_le.mp hxy).le, hmin⟩⟩

namespace HubState.Sequenced

variable (h : s.Sequenced)

include h

theorem oldestNormal_cases : (s.oldestNormal = none ∧ s.normals = 0) ∨
    ∃ c q m rest, s.oldestNormal = some c ∧ s.queues.lookup c = some q ∧ q.normal = m :: rest ∧
      ∀ e ∈ s.normals, m.sequence ≤ e.2.sequence := by
  unfold oldestNormal
  generalize hf : s.queues.entries.filterMap _ = fronts
  have hfront : ∀ e ∈ s.normals, ∃ x ∈ fronts, x.2 ≤ e.2.sequence := by
    intro e he
    obtain ⟨q, hq, hmem⟩ := mem_normals he
    have hpair := h.increasing _ q hq
    cases hn : q.normal with
    | nil =>
      rw [hn] at hmem
      cases hmem
    | cons m rest =>
      rw [hn] at hmem hpair
      refine ⟨(e.1, m.sequence), hf ▸ mem_filterMap.mpr
        ⟨⟨e.1, q⟩, AList.mem_lookup_iff.mp hq, by rw [hn]; rfl⟩, ?_⟩
      rcases mem_cons.mp hmem with rfl | hrest
      · exact le_rfl
      · exact ((pairwise_cons.mp hpair).1 _ hrest).le
  rcases minBySequence_spec fronts with ⟨hn, rfl⟩ | ⟨x, hx, hs, hmin⟩
  · refine .inl ⟨by rw [hn]; rfl, Multiset.eq_zero_of_forall_notMem fun e he => ?_⟩
    obtain ⟨x, ⟨⟩, -⟩ := hfront e he
  · obtain ⟨⟨c, q⟩, hentry, hx⟩ := mem_filterMap.mp (hf ▸ hx)
    obtain ⟨m, hm, rfl⟩ := Option.map_eq_some_iff.mp hx
    obtain ⟨rest, hr⟩ := List.head?_eq_some_iff.mp hm
    refine .inr ⟨c, q, m, rest, by rw [hs]; rfl, AList.mem_lookup_iff.mpr hentry, hr, ?_⟩
    intro e he
    obtain ⟨y, hy, hle⟩ := hfront e he
    exact (hmin y hy).trans hle

theorem drop {s' : HubState} (hq : s.queues.lookup c = some q) (hr : q.normal = m :: rest)
    (hs' : s.dropMessages c q q.high rest [m] 0 = s') :
    s.normals = (c, m) ::ₘ s'.normals ∧ s'.Sequenced ∧ s'.reservedBytes = s.reservedBytes ∧
      s'.queuedBytes + m.encoded.length = s.queuedBytes := by
  subst hs'
  have hone : bytesOf (m :: rest) = m.encoded.length + bytesOf rest := rfl
  have hcounted := h.counted
  have hless := total_insert (fun _ q => bytesOf q.normal) s.queues c
    { q with normal := rest, queuedBytes := usizeSub q.queuedBytes (bytesOf [m]) }
  have hparts := total_insert (M := Multiset (ConnectionId × StoredMessage))
    (fun c q => ↑(q.normal.map (Prod.mk c))) s.queues c
    { q with normal := rest, queuedBytes := usizeSub q.queuedBytes (bytesOf [m]) }
  simp only [share_some hq, hr, hone] at hless hparts
  have hby := le_total (f := fun _ q => bytesOf q.normal) hq
  have hbytes : bytesOf [m] = m.encoded.length := rfl
  have hsub : (s.dropMessages c q q.high rest [m] 0).queuedBytes =
      s.queuedBytes - m.encoded.length := usizeSub_of_le (by omega)
  refine ⟨?_, ⟨?_, ?_⟩, rfl, by omega⟩
  · rw [map_cons, ← Multiset.cons_coe, Multiset.add_cons, ← Multiset.cons_add] at hparts
    exact (add_right_cancel hparts).symm
  · refine forall_lookup_insert ?_ h.increasing
    exact (pairwise_cons.mp (hr ▸ h.increasing c q hq)).2
  · rw [hsub]
    exact Nat.le_sub_of_add_le (by simp only [dropMessages]; omega)

end HubState.Sequenced

/-- **The global pass.**  Its rounds take the oldest message that is left until the bound holds. -/
theorem globalRoomLoop_evicted : ∀ (fuel : Nat) (s : HubState), s.Sequenced →
    s.normals.card ≤ fuel → Evicted s (s.Admits config bytes)
      (globalRoomLoop bytes config fuel s).2 (globalRoomLoop bytes config fuel s).1
  | 0, s, _, hfuel => .none (.inr (Multiset.card_eq_zero.mp (Nat.le_zero.mp hfuel)))
  | fuel + 1, s, h, hfuel => by
    unfold globalRoomLoop
    split
    · next henough => exact .none (.inl henough)
    next hover =>
    rcases h.oldestNormal_cases with ⟨hn, hnil⟩ | ⟨c, q, m, rest, hc, hq, hr, hmin⟩
    · simp only [hn]
      exact .none (.inr hnil)
    simp only [hc, hq, hr]
    generalize hs' : s.dropMessages c q q.high rest [m] 0 = s'
    obtain ⟨hparts, hs, hres, hby⟩ := h.drop hq hr hs'
    rw [hparts, Multiset.card_cons] at hfuel
    have ih := globalRoomLoop_evicted fuel _ hs (Nat.le_of_succ_le_succ hfuel)
    have hall := hparts.trans (congrArg _ ih.parts)
    refine ⟨hall.trans (Multiset.cons_add _ _ _).symm, pairwise_cons.mpr ⟨?_, ih.sorted⟩,
      forall_mem_cons.mpr ⟨?_, ih.oldest⟩, .cons ?_ hover⟩
    · exact fun e he => hmin e (by simp [hall, he])
    · exact fun e he => hmin e (by simp [hall, he])
    · refine ih.shortest.congr fun gone => ?_
      have hone : bytesOf (((c, m) :: gone).map Prod.snd) =
        m.encoded.length + bytesOf (gone.map Prod.snd) := rfl
      unfold Admits
      rw [hone, hres, ← hby]
      omega

/-- **High-priority eviction, and when it is minimal.**  In every hub state whose deques are in
order: the local pass takes a first part of the connection's deque, and it is the shortest that
admits the reservation (or all of it, if none does) EXACTLY when the byte bound holds at entry or
nothing less than the whole deque is enough.  The global pass takes the oldest normal messages of
the hub, and always the fewest that admit the reservation (or all). -/
theorem high_eviction_minimal (h : s.Sequenced) (config : DeliveryQueueConfig) (bytes : Nat) :
    (∀ c q, s.queues.lookup c = some q →
      ∃ q', (s.makeRoomForHighLocked c bytes config).1.queues.lookup c = some q' ∧
        (s.makeRoomForHighLocked c bytes config).2 ++ q'.normal = q.normal ∧
        (Shortest (q.Admits config bytes) (s.makeRoomForHighLocked c bytes config).2
            (q'.normal = []) ↔
          q.queuedBytes + q.reservedBytes + bytes ≤ config.maxBytesPerConnection ∨
            ∀ short, short <+: q.normal → short ≠ q.normal → ¬ q.Admits config bytes short)) ∧
    Evicted s (s.Admits config bytes) (s.makeGlobalRoomForHighLocked bytes config).2
      (s.makeGlobalRoomForHighLocked bytes config).1 := by
  refine ⟨fun c q hq => ?_, globalRoomLoop_evicted _ s h ?_⟩
  · simp only [makeRoomForHighLocked, hq]
    refine ⟨_, AList.lookup_insert _, roomLoop_append .., ?_⟩
    by_cases hb : q.queuedBytes + q.reservedBytes + bytes ≤ config.maxBytesPerConnection
    · refine iff_of_true ?_ (.inl hb)
      exact (roomLoop_shortest hb q.normal).congr fun gone =>
        (and_iff_left (hb.trans (Nat.le_add_right _ _))).symm
    · rw [roomLoop_all (not_le.mp hb)]
      exact ⟨fun hs => .inr hs.2, fun hs => ⟨.inr rfl, hs.resolve_left hb⟩⟩
  · rw [normals, Table.total, ← Multiset.sum_coe]
    exact (Multiset.card_join _).le.trans_eq (by simp [Table.total, Function.comp_def])

/-! ## 4. Two queued messages -/

def twoQueued : List Action := oneOfTwoHandedOut.dropLast.dropLast

def twoSlots : DeliveryQueueConfig := ⟨2, 65536, 65536, 10000000⟩

theorem high_eviction_minimal_twoSlots :
    ∃ w q q', (delivery smallRegistry twoSlots).runIf (FreshStep twoSlots)
        (delivery smallRegistry twoSlots).start twoQueued = some w ∧
      w.hub.queues.lookup firstConnection = some q ∧ q.normal.length = 2 ∧
      (w.hub.makeRoomForHighLocked firstConnection 4096 twoSlots).1.queues.lookup firstConnection =
        some q' ∧
      Shortest (q.Admits twoSlots 4096) (q.normal.take 1) (q'.normal = []) := by
  obtain ⟨w, q, hw, hq, htwo, hone, hb⟩ : ∃ w q, (delivery smallRegistry twoSlots).runIf
        (FreshStep twoSlots) (delivery smallRegistry twoSlots).start twoQueued = some w ∧
      w.hub.queues.lookup firstConnection = some q ∧ q.normal.length = 2 ∧
      (w.hub.makeRoomForHighLocked firstConnection 4096 twoSlots).2 = q.normal.take 1 ∧
      q.queuedBytes + q.reservedBytes + 4096 ≤ twoSlots.maxBytesPerConnection :=
    ⟨_, _, rfl, rfl, rfl, rfl, by decide⟩
  have hre := Machine.reachIf_of_runIf _ hw
  have hs := (settled_reach (hre.mono fun _ _ _ => trivial)).sequenced
    (sound_reach (fun _ _ hP => hP) hre).1.balanced.accounted (.refl w.hub)
  obtain ⟨q', hq', -, hmin⟩ := (high_eviction_minimal hs twoSlots 4096).1 _ q hq
  exact ⟨w, q, q', hw, hq, htwo, hq', hone ▸ hmin.mpr (.inl hb)⟩

/-- Room for a reservation of 4096 beside one message of 32 bytes. -/
def besideOne : DeliveryQueueConfig := ⟨4, 4128, 65536, 10000000⟩

/-- **The whole deque goes**, although the first message would have been enough. -/
theorem local_room_empties_deque :
    DeliveryQueueConfig.new 4 4128 65536 10000000 = .ok besideOne ∧
    ∃ w q, (delivery smallRegistry besideOne).run (delivery smallRegistry besideOne).start
        twoQueued = some w ∧ w.hub.queues.lookup firstConnection = some q ∧
      q.normal.length = 2 ∧ q.Admits besideOne 4096 (q.normal.take 1) ∧
      (w.hub.makeRoomForHighLocked firstConnection 4096 besideOne).2 = q.normal :=
  ⟨rfl, _, _, rfl, rfl, rfl, ⟨by decide, by decide⟩, rfl⟩

end Omnius.Realtime.Delivery
