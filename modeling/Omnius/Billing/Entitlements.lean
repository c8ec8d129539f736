/-
# Billing: what an entitlement row says

A publication mirrors the subscriptions of a tenant and evaluates them against the catalog, into one
row for each key.  The value of the row is the join over ALL subscriptions that grant the key, and
it is valid until the LAST of them ends: two aggregates that do not know of each other.

So a row is reported exactly while somebody pays for its key, but with the value of subscriptions
that have run out (`lapsed_limit_reported`).  It is the right value exactly while no subscription
that has run out grants more than one that still runs (`entitlements_follow_payment`).

The source is `crates/billing/src/store.rs`.
-/
import Mathlib
import Omnius.Lib.Attempt

namespace Omnius.Billing

open Omnius.Lib List

/-! ## 1. The catalog and the provider's snapshot -/

inductive EntitlementValue where
  | boolean (value : Bool)
  | limit (value : Nat)

inductive ValueKind where
  | boolean | limit
deriving DecidableEq

def EntitlementValue.kind : EntitlementValue → ValueKind
  | .boolean _ => .boolean
  | .limit _ => .limit

/-- `false` is below `true`, and limits are ordered by size. -/
instance : LinearOrder EntitlementValue :=
  LinearOrder.lift' (fun
    | .boolean value => Sum.inlₗ value
    | .limit value => Sum.inrₗ value : EntitlementValue → Bool ⊕ₗ Nat) (by
      rintro (_ | _) (_ | _) h <;> simp_all)

structure EntitlementGrant where
  key : String
  value : EntitlementValue

structure PlanDefinition where
  key : String
  enabled : Bool
  entitlements : List EntitlementGrant

structure Catalog where
  plans : List PlanDefinition
  prices : List (String × String)

inductive BillingStanding where
  | inGoodStanding | delinquent | pending | ended

structure ProviderSubscription where
  priceId : String
  standing : BillingStanding
  /-- `⊤` if there is none. -/
  currentPeriodEnd : WithTop Nat
  /-- When dunning began. -/
  dunning : Option Nat

structure ProviderSnapshot where
  (revision observedAt : Nat)
  subscriptions : List ProviderSubscription

inductive BillingStoreError where
  | invalidSnapshot | constraint | conflict | lostLease | corruptState | database

/-! ## 2. Publication -/

inductive Access where
  | active
  | grace (until_ : Nat)
  | denied
deriving DecidableEq

/-- The last microsecond of the year 9999. -/
def lastInstant : Nat := 253402300799999999

def subscriptionAccess (delinquentGrace observedAt : Nat) (subscription : ProviderSubscription) :
    Except BillingStoreError Access :=
  match subscription.standing, subscription.dunning with
  | .inGoodStanding, none => .ok .active
  | .pending, none | .ended, none => .ok .denied
  | .delinquent, some startedAt => do
    deny (observedAt < startedAt) .invalidSnapshot
    deny (lastInstant < startedAt + delinquentGrace) .invalidSnapshot
    if observedAt < startedAt + delinquentGrace then .ok (.grace (startedAt + delinquentGrace))
    else .ok .denied
  | _, _ => .error .invalidSnapshot

/-- A row of `billing_subscriptions`. -/
structure Mirror where
  priceId : String
  access : Access
  currentPeriodEnd : WithTop Nat

/-- No row may have been reconciled in the future. -/
def replaceMirrors (delinquentGrace now : Nat) (snapshot : ProviderSnapshot) :
    Except BillingStoreError (List Mirror) := do
  deny (now < snapshot.observedAt) .constraint
  snapshot.subscriptions.mapM fun subscription => do
    let access ← subscriptionAccess delinquentGrace snapshot.observedAt subscription
    return ⟨subscription.priceId, access, subscription.currentPeriodEnd⟩

/-- The end that the evaluation reads. -/
def Mirror.end_ (mirror : Mirror) : WithTop Nat :=
  match mirror.access with
  | .grace until_ => until_
  | _ => mirror.currentPeriodEnd

/-- A grant, joined with the subscription that pays for it. -/
structure Paid where
  key : String
  value : EntitlementValue
  end_ : WithTop Nat
  inGrace : Bool

def Paid.group (row : Paid) : String × ValueKind := (row.key, row.value.kind)

def Catalog.paid (catalog : Catalog) (mirrors : List Mirror) : List Paid :=
  (mirrors.filter (·.access ≠ .denied)).flatMap fun mirror =>
    (catalog.prices.filter (·.1 = mirror.priceId)).flatMap fun price =>
      (catalog.plans.filter fun plan => plan.key = price.2 && plan.enabled).flatMap fun plan =>
        plan.entitlements.map fun grant =>
          ⟨grant.key, grant.value, mirror.end_, mirror.access ≠ .active⟩

structure EffectiveEntitlement where
  key : String
  value : EntitlementValue
  providerRevision : Nat
  validUntil : WithTop Nat
  inGrace : Bool

/-- The row of one group: the greatest value, that is `bool_or` of booleans and `max` of limits, and
the last end, that is none if one of the group has none. -/
def aggregate (revision : Nat) (rows : List Paid) (group : String × ValueKind) :
    EffectiveEntitlement :=
  let rows := rows.filter (·.group = group)
  { key := group.1
    value := (rows.map (·.value)).maximum.unbotD (.boolean false)
    providerRevision := revision
    validUntil := (rows.map (·.end_)).maximum.unbotD ⊤
    inGrace := rows.all (·.inGrace) }

def maxEffectiveEntitlements : Nat := 512

/-- The primary key admits one row for each entitlement key. -/
def replaceEffectiveEntitlements (catalog : Catalog) (revision : Nat) (mirrors : List Mirror) :
    Except BillingStoreError (List EffectiveEntitlement) := do
  let rows := catalog.paid mirrors
  let groups := (rows.map Paid.group).dedup
  deny (¬(groups.map (·.1)).Nodup) .constraint
  deny (maxEffectiveEntitlements < groups.length) .invalidSnapshot
  return groups.map (aggregate revision rows)

def publishSnapshot (delinquentGrace now : Nat) (catalog : Catalog) (snapshot : ProviderSnapshot) :
    Except BillingStoreError (List Mirror × List EffectiveEntitlement) := do
  let mirrors ← replaceMirrors delinquentGrace now snapshot
  let entitlements ← replaceEffectiveEntitlements catalog snapshot.revision mirrors
  return (mirrors, entitlements)

def entitlements (rows : List EffectiveEntitlement) (now : Nat) :
    Except BillingStoreError (List EffectiveEntitlement) :=
  let found := ((rows.filter fun row => (now : WithTop Nat) < row.validUntil).insertionSort
    fun a b => a.key ≤ b.key).take (maxEffectiveEntitlements + 1)
  if maxEffectiveEntitlements < found.length then .error .corruptState else .ok found

/-! ## 3. What a tenant pays for -/

def Mirror.running (now : Nat) (mirror : Mirror) : Bool :=
  match mirror.access with
  | .active => (now : WithTop Nat) < mirror.currentPeriodEnd
  | .grace until_ => now < until_
  | .denied => false

/-- The values of a key that these subscriptions pay for. -/
def Catalog.values (catalog : Catalog) (mirrors : List Mirror) (key : String) :
    List EntitlementValue :=
  ((catalog.paid mirrors).filter (·.key = key)).map (·.value)

/-- No subscription that has run out grants more of the key than those that run, unless none
runs. -/
def Covered (catalog : Catalog) (mirrors : List Mirror) (key : String) (now : Nat) : Prop :=
  let running := catalog.values (mirrors.filter (·.running now)) key
  running ≠ [] → ∀ value ∈ catalog.values mirrors key, ∃ other ∈ running, value ≤ other

variable {catalog : Catalog} {mirrors : List Mirror} {rows : List Paid} {row : Paid} {now : Nat}
  {key : String} {value : EntitlementValue}

theorem mem_paid_running : row ∈ catalog.paid (mirrors.filter (·.running now)) ↔
    row ∈ catalog.paid mirrors ∧ now < row.end_ := by
  have hrun (mirror : Mirror) : mirror.access ≠ .denied →
      (mirror.running now = true ↔ now < mirror.end_) := by
    cases hmirror : mirror.access <;> simp [Mirror.running, Mirror.end_, hmirror]
  simp only [Catalog.paid, mem_flatMap, mem_filter, mem_map, decide_eq_true_eq]
  constructor
  · rintro ⟨mirror, ⟨⟨hmirror, hruns⟩, haccess⟩, price, hprice, plan, hplan, grant, hgr, rfl⟩
    exact ⟨⟨mirror, ⟨hmirror, haccess⟩, price, hprice, plan, hplan, grant, hgr, rfl⟩,
      (hrun mirror haccess).mp hruns⟩
  · rintro ⟨⟨mirror, ⟨hmirror, haccess⟩, price, hprice, plan, hplan, grant, hgr, rfl⟩, hends⟩
    exact ⟨mirror, ⟨⟨hmirror, (hrun mirror haccess).mpr hends⟩, haccess⟩, price, hprice, plan,
      hplan, grant, hgr, rfl⟩

theorem mem_values : value ∈ catalog.values mirrors key ↔
    ∃ row ∈ catalog.paid mirrors, row.key = key ∧ row.value = value := by
  simp [Catalog.values, and_assoc]

theorem maximum_eq {α : Type} [LinearOrder α] {values : List α} {some_ : α} (default : α)
    (h : some_ ∈ values) : values.maximum = values.maximum.unbotD default := by
  cases hmax : values.maximum with
  | bot => exact absurd (maximum_eq_bot.mp hmax) (ne_nil_of_mem h)
  | coe top => rfl

/-- The row of a key that has one group: its value and its validity, each for itself. -/
theorem aggregate_spec (revision now : Nat) (hrow : row ∈ rows)
    (hgroup : ∀ other ∈ rows, other.key = row.key → other.group = row.group) :
    ((rows.filter (·.key = row.key)).map (·.value)).maximum =
        (aggregate revision rows row.group).value ∧
      (now < (aggregate revision rows row.group).validUntil ↔
        ∃ other ∈ rows, other.key = row.key ∧ now < other.end_) := by
  have hsame : rows.filter (·.group = row.group) = rows.filter (·.key = row.key) :=
    filter_congr fun other hoth =>
      decide_eq_decide.mpr ⟨congrArg Prod.fst, hgroup other hoth⟩
  have hmem : row ∈ rows.filter (·.key = row.key) := mem_filter.mpr ⟨hrow, decide_eq_true rfl⟩
  simp only [aggregate, hsame]
  refine ⟨maximum_eq _ (mem_map_of_mem hmem), ?_⟩
  obtain ⟨hin, hlast⟩ := maximum_eq_coe_iff.mp (maximum_eq ⊤ (mem_map_of_mem (f := (·.end_)) hmem))
  constructor
  · intro hval
    obtain ⟨other, hoth, hend⟩ := mem_map.mp hin
    obtain ⟨hoth, hkey⟩ := mem_filter.mp hoth
    exact ⟨other, hoth, of_decide_eq_true hkey, hend ▸ hval⟩
  · rintro ⟨other, hoth, hkey, hval⟩
    exact hval.trans_le (hlast _ (mem_map_of_mem (mem_filter.mpr ⟨hoth, decide_eq_true hkey⟩)))

theorem entitlements_eq (now : Nat) {stored : List EffectiveEntitlement}
    (h : stored.length ≤ maxEffectiveEntitlements) : ∃ reported,
      entitlements stored now = .ok reported ∧
      ∀ row, row ∈ reported ↔ row ∈ stored ∧ now < row.validUntil := by
  unfold entitlements
  set found := (stored.filter fun row => (now : WithTop Nat) < row.validUntil).insertionSort
    fun a b => a.key ≤ b.key with hfd
  have hlen : found.length ≤ maxEffectiveEntitlements := by
    rw [length_insertionSort]
    exact (length_filter_le _ _).trans h
  rw [take_of_length_le (Nat.le_succ_of_le hlen), if_neg (Nat.not_lt.mpr hlen)]
  refine ⟨found, rfl, fun row => ?_⟩
  rw [mem_insertionSort, mem_filter, decide_eq_true_eq]

/-- What a tenant is shown of a key: the join over ALL its subscriptions, while one of them runs. -/
theorem reported_value {delinquentGrace published : Nat} {snapshot : ProviderSnapshot}
    {stored : List EffectiveEntitlement}
    (h : publishSnapshot delinquentGrace published catalog snapshot = .ok (mirrors, stored))
    (now : Nat) (key : String) :
    ∃ reported, entitlements stored now = .ok reported ∧ ∀ value : EntitlementValue,
      (∃ row ∈ reported, row.key = key ∧ row.value = value) ↔
        catalog.values (mirrors.filter (·.running now)) key ≠ [] ∧
          (catalog.values mirrors key).maximum = value := by
  obtain ⟨_, -, h⟩ := bind_eq_ok.mp h
  obtain ⟨_, hrows, h⟩ := bind_eq_ok.mp h
  cases h
  obtain ⟨hnd, h⟩ := check_eq_ok.mp hrows
  obtain ⟨hlen, h⟩ := check_eq_ok.mp h
  cases h
  simp only [deny_eq_ok, decide_eq_false_iff_not, not_not, not_lt] at hnd hlen
  obtain ⟨reported, hreported, hmem⟩ :=
    entitlements_eq now ((length_map _).trans_le hlen)
  refine ⟨reported, hreported, fun value => ?_⟩
  -- the primary key admits one group for each key
  have hgroup : ∀ a ∈ catalog.paid mirrors, ∀ b ∈ catalog.paid mirrors, b.key = a.key →
      b.group = a.group := fun a ha b hb hkey =>
    inj_on_of_nodup_map hnd (mem_dedup.mpr (mem_map_of_mem hb))
      (mem_dedup.mpr (mem_map_of_mem ha)) hkey
  constructor
  · rintro ⟨_, hrow, rfl, rfl⟩
    obtain ⟨hsto, hval⟩ := (hmem _).mp hrow
    obtain ⟨_, hmember, rfl⟩ := mem_map.mp hsto
    obtain ⟨paid, hpaid, rfl⟩ := mem_map.mp (mem_dedup.mp hmember)
    obtain ⟨hmax, hruns⟩ := aggregate_spec snapshot.revision now hpaid (hgroup paid hpaid)
    obtain ⟨running, hrun, hkey, hend⟩ := hruns.mp hval
    exact ⟨ne_nil_of_mem (mem_values.mpr ⟨running, mem_paid_running.mpr ⟨hrun, hend⟩, hkey, rfl⟩),
      hmax⟩
  · rintro ⟨hruns, hmaximum⟩
    obtain ⟨_, hin⟩ := exists_mem_of_ne_nil _ hruns
    obtain ⟨paid, hpays, rfl, -⟩ := mem_values.mp hin
    obtain ⟨hpaid, hend⟩ := mem_paid_running.mp hpays
    obtain ⟨hmax, hval⟩ := aggregate_spec snapshot.revision now hpaid (hgroup paid hpaid)
    refine ⟨_, (hmem _).mpr ⟨mem_map_of_mem (mem_dedup.mpr (mem_map_of_mem hpaid)),
      hval.mpr ⟨paid, hpaid, rfl, hend⟩⟩, rfl, ?_⟩
    exact WithBot.coe_injective (hmax.symm.trans hmaximum)

/-- Two lists of values, one inside the other, have the same join exactly if every value of the
larger is below one of the smaller. -/
theorem maximum_eq_iff {α : Type} [LinearOrder α] {some_ all : List α} (hsub : some_ ⊆ all) :
    (∀ value : α, some_ ≠ [] ∧ all.maximum = value ↔ some_.maximum = value) ↔
      (some_ ≠ [] → ∀ value ∈ all, ∃ other ∈ some_, value ≤ other) := by
  constructor
  · intro h hne value hin
    obtain ⟨top, htop⟩ :=
      WithBot.ne_bot_iff_exists.mp (maximum_ne_bot_of_ne_nil (ne_nil_of_mem hin))
    have hmax := maximum_eq_coe_iff.mp ((h top).mp ⟨hne, htop.symm⟩)
    exact ⟨top, hmax.1, (maximum_eq_coe_iff.mp htop.symm).2 value hin⟩
  · intro h value
    simp only [maximum_eq_coe_iff]
    constructor
    · rintro ⟨hne, hin, hle⟩
      obtain ⟨other, hoth, hge⟩ := h hne value hin
      obtain rfl := le_antisymm hge (hle other (hsub hoth))
      exact ⟨hoth, fun third hthird => hle third (hsub hthird)⟩
    · rintro ⟨hin, hle⟩
      refine ⟨ne_nil_of_mem hin, hsub hin, fun third hthird => ?_⟩
      obtain ⟨other, hoth, hge⟩ := h (ne_nil_of_mem hin) third hthird
      exact hge.trans (hle other hoth)

/-- **A tenant is granted what it pays for exactly while nothing that has run out was worth
more.** -/
theorem entitlements_follow_payment {delinquentGrace published : Nat} {catalog : Catalog}
    {snapshot : ProviderSnapshot} {mirrors : List Mirror} {rows : List EffectiveEntitlement}
    (hpublished : publishSnapshot delinquentGrace published catalog snapshot = .ok (mirrors, rows))
    (now : Nat) (key : String) :
    ∃ reported, entitlements rows now = .ok reported ∧
      ((∀ value, (∃ row ∈ reported, row.key = key ∧ row.value = value) ↔
        (catalog.values (mirrors.filter (·.running now)) key).maximum = value) ↔
          Covered catalog mirrors key now) := by
  obtain ⟨reported, hreported, hvalue⟩ := reported_value hpublished now key
  refine ⟨reported, hreported, ?_⟩
  simp only [hvalue]
  refine maximum_eq_iff fun value hin => ?_
  obtain ⟨row, hrow, hkey⟩ := mem_values.mp hin
  exact mem_values.mpr ⟨row, (mem_paid_running.mp hrow).1, hkey⟩

/-! ## 4. Two overlapping subscriptions -/

def sampleCatalog : Catalog where
  plans := [⟨"small", true, [⟨"seats", .limit 3⟩]⟩, ⟨"large", true, [⟨"seats", .limit 5⟩]⟩]
  prices := [("s", "small"), ("l", "large")]

def sampleSnapshot : ProviderSnapshot :=
  ⟨1, 0, [⟨"l", .inGoodStanding, .some 10, none⟩, ⟨"s", .inGoodStanding, .some 20, none⟩]⟩

def sampleMirrors : List Mirror := [⟨"l", .active, .some 10⟩, ⟨"s", .active, .some 20⟩]

def sampleRow : EffectiveEntitlement := ⟨"seats", .limit 5, 1, .some 20, false⟩

theorem sample_published :
    publishSnapshot 0 0 sampleCatalog sampleSnapshot = .ok (sampleMirrors, [sampleRow]) := rfl

/-- At 9 both subscriptions run and the row is right; at 15 it is not. -/
theorem entitlements_follow_payment_overlap :
    (∃ reported, entitlements [sampleRow] 9 = .ok reported ∧
      ∃ row ∈ reported, row.key = "seats" ∧ row.value = .limit 5) ∧
    ¬Covered sampleCatalog sampleMirrors "seats" 15 := by
  constructor
  · have hvalues : sampleCatalog.values (sampleMirrors.filter (·.running 9)) "seats" =
        sampleCatalog.values sampleMirrors "seats" := rfl
    obtain ⟨reported, hreported, hvl⟩ := entitlements_follow_payment sample_published 9 "seats"
    exact ⟨reported, hreported,
      (hvl.mpr (fun _ value hvl => ⟨value, hvalues ▸ hvl, le_rfl⟩) _).mpr rfl⟩
  · intro hcovered
    obtain ⟨reported, hreported, hvl⟩ := entitlements_follow_payment sample_published 15 "seats"
    obtain ⟨row, hrow, -, hvalue⟩ := (hvl.mpr hcovered (.limit 3)).mpr rfl
    cases hreported
    cases mem_singleton.mp hrow
    cases hvalue

/-- **A limit that nobody pays for any more.**  At 15 only the small plan runs. -/
theorem lapsed_limit_reported : publishSnapshot 0 0 sampleCatalog sampleSnapshot =
      .ok (sampleMirrors, [sampleRow]) ∧
    entitlements [sampleRow] 15 = .ok [sampleRow] ∧ sampleRow.value = .limit 5 ∧
    sampleCatalog.values (sampleMirrors.filter (·.running 15)) "seats" = [.limit 3] :=
  ⟨rfl, rfl, rfl, rfl⟩

end Omnius.Billing
