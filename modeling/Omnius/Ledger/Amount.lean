/-
# Exact usage amounts

Usage is counted in seven METRICS and attributed to four CLASSES of work.  The seven fields of a
vector are handled alike everywhere, so each operation is written once, as a function of the metric,
and `get` and `of` pass between the record of the source and that function.

Counters are `u64`: an addition that would not fit fails, nothing wraps and nothing saturates.  What
the checked total of a breakdown computes, and when, is said once in `checkedTotal_eq_ok`; every
later result is about the plain sums `UsageBreakdown.total`.

Translated from `crates/llm-usage-ledger/src/amount.rs`.
-/
import Mathlib.Algebra.Order.Ring.Int

namespace Omnius.Ledger

/-! ## 1. Metrics and vectors -/

/-- A quota metric, in the order of the source. -/
inductive BudgetMetric
  | requests | concurrentStreams | tokens | units | toolCalls | mediaBytes | costMicrounits
deriving DecidableEq

def BudgetMetric.all : List BudgetMetric :=
  [.requests, .concurrentStreams, .tokens, .units, .toolCalls, .mediaBytes, .costMicrounits]

theorem BudgetMetric.mem_all (m : BudgetMetric) : m ∈ BudgetMetric.all := by
  cases m <;> decide

instance {p : BudgetMetric → Prop} [DecidablePred p] : Decidable (∀ m, p m) :=
  decidable_of_iff (∀ m ∈ BudgetMetric.all, p m)
    ⟨fun h m => h m m.mem_all, fun h m _ => h m⟩

inductive ArithmeticError
  | overflow

/-- Exact resource usage and cost for one attribution class. -/
structure UsageVector where
  (requests concurrentStreams tokens units toolCalls mediaBytes costMicrounits : Nat)
deriving DecidableEq

namespace UsageVector

def get (v : UsageVector) : BudgetMetric → Nat
  | .requests => v.requests
  | .concurrentStreams => v.concurrentStreams
  | .tokens => v.tokens
  | .units => v.units
  | .toolCalls => v.toolCalls
  | .mediaBytes => v.mediaBytes
  | .costMicrounits => v.costMicrounits

def of (f : BudgetMetric → Nat) : UsageVector :=
  ⟨f .requests, f .concurrentStreams, f .tokens, f .units, f .toolCalls, f .mediaBytes,
    f .costMicrounits⟩

@[simp] theorem get_of (f : BudgetMetric → Nat) (m : BudgetMetric) : (of f).get m = f m := by
  cases m <;> rfl

theorem of_get (v : UsageVector) : of v.get = v := rfl

theorem ext_get {v v' : UsageVector} (h : ∀ m, v.get m = v'.get m) : v = v' := by
  rw [← of_get v, ← of_get v', funext h]

def zero : UsageVector := of fun _ => 0

@[simp] theorem get_zero (m : BudgetMetric) : zero.get m = 0 := get_of _ m

/-- Adds every field without wrapping or saturation. -/
def checkedAdd (v v' : UsageVector) : Except ArithmeticError UsageVector :=
  if ∀ m, v.get m + v'.get m < 2 ^ 64 then .ok (of fun m => v.get m + v'.get m)
  else .error .overflow

/-- The greater value, independently for every field. -/
def conservativeMax (v v' : UsageVector) : UsageVector :=
  of fun m => if v'.get m ≤ v.get m then v.get m else v'.get m

/-- Clears concurrency and retains billable usage. -/
def withoutConcurrency (v : UsageVector) : UsageVector := { v with concurrentStreams := 0 }

def isZero (v : UsageVector) : Bool := decide (∀ m, v.get m = 0)

@[simp] theorem get_conservativeMax (v v' : UsageVector) (m : BudgetMetric) :
    (v.conservativeMax v').get m = max (v.get m) (v'.get m) := by
  unfold conservativeMax
  rw [get_of]
  split <;> omega

@[simp] theorem get_withoutConcurrency (v : UsageVector) (m : BudgetMetric) :
    v.withoutConcurrency.get m = if m = .concurrentStreams then 0 else v.get m := by
  cases m <;> rfl

theorem checkedAdd_eq_ok {v v' u : UsageVector} : v.checkedAdd v' = .ok u ↔
    (∀ m, v.get m + v'.get m < 2 ^ 64) ∧ ∀ m, u.get m = v.get m + v'.get m := by
  unfold checkedAdd
  split
  · rename_i hfits
    rw [Except.ok.injEq]
    constructor
    · rintro rfl
      exact ⟨hfits, get_of _⟩
    · rintro ⟨-, hu⟩
      exact ext_get fun m => (get_of _ m).trans (hu m).symm
  · rename_i hover
    constructor
    · intro h
      cases h
    · rintro ⟨hfits, -⟩
      exact absurd hfits hover

end UsageVector

open UsageVector (checkedAdd_eq_ok get_of)

/-! ## 2. Breakdowns -/

/-- Usage and cost split by why work occurred. -/
structure UsageBreakdown where
  (primary retry repair tool : UsageVector)
deriving DecidableEq

namespace UsageBreakdown

/-- `UsageBreakdown::primary`: only primary model work. -/
def ofPrimary (primary : UsageVector) : UsageBreakdown := ⟨primary, .zero, .zero, .zero⟩

def zero : UsageBreakdown := ofPrimary .zero

def checkedTotal (b : UsageBreakdown) : Except ArithmeticError UsageVector :=
  match b.primary.checkedAdd b.retry with
  | .error e => .error e
  | .ok total =>
    match total.checkedAdd b.repair with
    | .error e => .error e
    | .ok total => total.checkedAdd b.tool

def includesDispatchedRequest (b : UsageBreakdown) : Except ArithmeticError Bool :=
  b.checkedTotal.map fun total => decide (0 < total.requests)

def conservativeMax (b b' : UsageBreakdown) : UsageBreakdown :=
  ⟨b.primary.conservativeMax b'.primary, b.retry.conservativeMax b'.retry,
    b.repair.conservativeMax b'.repair, b.tool.conservativeMax b'.tool⟩

def withoutConcurrency (b : UsageBreakdown) : UsageBreakdown :=
  ⟨b.primary.withoutConcurrency, b.retry.withoutConcurrency, b.repair.withoutConcurrency,
    b.tool.withoutConcurrency⟩

def total (b : UsageBreakdown) (m : BudgetMetric) : Nat :=
  b.primary.get m + b.retry.get m + b.repair.get m + b.tool.get m

@[simp] theorem total_zero (m : BudgetMetric) : zero.total m = 0 := by
  simp [total, zero, ofPrimary]

@[simp] theorem total_withoutConcurrency (b : UsageBreakdown) (m : BudgetMetric) :
    b.withoutConcurrency.total m = if m = .concurrentStreams then 0 else b.total m := by
  simp only [total, withoutConcurrency, UsageVector.get_withoutConcurrency]
  split <;> rfl

/-- **The checked total is the plain sum, whenever that is representable.** -/
theorem checkedTotal_eq_ok {b : UsageBreakdown} {v : UsageVector} :
    b.checkedTotal = .ok v ↔ (∀ m, b.total m < 2 ^ 64) ∧ ∀ m, v.get m = b.total m := by
  unfold checkedTotal total
  constructor
  · intro h
    split at h
    · cases h
    rename_i t ht
    split at h
    · cases h
    rename_i u hu
    rw [checkedAdd_eq_ok] at ht hu h
    refine ⟨fun m => ?_, fun m => ?_⟩
    · have hv := h.1 m
      rw [hu.2, ht.2] at hv
      exact hv
    · rw [h.2, hu.2, ht.2]
  · rintro ⟨hfits, hv⟩
    -- the partial sums fit because the whole does
    have h₁ : b.primary.checkedAdd b.retry =
        .ok (.of fun m => b.primary.get m + b.retry.get m) := by
      rw [checkedAdd_eq_ok]
      exact ⟨fun m => by have := hfits m; omega, fun m => get_of _ m⟩
    have h₂ : (UsageVector.of fun m => b.primary.get m + b.retry.get m).checkedAdd b.repair =
        .ok (.of fun m => b.primary.get m + b.retry.get m + b.repair.get m) := by
      rw [checkedAdd_eq_ok]
      simp only [get_of]
      exact ⟨fun m => by have := hfits m; omega, fun _ => trivial⟩
    rw [h₁]
    simp only
    rw [h₂]
    rw [checkedAdd_eq_ok]
    simp only [get_of]
    exact ⟨hfits, hv⟩

/-- Component by component. -/
def le (b b' : UsageBreakdown) : Prop :=
  ∀ m, b.primary.get m ≤ b'.primary.get m ∧ b.retry.get m ≤ b'.retry.get m ∧
    b.repair.get m ≤ b'.repair.get m ∧ b.tool.get m ≤ b'.tool.get m

instance (b b' : UsageBreakdown) : Decidable (b.le b') :=
  inferInstanceAs (Decidable (∀ m, b.primary.get m ≤ b'.primary.get m ∧ _))

theorem le.total {b b' : UsageBreakdown} (h : b.le b') (m : BudgetMetric) :
    b.total m ≤ b'.total m := by
  obtain ⟨h₁, h₂, h₃, h₄⟩ := h m
  unfold UsageBreakdown.total
  omega

theorem le.total_conservativeMax {b b' : UsageBreakdown} (h : b'.le b) (m : BudgetMetric) :
    (b.conservativeMax b').total m = b.total m := by
  obtain ⟨h₁, h₂, h₃, h₄⟩ := h m
  simp only [UsageBreakdown.total, conservativeMax, UsageVector.get_conservativeMax]
  omega

end UsageBreakdown

/-! ## 3. Signed adjustments -/

/-- An exact signed adjustment from one accounted breakdown to another. -/
structure UsageDelta where
  (requests concurrentStreams tokens units toolCalls mediaBytes costMicrounits : Int)
deriving DecidableEq

namespace UsageDelta

def get (d : UsageDelta) : BudgetMetric → Int
  | .requests => d.requests
  | .concurrentStreams => d.concurrentStreams
  | .tokens => d.tokens
  | .units => d.units
  | .toolCalls => d.toolCalls
  | .mediaBytes => d.mediaBytes
  | .costMicrounits => d.costMicrounits

def of (f : BudgetMetric → Int) : UsageDelta :=
  ⟨f .requests, f .concurrentStreams, f .tokens, f .units, f .toolCalls, f .mediaBytes,
    f .costMicrounits⟩

@[simp] theorem get_of (f : BudgetMetric → Int) (m : BudgetMetric) : (of f).get m = f m := by
  cases m <;> rfl

/-- `current - previous`, exactly; `i128` holds every difference of two `u64`. -/
def between (current previous : UsageBreakdown) : Except ArithmeticError UsageDelta :=
  match current.checkedTotal with
  | .error e => .error e
  | .ok current =>
    match previous.checkedTotal with
    | .error e => .error e
    | .ok previous => .ok (of fun m => (current.get m : Int) - previous.get m)

theorem between_ok {current previous : UsageBreakdown} {d : UsageDelta}
    (h : between current previous = .ok d) :
    (∀ m, current.total m < 2 ^ 64) ∧ (∀ m, previous.total m < 2 ^ 64) ∧
      ∀ m, d.get m = (current.total m : Int) - previous.total m := by
  unfold between at h
  split at h
  · cases h
  rename_i c hc
  split at h
  · cases h
  rename_i p hp
  cases h
  rw [UsageBreakdown.checkedTotal_eq_ok] at hc hp
  refine ⟨hc.1, hp.1, fun m => ?_⟩
  rw [get_of, hc.2, hp.2]

end UsageDelta

end Omnius.Ledger
