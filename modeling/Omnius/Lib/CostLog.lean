/-
# Logs of timed costs, and what a theoretical arrival time says about them

A rate limiter's purpose is a statement about the LOG of what it let through: entries with a time
and a cost, newest first.  Nothing here knows a limiter; the file reads logs.

**The virtual schedule.**  `arrival I log` is the time at which a server that spends `I` ticks on
each unit of cost would be done with the log: every entry starts at its own time or at the end of
the one before it, whichever is later.  A log CONFORMS to a burst `B` when each entry, as it was
added, ended at most `B * I` after its own time.

* `Conforms.costIn_le`: in a conforming log every interval `[a, b]` holds a cost of at most
  `B + (b - a) / I`;
* `exists_busy_from`: some interval that ends now attains the schedule, so that
  `exists_costIn_gt` can say the converse: an entry that would not conform breaks that bound on
  SOME interval.

Together: conformance and the bound on all intervals are one and the same condition.
-/
import Mathlib.Algebra.Order.BigOperators.Group.List
import Mathlib.Tactic.Linarith

namespace Omnius.Lib

/-- One entry of a log: when, and how much. -/
structure Entry where
  (at_ cost : Int)
deriving DecidableEq

/-! ## 1. Costs of a log -/

/-- The cost of the entries that meet `q`. -/
def costWhere (q : Entry → Prop) [DecidablePred q] (log : List Entry) : Int :=
  ((log.filter fun e => q e).map Entry.cost).sum

/-- The cost in the aligned window `w`. -/
def windowCost (period w : Int) (log : List Entry) : Int :=
  costWhere (fun e => e.at_ / period = w) log

/-- The cost at times in `[a, b]`. -/
def costIn (a b : Int) (log : List Entry) : Int :=
  costWhere (fun e => a ≤ e.at_ ∧ e.at_ ≤ b) log

section

variable {q : Entry → Prop} [DecidablePred q] {log : List Entry} {e : Entry}

@[simp] theorem costWhere_nil : costWhere q [] = 0 := rfl

theorem costWhere_cons_pos (h : q e) : costWhere q (e :: log) = e.cost + costWhere q log := by
  simp [costWhere, h]

theorem costWhere_cons_neg (h : ¬ q e) : costWhere q (e :: log) = costWhere q log := by
  simp [costWhere, h]

theorem costWhere_eq_zero (h : ∀ e ∈ log, ¬ q e) : costWhere q log = 0 := by
  have : log.filter (fun e => q e) = [] := by simpa using h
  simp [costWhere, this]

theorem costWhere_nonneg (h : ∀ e ∈ log, 0 < e.cost) : 0 ≤ costWhere q log := by
  refine List.sum_nonneg ?_
  intro x hx
  simp only [List.mem_map, List.mem_filter] at hx
  obtain ⟨e, ⟨he, -⟩, rfl⟩ := hx
  exact le_of_lt (h e he)

theorem costIn_eq_of_le {a b b' : Int} (h : ∀ e ∈ log, e.at_ ≤ b) (h' : ∀ e ∈ log, e.at_ ≤ b') :
    costIn a b log = costIn a b' log := by
  unfold costIn costWhere
  congr 2
  refine List.filter_congr ?_
  intro e he
  simp [h e he, h' e he]

end

theorem windowCost_eq_zero {period u w : Int} {log : List Entry}
    (h : ∀ e ∈ log, e.at_ / period ≤ u) (hu : u < w) : windowCost period w log = 0 :=
  costWhere_eq_zero fun e he heq => absurd (h e he) (by omega)

/-! ## 2. The virtual schedule -/

/-- The theoretical arrival time: when the log's cost is served at `interval` ticks per unit. -/
def arrival (interval : Int) : List Entry → Int
  | [] => 0
  | e :: log => max (arrival interval log) e.at_ + e.cost * interval

/-- Every entry, as it was added, ended within a burst of its own time. -/
def Conforms (interval burst : Int) : List Entry → Prop
  | [] => True
  | e :: log => arrival interval (e :: log) ≤ e.at_ + burst * interval ∧
      Conforms interval burst log

variable {I B a b : Int} {log : List Entry}

/-- The schedule is never ahead of any interval's cost: it serves that cost after `a`. -/
theorem costIn_mul_le_arrival (hI : 0 < I) (hcost : ∀ e ∈ log, 0 < e.cost) :
    costIn a b log = 0 ∨ a + costIn a b log * I ≤ arrival I log := by
  induction log with
  | nil => exact .inl rfl
  | cons e log ih =>
    have hpos : 0 < e.cost * I := mul_pos (hcost e List.mem_cons_self) hI
    have ih := ih fun e he => hcost e (List.mem_cons_of_mem _ he)
    unfold costIn at ih ⊢
    simp only [arrival]
    by_cases hin : a ≤ e.at_ ∧ e.at_ ≤ b
    · rw [costWhere_cons_pos hin, add_mul]
      rcases ih with h0 | h
      · rw [h0]
        exact .inr (by omega)
      · exact .inr (by omega)
    · rw [costWhere_cons_neg hin]
      exact ih.imp id fun h => by omega

/-- **A conforming log is bounded on every interval.** -/
theorem Conforms.costIn_le (hI : 0 < I) (hB : 0 ≤ B) (hcost : ∀ e ∈ log, 0 < e.cost)
    (h : Conforms I B log) (hab : a ≤ b) : costIn a b log ≤ B + (b - a) / I := by
  have hmul : costIn a b log * I ≤ B * I + (b - a) := by
    induction log with
    | nil =>
      have := mul_nonneg hB (le_of_lt hI)
      simp only [costIn, costWhere_nil]
      omega
    | cons e log ih =>
      have ih := ih (fun e he => hcost e (List.mem_cons_of_mem _ he)) h.2
      by_cases hin : a ≤ e.at_ ∧ e.at_ ≤ b
      · -- the newest entry of the interval is the one whose admission bounds the whole of it
        rcases costIn_mul_le_arrival (a := a) (b := b) hI hcost with h0 | harr
        · rw [h0]
          have := mul_nonneg hB (le_of_lt hI)
          omega
        · have := h.1
          omega
      · unfold costIn at ih ⊢
        rw [costWhere_cons_neg hin]
        exact ih
  have hdiv : costIn a b log - B ≤ (b - a) / I := by
    rw [Int.le_ediv_iff_mul_le hI, sub_mul]
    omega
  omega

/-- **The busy period.**  Some interval that ends now accounts for the whole schedule: it starts
where the server was last idle. -/
theorem exists_busy_from (hI : 0 < I) : ∀ (log : List Entry) {now : Int}, 0 ≤ now →
    (∀ e ∈ log, 0 ≤ e.at_ ∧ e.at_ ≤ now ∧ 0 < e.cost) →
    log.Pairwise (fun e e' => e'.at_ ≤ e.at_) →
    ∃ a ≤ now, max (arrival I log) now ≤ a + costIn a now log * I
  | [], now, hnow, _, _ => ⟨now, le_refl _, by simp [arrival, costIn, hnow]⟩
  | e :: log, now, hnow, hlog, hsort => by
    have hcost : ∀ e' ∈ e :: log, 0 < e'.cost := fun e' he' => (hlog e' he').2.2
    by_cases hidle : arrival I (e :: log) ≤ now
    · refine ⟨now, le_refl _, ?_⟩
      have := mul_nonneg (costWhere_nonneg (q := fun e => now ≤ e.at_ ∧ e.at_ ≤ now) hcost)
        (le_of_lt hI)
      unfold costIn
      omega
    · obtain ⟨hsort, hsort'⟩ := List.pairwise_cons.mp hsort
      obtain ⟨he0, hele, -⟩ := hlog e List.mem_cons_self
      obtain ⟨a, ha, hbusy⟩ := exists_busy_from hI log he0
        (fun e' he' => ⟨(hlog e' (List.mem_cons_of_mem _ he')).1, hsort e' he',
          hcost e' (List.mem_cons_of_mem _ he')⟩) hsort'
      refine ⟨a, le_trans ha hele, ?_⟩
      have hsame : costIn a now log = costIn a e.at_ log :=
        costIn_eq_of_le (fun e' he' => le_trans (hsort e' he') hele) hsort
      have hcons : costIn a now (e :: log) = e.cost + costIn a now log :=
        costWhere_cons_pos ⟨ha, hele⟩
      rw [max_eq_left (le_of_lt (not_le.mp hidle)), hcons, hsame, add_mul, arrival]
      omega

/-- **The converse.**  An entry that would end later than a burst allows breaks the bound on some
interval that ends with it. -/
theorem exists_costIn_gt (hI : 0 < I) {e : Entry} (he : 0 ≤ e.at_)
    (hlog : ∀ e' ∈ log, 0 ≤ e'.at_ ∧ e'.at_ ≤ e.at_ ∧ 0 < e'.cost)
    (hsort : log.Pairwise fun e e' => e'.at_ ≤ e.at_)
    (hlate : e.at_ + B * I < arrival I (e :: log)) :
    ∃ a ≤ e.at_, B + (e.at_ - a) / I < costIn a e.at_ (e :: log) := by
  obtain ⟨a, ha, hbusy⟩ := exists_busy_from hI log he hlog hsort
  refine ⟨a, ha, ?_⟩
  have hcons : costIn a e.at_ (e :: log) = e.cost + costIn a e.at_ log :=
    costWhere_cons_pos ⟨ha, le_refl _⟩
  have hdiv : (e.at_ - a) / I < e.cost + costIn a e.at_ log - B := by
    rw [Int.ediv_lt_iff_lt_mul hI, sub_mul, add_mul]
    simp only [arrival] at hlate
    omega
  omega

end Omnius.Lib
