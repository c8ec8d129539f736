/-
# What the limiter decides, over whole runs

Three results about every state a limiter can reach, all read off `reach_inv` and the three
`*_reply` lemmas of the log.

* **Windows** (§1).  Forgetting the stored hash and keeping only the log is a refinement: the two
  counter algorithms decide as a reference does that sums the log.
* **GCRA** (§2).  What is allowed in `[a, b]` costs at most `burst + (b - a) / interval`, and a
  request is turned away only if it would break that bound on some interval.
* **Closedness** (§3).  The counter algorithms always get a reply that parses.  GCRA does not: the
  constructor bounds ONE burst by the seven-day horizon, while the script compares the horizon
  with a candidate that may lie TWO bursts ahead, and answers `INVALID_STATE` where a denial was
  due.  `closed_iff` is the exact line between the policies that can run into this and the rest.
-/
import Omnius.RateLimit.Log

namespace Omnius.RateLimit

open Omnius.Lib Option RateLimitPolicy Limiter

section

variable {p : RateLimitPolicy} {l l' : Limiter} {c : Call}

/-- A call of a run meets the assumptions of the `*_reply` lemmas. -/
theorem ready_of_step (hp : p.Bounds) (hl : (limiter p).Reach (limiter p).start l)
    (hst : (limiter p).step l c = some l') : Ready p l c := by
  obtain ⟨hcost, hclk, -⟩ := step_cases hst
  exact ⟨hp, reach_inv hp hl, hcost.1, hcost.2, hclk⟩

theorem reply_of_step (hst : (limiter p).step l c = some l') : ∃ v, l.visible c = some v ∧
    l.reply p c = some (rateLimitScript (scriptArgs p c.cost) c.now v) := by
  obtain ⟨-, -, v, hv, -⟩ := step_cases hst
  exact ⟨v, hv, by rw [reply, hv, map_some]⟩

theorem step_log (hst : (limiter p).step l c = some l') :
    l'.log = l.record c (l.allows p c) ∧ l'.clock = c.now := by
  obtain ⟨-, -, v, hv, rfl⟩ := step_cases hst
  cases hs : rateLimitScript (scriptArgs p c.cost) c.now v <;>
    simp [allows, reply, after, hv, hs, record]

end

/-! ## 1. The window counters refine the log -/

/-- The reference decision: sums over the log of everything allowed so far, no stored state. -/
def referenceAllows (p : RateLimitPolicy) (log : List Entry) (c : Call) : Bool :=
  let w := c.now / p.periodUs
  let cur := windowCost p.periodUs w log
  match p.algorithm with
  | .fixedWindow => cur + c.cost ≤ p.limit
  | .slidingWindow =>
    let prev := windowCost p.periodUs (w - 1) log
    let elapsed := c.now - w * p.periodUs
    (cur + c.cost) * p.periodUs + prev * (p.periodUs - elapsed) ≤ p.limit * p.periodUs
  | .gcra => arrival p.interval (⟨c.now, c.cost⟩ :: log) ≤ c.now + p.burst * p.interval

/-- The reference limiter: its whole state is the log. -/
def reference (p : RateLimitPolicy) : Machine (List Entry) Call where
  start := []
  step log c := some (if referenceAllows p log c then ⟨c.now, c.cost⟩ :: log else log)

section

variable {p : RateLimitPolicy} {l l' : Limiter} {c : Call}

/-- **One decision.**  The script's flag is the reference's decision on the log. -/
theorem Ready.allows_eq (h : Ready p l c) (hst : (limiter p).step l c = some l') :
    l.allows p c = referenceAllows p l.log c := by
  obtain ⟨v, hv, hreply⟩ := reply_of_step hst
  unfold allows
  rw [hreply]
  cases halg : p.algorithm with
  | fixedWindow =>
    rw [h.fixed_reply halg hv]
    simp only [referenceAllows, halg, fixedWindowDecide, scriptArgs]
    split <;> simp_all
  | slidingWindow =>
    rw [h.sliding_reply halg hv]
    simp only [referenceAllows, halg, slidingWindowDecide, scriptArgs]
    rw [add_mul, add_right_comm]
    split <;> simp_all
  | gcra =>
    have hret := h.bounds.burst_interval_le halg
    rcases h.gcra_cases halg hv rfl with ⟨hfar, hs⟩ | ⟨hallow, hs⟩ | ⟨-, hrefuse, hs⟩
    · rw [hs]
      simp only [referenceAllows, halg, arrival]
      exact (decide_eq_false (by omega)).symm
    · rw [hs]
      simp only [referenceAllows, halg, arrival, gcraAllow]
      exact (decide_eq_true hallow).symm
    · rw [hs]
      simp only [referenceAllows, halg, arrival, gcraRefuse]
      exact (decide_eq_false (by omega)).symm

/-- Forgetting the key turns every step of the limiter into the reference's step. -/
theorem limiter_refines_step (hp : p.Bounds) (hl : (limiter p).Reach (limiter p).start l)
    (hst : (limiter p).step l c = some l') : (reference p).step l.log c = some l'.log := by
  rw [(step_log hst).1, (ready_of_step hp hl hst).allows_eq hst]
  rfl

/-- **The limiter refines the reference, run by run.** -/
theorem limiter_refines (hp : p.Bounds) {cs : List Call}
    (hrun : (limiter p).run (limiter p).start cs = some l) :
    (reference p).run (reference p).start cs = some l.log := by
  refine Machine.run_map (I := (limiter p).Reach (limiter p).start) (f := log) ?_ cs
    .refl hrun
  intro s a s' hs hst
  exact ⟨hs.tail trivial hst, limiter_refines_step hp hs hst⟩

theorem Ready.counter_reply (h : Ready p l c) (halg : p.algorithm ≠ .gcra)
    (hst : (limiter p).step l c = some l') : ∃ o, l.reply p c = some (.ok o) := by
  obtain ⟨v, hv, hreply⟩ := reply_of_step hst
  rw [hreply]
  cases hal : p.algorithm with
  | fixedWindow => exact ⟨_, by rw [h.fixed_reply hal hv]⟩
  | slidingWindow => exact ⟨_, by rw [h.sliding_reply hal hv]⟩
  | gcra => exact absurd hal halg

end

/-- **Window counters refine a request log.**  After any calls at nondecreasing readings, with the
key dropped at any time from its deadline on: the log is the reference's own, the script answers
every further call and decides it as the reference does, and no aligned window holds more than
the limit. -/
theorem window_counters_refine_log {p : RateLimitPolicy}
    (hp : (∃ limit period, fixedWindow limit period = .ok p) ∨
      (∃ limit period, slidingWindow limit period = .ok p))
    {cs : List Call} {l : Limiter} (hrun : (limiter p).run (limiter p).start cs = some l) :
    (reference p).run (reference p).start cs = some l.log ∧
    (∀ c l', (limiter p).step l c = some l' → ∃ o, l.reply p c = some (.ok o) ∧
      (o.reply.allowed = 1 ↔ referenceAllows p l.log c)) ∧
    ∀ w, windowCost p.periodUs w l.log ≤ p.limit := by
  have hboth : p.Bounds ∧ p.algorithm ≠ .gcra := by
    rcases hp with ⟨_, _, h⟩ | ⟨_, _, h⟩ <;> obtain ⟨hb, halg, -⟩ := new_bounds h
    · exact ⟨hb, by simp [halg]⟩
    · exact ⟨hb, by simp [halg]⟩
  obtain ⟨hb, halg⟩ := hboth
  have hl := Machine.reach_of_run cs hrun
  refine ⟨limiter_refines hb hrun, ?_, ?_⟩
  · intro c l' hst
    have h := ready_of_step hb hl hst
    obtain ⟨o, ho⟩ := h.counter_reply halg hst
    refine ⟨o, ho, ?_⟩
    rw [← h.allows_eq hst]
    simp [allows, ho]
  · intro w
    have hcap := (reach_inv hb hl).capped
    cases hal : p.algorithm <;> simp only [Capped, hal] at hcap
    · exact hcap w
    · exact hcap w
    · exact absurd hal halg

def slidingTwo : RateLimitPolicy := ⟨.slidingWindow, 2, 1000000, 2⟩

/-- Over a key dropped at its deadline and a window skipped. -/
theorem window_counters_refine_log_slidingTwo :
    ∃ l, (limiter slidingTwo).run (limiter slidingTwo).start
        [⟨2, 900000, false⟩, ⟨1, 1100000, false⟩, ⟨1, 3000000, true⟩] = some l ∧
      l.log = [⟨3000000, 1⟩, ⟨900000, 2⟩] ∧ windowCost 1000000 0 l.log ≤ 2 := by
  obtain ⟨l, hl⟩ : ∃ l, (limiter slidingTwo).run (limiter slidingTwo).start
      [⟨2, 900000, false⟩, ⟨1, 1100000, false⟩, ⟨1, 3000000, true⟩] = some l := ⟨_, rfl⟩
  have h := window_counters_refine_log (p := slidingTwo) (.inr ⟨2, .fromMillis 1000, rfl⟩) hl
  refine ⟨l, hl, ?_, h.2.2 0⟩
  have href : (reference slidingTwo).run (reference slidingTwo).start
      [⟨2, 900000, false⟩, ⟨1, 1100000, false⟩, ⟨1, 3000000, true⟩] =
        some [⟨3000000, 1⟩, ⟨900000, 2⟩] := by decide
  exact Option.some.inj (h.1.symm.trans href)

/-! ## 2. GCRA admits a burst and then the rate -/

/-- **The GCRA admission bound.**  In every reachable state, the cost allowed at readings in
`[a, b]` is at most a burst and what the rate adds over the interval; and a call is not allowed
only if, had it been, some interval would hold more. -/
theorem gcra_admission_bound {rate burst : Nat} {period : Duration} {p : RateLimitPolicy}
    (hp : gcra rate period burst = .ok p) {l : Limiter}
    (hl : (limiter p).Reach (limiter p).start l) :
    (∀ a b, a ≤ b → costIn a b l.log ≤ burst + (b - a) / luaCeil p.periodUs rate) ∧
    ∀ c l', (limiter p).step l c = some l' →
      l'.log = l.record c (l.allows p c) ∧
      (l.allows p c = false → ∃ a ≤ c.now,
        burst + (c.now - a) / luaCeil p.periodUs rate <
          costIn a c.now (⟨c.now, c.cost⟩ :: l.log)) := by
  obtain ⟨hb, halg, rfl, rfl⟩ := new_bounds hp
  have hinv := reach_inv hb hl
  have hcap := hinv.capped
  simp only [Capped, halg] at hcap
  refine ⟨?_, ?_⟩
  · intro a b hab
    exact hcap.1.costIn_le hb.interval_pos (Int.natCast_nonneg _) hinv.cost_pos hab
  · intro c l' hst
    refine ⟨(step_log hst).1, ?_⟩
    intro hdeny
    have h := ready_of_step hb hl hst
    rw [h.allows_eq hst] at hdeny
    simp only [referenceAllows, halg, decide_eq_false_iff_not, not_le] at hdeny
    refine exists_costIn_gt (e := ⟨c.now, c.cost⟩) hb.interval_pos h.now_nonneg ?_ hinv.sorted hdeny
    intro e he
    obtain ⟨h0, hle, hpos⟩ := hinv.entries e he
    exact ⟨h0, le_trans hle h.clock_le, hpos⟩

def gcraTen : RateLimitPolicy := ⟨.gcra, 10, 1000000, 5⟩

/-- A whole burst, and one tick too early for the next unit. -/
theorem gcra_admission_bound_gcraTen :
    ∃ l, (limiter gcraTen).Reach (limiter gcraTen).start l ∧ costIn 0 0 l.log ≤ 5 ∧
      ∃ a ≤ 99999, 5 + (99999 - a) / luaCeil 1000000 10 < costIn a 99999 (⟨99999, 1⟩ :: l.log) := by
  have hrun : ∃ l, (limiter gcraTen).run (limiter gcraTen).start [⟨5, 0, false⟩] = some l ∧
      ((limiter gcraTen).step l ⟨1, 99999, false⟩).isSome ∧
      l.allows gcraTen ⟨1, 99999, false⟩ = false := ⟨_, rfl, by decide, by decide⟩
  obtain ⟨l, hl, hnext, hdeny⟩ := hrun
  obtain ⟨l', hst⟩ := isSome_iff_exists.mp hnext
  have hre := Machine.reach_of_run _ hl
  have hten : gcra 10 (.fromMillis 1000) 5 = .ok gcraTen := rfl
  have h := gcra_admission_bound hten hre
  refine ⟨l, hre, ?_, (h.2 _ l' hst).2 hdeny⟩
  simpa using h.1 0 0 (le_refl 0)

/-! ## 3. Which policies the script stays closed on -/

/-- Every call of every run gets a reply, and the reply parses. -/
def Closed (p : RateLimitPolicy) : Prop :=
  ∀ l, (limiter p).Reach (limiter p).start l → ∀ c l', (limiter p).step l c = some l' →
    ∃ o d, l.reply p c = some (.ok o) ∧ parseScriptDecision o.reply p = some d

section

variable {p : RateLimitPolicy} {l l' : Limiter} {c : Call} {v : Option KeyValue}

theorem Ready.elapsed (h : Ready p l c) : 0 ≤ c.now - c.now / p.periodUs * p.periodUs ∧
    c.now - c.now / p.periodUs * p.periodUs < p.periodUs := by
  have hmod := Int.emod_nonneg c.now (ne_of_gt h.period_pos)
  have hlt := Int.emod_lt_of_pos c.now h.period_pos
  have hdiv := Int.ediv_mul_add_emod c.now p.periodUs
  omega

theorem Ready.capacity_le (h : Ready p l c) : p.capacity ≤ 100000 := by
  have h1 := h.bounds.limit_le
  have h2 := h.bounds.burst_le
  unfold capacity maxCost
  split <;> assumption

theorem Ready.fixed_parses (h : Ready p l c) (halg : p.algorithm = .fixedWindow) :
    (parseScriptDecision (fixedWindowDecide (scriptArgs p c.cost) c.now v (c.now / p.periodUs)
      (windowCost p.periodUs (c.now / p.periodUs) l.log)).reply p).isSome := by
  set seen := windowCost p.periodUs (c.now / p.periodUs) l.log with hseen
  have hnn : 0 ≤ seen := costWhere_nonneg h.inv.cost_pos
  have hper := h.bounds.period_le
  have hel := h.elapsed
  have hspl : (c.now / p.periodUs + 1) * (p.periodUs : Int) =
      c.now / p.periodUs * p.periodUs + p.periodUs := by rw [add_mul, one_mul]
  have hcapacity : (p.capacity : Int) = p.limit := by
    simp [capacity, maxCost, halg]
  simp only [fixedWindowDecide, scriptArgs, hspl]
  by_cases hal : seen + c.cost ≤ p.limit
  · simp only [hal, decide_true, if_true]
    exact parseScriptDecision_isSome (.inl ⟨rfl, rfl⟩) (le_max_left _ _) (by simp only; omega)
      h.capacity_le (by simp) (ttlMillis_pos _) (ttlMillis_le (by omega) (by omega))
  · simp only [hal, decide_false, Bool.false_eq_true, if_false]
    exact parseScriptDecision_isSome (.inr ⟨rfl, by simp only; omega⟩) (le_max_left _ _)
      (by simp only; omega) h.capacity_le (by simp only; omega) (ttlMillis_pos _)
      (ttlMillis_le (by omega) (by omega))

/-- The advice to a refused request is a positive wait of at most two periods. -/
theorem slidingRetryUs_bounds {a : ScriptArgs} {excess untilBoundary : Int}
    (current previous : Int) (hexc : 0 < excess) (hub : 0 < untilBoundary)
    (hub' : untilBoundary ≤ a.period) (hcost : a.cost ≤ a.limit) (hper : 0 < a.period) :
    0 < slidingRetryUs a excess untilBoundary current previous ∧
      slidingRetryUs a excess untilBoundary current previous ≤ 2 * a.period := by
  unfold slidingRetryUs
  split
  · rename_i h
    have := luaCeil_pos hexc h.1
    omega
  split
  · rename_i hcur
    have hle : luaCeil (max 0 (current + a.cost - a.limit) * a.period) current ≤ a.period := by
      rw [luaCeil_le_iff hcur, mul_comm a.period]
      exact mul_le_mul_of_nonneg_right (by omega) (le_of_lt hper)
    have hge : 0 ≤ luaCeil (max 0 (current + a.cost - a.limit) * a.period) current := by
      by_contra hneg
      have h1 : luaCeil (max 0 (current + a.cost - a.limit) * a.period) current ≤ -1 := by omega
      have h2 := (luaCeil_le_iff hcur).mp h1
      have h3 := mul_nonneg (le_max_left 0 (current + a.cost - a.limit)) (le_of_lt hper)
      omega
    omega
  · omega

theorem slidingWindowDecide_parses {a : ScriptArgs} {now w cur prev : Int} (hcur : 0 ≤ cur)
    (hprev : 0 ≤ prev) (hel : 0 ≤ now - w * a.period ∧ now - w * a.period < a.period)
    (hper : a.period ≤ 86400000000) (hcost : 0 < a.cost) (hcost' : a.cost ≤ a.limit)
    (hcap : (p.capacity : Int) = a.limit) (hcap' : p.capacity ≤ 100000) :
    (parseScriptDecision (slidingWindowDecide a now v w cur prev).reply p).isSome := by
  have hper0 : 0 < a.period := by omega
  -- the weighted count is not negative, so no more than the limit remains
  have hweight : 0 ≤ cur * a.period + prev * (a.period - (now - w * a.period)) :=
    add_nonneg (mul_nonneg hcur (le_of_lt hper0)) (mul_nonneg hprev (by omega))
  have hcostw : 0 ≤ a.cost * a.period := mul_nonneg (le_of_lt hcost) (le_of_lt hper0)
  have hrem : ∀ x : Int, 0 ≤ x → max 0 ((a.limit * a.period - x) / a.period) ≤ p.capacity := by
    intro x hx
    refine max_le (Int.natCast_nonneg _) ?_
    rw [hcap, ← Int.lt_add_one_iff, Int.ediv_lt_iff_lt_mul hper0, add_mul]
    omega
  by_cases hal : cur * a.period + prev * (a.period - (now - w * a.period)) + a.cost * a.period ≤
      a.limit * a.period
  · simp only [slidingWindowDecide, hal, decide_true, if_true]
    exact parseScriptDecision_isSome (.inl ⟨rfl, rfl⟩) (le_max_left _ _) (hrem _ (by omega)) hcap'
      (by simp) (ttlMillis_pos _) (ttlMillis_le (by omega) (by omega))
  · have hexact : a.limit * a.period < 2 ^ 53 := by
      have := mul_le_mul (show a.limit ≤ 100000 by omega) hper (le_of_lt hper0) (by decide)
      omega
    have hexcess : 0 < luaNumber (cur * a.period + prev * (a.period - (now - w * a.period))
        + a.cost * a.period) - a.limit * a.period := by
      have := (luaNumber_le_iff hexact).not.mpr hal
      omega
    have hleft : 0 < a.period - (now - w * a.period) := by omega
    have hretry := slidingRetryUs_bounds cur prev hexcess hleft (by omega) hcost' hper0
    simp only [slidingWindowDecide, hal, decide_false, Bool.false_eq_true, if_false]
    exact parseScriptDecision_isSome (.inr ⟨rfl, by simp only; omega⟩) (le_max_left _ _)
      (hrem _ hweight) hcap' (by simp only; omega) (ttlMillis_pos _)
      (ttlMillis_le (by omega) (by omega))

theorem Ready.sliding_parses (h : Ready p l c) (halg : p.algorithm = .slidingWindow) :
    (parseScriptDecision (slidingWindowDecide (scriptArgs p c.cost) c.now v (c.now / p.periodUs)
      (windowCost p.periodUs (c.now / p.periodUs) l.log)
      (windowCost p.periodUs (c.now / p.periodUs - 1) l.log)).reply p).isSome := by
  have hcost := h.cost_le
  simp only [maxCost, halg] at hcost
  refine slidingWindowDecide_parses (costWhere_nonneg h.inv.cost_pos)
    (costWhere_nonneg h.inv.cost_pos) h.elapsed ?_ ?_ ?_ ?_ h.capacity_le
  · exact Int.ofNat_le.mpr h.bounds.period_le
  · exact Int.natCast_pos.mpr h.cost_pos
  · exact Int.ofNat_le.mpr hcost
  · simp [capacity, maxCost, halg, scriptArgs]

/-- How far the arrival time can lie ahead of a call. -/
theorem Ready.arrival_le (h : Ready p l c) (halg : p.algorithm = .gcra) :
    max (arrival p.interval l.log) c.now ≤ c.now + p.burst * p.interval := by
  have hcap := h.inv.capped
  simp only [Capped, halg] at hcap
  have hclk := h.clock_le
  have := mul_nonneg (Int.natCast_nonneg p.burst) (le_of_lt h.bounds.interval_pos)
  exact max_le (by omega) (by omega)

theorem gcra_remaining_le {burst interval ahead : Int} (hI : 0 < interval) (hb : 0 ≤ burst)
    (ha : 0 ≤ ahead) : max 0 ((burst * interval - ahead) / interval) ≤ burst := by
  refine max_le hb ?_
  rw [← Int.lt_add_one_iff, Int.ediv_lt_iff_lt_mul hI, add_mul]
  omega

/-- A GCRA call is answered, and the answer parses, unless its candidate lies past the horizon. -/
theorem Ready.gcra_parses (h : Ready p l c) (halg : p.algorithm = .gcra)
    (hst : (limiter p).step l c = some l')
    (hnear : max (arrival p.interval l.log) c.now + c.cost * p.interval - c.now ≤ 604800000000) :
    ∃ o d, l.reply p c = some (.ok o) ∧ parseScriptDecision o.reply p = some d := by
  obtain ⟨v, hv, hreply⟩ := reply_of_step hst
  obtain ⟨tat, htat⟩ : ∃ tat, tat = max (arrival p.interval l.log) c.now := ⟨_, rfl⟩
  have hI := h.bounds.interval_pos
  have hb := h.bounds.burst_pos
  have hret := h.bounds.burst_interval_le halg
  have htle := h.arrival_le halg
  have hcost := h.gcra_cost halg
  -- the emission interval is at most a burst's worth of intervals
  have hone : p.interval ≤ p.burst * p.interval :=
    le_mul_of_one_le_left (le_of_lt hI) (by exact_mod_cast hb)
  have hcapacity : (p.capacity : Int) = p.burst := by
    simp [capacity, maxCost, halg]
  rw [hreply]
  rcases h.gcra_cases halg hv htat with ⟨hfar, -⟩ | ⟨hallow, hs⟩ | ⟨-, hrefuse, hs⟩
  · omega
  · rw [hs]
    have hpar : (parseScriptDecision (gcraAllow (scriptArgs p c.cost) c.now v p.interval
        (tat + c.cost * p.interval)).reply p).isSome :=
      parseScriptDecision_isSome (.inl ⟨rfl, rfl⟩) (le_max_left _ _)
        (hcapacity ▸ gcra_remaining_le hI (Int.natCast_nonneg _) (by omega)) h.capacity_le
        (by simp [gcraAllow]) (ttlMillis_pos _) (ttlMillis_le (by omega) (by omega))
    obtain ⟨d, hd⟩ := isSome_iff_exists.mp hpar
    exact ⟨_, d, rfl, hd⟩
  · rw [hs]
    have hpar : (parseScriptDecision
        (gcraRefuse (scriptArgs p c.cost) c.now v p.interval tat).reply p).isSome :=
      parseScriptDecision_isSome (.inr ⟨rfl, ttlMillis_pos _⟩) (le_max_left _ _)
        (hcapacity ▸ gcra_remaining_le hI (Int.natCast_nonneg _) (by omega)) h.capacity_le
        (ttlMillis_le (by omega) (by simp only [scriptArgs]; omega))
        (ttlMillis_pos _) (ttlMillis_le (by omega) (by omega))
    obtain ⟨d, hd⟩ := isSome_iff_exists.mp hpar
    exact ⟨_, d, rfl, hd⟩

/-- A call of an accepted cost, not before the clock, on a key that is still there is enabled. -/
theorem step_enabled (hpos : 0 < c.cost) (hle : c.cost ≤ p.maxCost) (hclk : l.clock ≤ c.now)
    (hexp : c.expired = false) : ∃ l', (limiter p).step l c = some l' := by
  obtain ⟨v, hv⟩ : ∃ v, l.visible c = some v := by
    cases hk : l.key with
    | none => exact ⟨none, by simp [visible, hk]⟩
    | some k => exact ⟨some k.value, by simp [visible, hk, hexp]⟩
  have hreq : RateLimitRequest.new p c.cost = .ok ⟨p, c.cost⟩ :=
    RateLimitRequest.new_ok_iff.mpr ⟨⟨hpos, hle⟩, rfl⟩
  simp only [limiter, Limiter.step, reply, hreq, if_neg (not_lt.mpr hclk), hv, map_some]
  cases rateLimitScript (scriptArgs p c.cost) c.now v with
  | ok o | error e => exact ⟨_, rfl⟩

/-- A burst spent at once, and the same burst asked for again at the same reading: the candidate
arrival time is two bursts ahead. -/
theorem exists_two_bursts (hp : p.Bounds) (halg : p.algorithm = .gcra) :
    ∃ l, (limiter p).Reach (limiter p).start l ∧ ∃ l', (limiter p).step l ⟨p.burst, 0, false⟩ =
      some l' ∧ max (arrival p.interval l.log) 0 = p.burst * p.interval := by
  have hmax : p.burst ≤ p.maxCost := by simp [maxCost, halg]
  have hBI := mul_nonneg (Int.natCast_nonneg p.burst) (le_of_lt hp.interval_pos)
  obtain ⟨l, hl⟩ := step_enabled (l := (limiter p).start) (c := ⟨p.burst, 0, false⟩)
    hp.burst_pos hmax (le_refl 0) rfl
  have hre : (limiter p).Reach (limiter p).start l := .tail .refl trivial hl
  have hlog : l.log = [⟨0, p.burst⟩] := by
    rw [(step_log hl).1, (ready_of_step hp .refl hl).allows_eq hl]
    have : referenceAllows p (limiter p).start.log ⟨p.burst, 0, false⟩ = true := by
      simp [referenceAllows, halg, limiter, arrival]
    rw [this]
    rfl
  obtain ⟨l', hl'⟩ := step_enabled (p := p) (l := l) (c := ⟨p.burst, 0, false⟩)
    hp.burst_pos hmax (le_of_eq (step_log hl).2) rfl
  refine ⟨l, hre, l', hl', ?_⟩
  simp only [hlog, arrival, max_self, zero_add]
  exact max_eq_left hBI

end

/-- **Which accepted policies the script stays closed on**: every counter, and every GCRA policy
whose burst, spent TWICE, still lies within the seven-day horizon. -/
theorem closed_iff {p : RateLimitPolicy} (hp : p.Accepted) :
    Closed p ↔ (p.algorithm = .gcra → 2 * (p.burst * p.interval) ≤ 604800000000) := by
  have hb := hp.bounds
  constructor
  · intro hcl halg
    obtain ⟨l, hl, l', hst, harr⟩ := exists_two_bursts hb halg
    obtain ⟨o, -, ho, -⟩ := hcl l hl _ l' hst
    obtain ⟨v, hv, hreply⟩ := reply_of_step hst
    have h := ready_of_step hb hl hst
    have hcost := h.gcra_cost halg
    rcases h.gcra_cases halg hv harr.symm with ⟨-, hs⟩ | ⟨hallow, -⟩ | ⟨hnear, -, -⟩
    · rw [hreply, hs] at ho
      cases ho
    · simp only at hallow hcost
      omega
    · simp only at hnear
      omega
  · intro hhorizon l hl c l' hst
    have h := ready_of_step hb hl hst
    obtain ⟨v, hv, hreply⟩ := reply_of_step hst
    cases halg : p.algorithm with
    | fixedWindow =>
      obtain ⟨d, hd⟩ := isSome_iff_exists.mp (h.fixed_parses (v := v) halg)
      exact ⟨_, d, by rw [hreply, h.fixed_reply halg hv], hd⟩
    | slidingWindow =>
      obtain ⟨d, hd⟩ := isSome_iff_exists.mp (h.sliding_parses (v := v) halg)
      exact ⟨_, d, by rw [hreply, h.sliding_reply halg hv], hd⟩
    | gcra =>
      have htat := h.arrival_le halg
      have hcost := h.gcra_cost halg
      have := hhorizon halg
      exact h.gcra_parses halg hst (by omega)

/-- Ten per second with a burst of five is far from the horizon. -/
theorem closed_iff_gcraTen : Closed gcraTen := by
  refine (closed_iff (.inr (.inr ⟨10, .fromMillis 1000, 5, rfl⟩))).mpr ?_
  intro _
  decide

/-- One per day with a burst of seven: accepted, since the burst is retained for exactly seven
days. -/
def gcraDaily : RateLimitPolicy := ⟨.gcra, 1, 86400000000, 7⟩

/-- **The burst is spent, and the next request is not denied.**  It gets `INVALID_STATE`, which a
limiter that fails open turns into an allowed request. -/
theorem gcraDaily_not_closed :
    gcra 1 (.fromHours 24) 7 = .ok gcraDaily ∧
    ∃ l, (limiter gcraDaily).run (limiter gcraDaily).start [⟨7, 0, false⟩] = some l ∧
      ((limiter gcraDaily).step l ⟨1, 0, false⟩).isSome ∧
      referenceAllows gcraDaily l.log ⟨1, 0, false⟩ = false ∧
      ∃ r, l.reply gcraDaily ⟨1, 0, false⟩ = some r ∧ r = .error .invalidState ∧
        checkInner .open gcraDaily r = ⟨true, .backendUnavailable, none, none, none⟩ := by
  refine ⟨rfl, _, rfl, ?_, ?_, _, rfl, rfl, rfl⟩
  · decide
  · decide

end Omnius.RateLimit
