/-
# When a refused request may come back

A denial tells its caller how long to wait.  The script computes the delay in microseconds and
rounds it up to milliseconds; `retry_advice_exact` says when the microseconds are the LEAST delay
after which the same request is allowed: not one tick earlier, and from then on.

Past `2 ^ 53` the sliding window's sum is rounded, and the advice can move with it
(`retry_advice_one_tick_late`).  This is the only way in which it goes wrong.

A refused caller may also ask again before its time: refusals leave no trace in any decision
(`refusals_cost_nothing`).
-/
import Omnius.RateLimit.Decision

namespace Omnius.RateLimit

open Omnius.Lib

/-- The sliding window's `candidate`: what the log weighs together with a request. -/
def slidingCandidate (p : RateLimitPolicy) (log : List Entry) (cost : Nat) (now : Int) : Int :=
  (windowCost p.periodUs (now / p.periodUs) log + cost) * p.periodUs +
    windowCost p.periodUs (now / p.periodUs - 1) log *
      (p.periodUs - (now - now / p.periodUs * p.periodUs))

/-- The delay the script computes from a value of that sum. -/
def slidingDelay (p : RateLimitPolicy) (log : List Entry) (cost : Nat) (now candidate : Int) :
    Int :=
  slidingRetryUs (scriptArgs p cost) (candidate - p.limit * p.periodUs)
    (p.periodUs - (now - now / p.periodUs * p.periodUs))
    (windowCost p.periodUs (now / p.periodUs) log)
    (windowCost p.periodUs (now / p.periodUs - 1) log)

/-- Rounding the sum to a double does not move the delay: the sum is one that a double holds, or
the quotient has the same ceiling. -/
def RoundingHarmless (p : RateLimitPolicy) (log : List Entry) (cost : Nat) (now : Int) : Prop :=
  slidingDelay p log cost now (luaNumber (slidingCandidate p log cost now)) =
    slidingDelay p log cost now (slidingCandidate p log cost now)

/-! ## 1. The sliding delay -/

/-- **When a delay is long enough**: up to the boundary the previous window loses weight, after it
the current one does, and a whole period later nothing is left of either. -/
theorem slidingRetryUs_le_iff {a : ScriptArgs} {excess left current previous d : Int}
    (hexcess : excess = (current + a.cost) * a.period + previous * left - a.limit * a.period)
    (hpos : 0 < excess) (hcur : 0 ≤ current) (hprevious : 0 ≤ previous)
    (hperiod : 0 < a.period) (hcost : a.cost ≤ a.limit) :
    slidingRetryUs a excess left current previous ≤ d ↔
      if d < left then excess ≤ previous * d
      else d < left + a.period →
        a.cost * a.period + current * (a.period - (d - left)) ≤ a.limit * a.period := by
  have hlimit := mul_le_mul_of_nonneg_right hcost hperiod.le
  have haft : a.cost * a.period + current * (a.period - (d - left)) ≤ a.limit * a.period ↔
      (current + a.cost - a.limit) * a.period ≤ (d - left) * current := by
    constructor <;> intro h <;> linarith
  unfold slidingRetryUs
  split
  · next hprev =>
    have hfits := (luaCeil_le_iff hprev.1).mp hprev.2
    rw [luaCeil_le_iff hprev.1, mul_comm d]
    split
    · rfl
    · next hd =>
      have hweight := mul_le_mul_of_nonneg_left (not_lt.mp hd) hprevious
      have hgain := mul_nonneg (sub_nonneg.mpr (not_lt.mp hd)) hcur
      exact iff_of_true (by linarith) fun _ => haft.mpr (by linarith)
  next hprev =>
  -- the previous window alone does not make room before the boundary
  have hlate : previous * left < excess := by
    by_contra hfits
    have hsome : 0 < previous := by
      by_contra hnone
      rw [le_antisymm (not_lt.mp hnone) hprevious, zero_mul] at hfits
      exact hfits hpos
    exact hprev ⟨hsome, (luaCeil_le_iff hsome).mpr (by linarith)⟩
  have hsome : 0 < current := by
    by_contra hnone
    rw [le_antisymm (not_lt.mp hnone) hcur] at hexcess
    linarith
  rw [if_pos hsome, ← le_sub_iff_add_le', luaCeil_le_iff hsome]
  split
  · next hd =>
    have hearly := mul_neg_of_neg_of_pos (sub_neg.mpr hd) hsome
    have hover := mul_nonneg (le_max_left 0 (current + a.cost - a.limit)) hperiod.le
    have hweight := mul_le_mul_of_nonneg_left hd.le hprevious
    exact iff_of_false (by linarith) (by linarith)
  · next hd =>
    have hgain := mul_nonneg (sub_nonneg.mpr (not_lt.mp hd)) hcur
    rw [max_mul_of_nonneg _ _ hperiod.le, zero_mul, max_le_iff, and_iff_right hgain, haft]
    refine ⟨fun h _ => h, fun h => ?_⟩
    by_cases hnext : d < left + a.period
    · exact h hnext
    · have hgone := mul_le_mul_of_nonneg_right (show a.period ≤ d - left by omega) hcur
      linarith

/-! ## 2. The same request later -/

section

variable {p : RateLimitPolicy} {l l' l'' : Limiter} {c c' : Call} {o : ScriptOutcome}

theorem Ready.windowCost_later (h : Ready p l c) {w : Int} (hw : c.now / p.periodUs < w) :
    windowCost p.periodUs w l.log = 0 :=
  windowCost_eq_zero (fun e he =>
    Int.ediv_le_ediv h.period_pos ((h.inv.entries e he).2.1.trans h.clock_le)) hw

theorem Ready.fixed_retry (h : Ready p l c) (halg : p.algorithm = .fixedWindow)
    (hden : referenceAllows p l.log c = false) (hcost : c'.cost = c.cost)
    (hlat : c.now ≤ c'.now) :
    referenceAllows p l.log c' ↔ (c.now / p.periodUs + 1) * p.periodUs ≤ c'.now := by
  have hle := h.cost_le
  have hwindow := Int.ediv_le_ediv h.period_pos hlat
  rw [← Int.le_ediv_iff_mul_le h.period_pos]
  simp only [RateLimitPolicy.maxCost, referenceAllows, halg, hcost, decide_eq_true_eq,
    decide_eq_false_iff_not] at hle hden ⊢
  rcases hwindow.eq_or_lt with hsame | hnext
  · rw [← hsame]
    exact iff_of_false hden (by omega)
  · rw [h.windowCost_later hnext]
    exact iff_of_true (by omega) hnext

theorem Ready.sliding_retry (h : Ready p l c) (halg : p.algorithm = .slidingWindow)
    (hden : referenceAllows p l.log c = false) (hcost : c'.cost = c.cost)
    (hlat : c.now ≤ c'.now) :
    referenceAllows p l.log c' ↔ c.now + slidingDelay p l.log c.cost c.now
      (slidingCandidate p l.log c.cost c.now) ≤ c'.now := by
  have hle := h.cost_le
  have hplace' := Int.ediv_mul_le c'.now (ne_of_gt h.period_pos)
  have hplace'' := Int.lt_ediv_add_one_mul_self c'.now h.period_pos
  have hwindow := Int.ediv_le_ediv h.period_pos hlat
  have hnone := fun w => @Ready.windowCost_later p l c h w
  simp only [RateLimitPolicy.maxCost, referenceAllows, halg, hcost, decide_eq_true_eq,
    decide_eq_false_iff_not, not_le] at hle hden ⊢
  have hretry := slidingRetryUs_le_iff (a := scriptArgs p c.cost) (d := c'.now - c.now) rfl
    (sub_pos.mpr hden) (costWhere_nonneg h.inv.cost_pos) (costWhere_nonneg h.inv.cost_pos)
    h.period_pos (Int.ofNat_le.mpr hle)
  refine Iff.trans ?_ (hretry.symm.trans le_sub_iff_add_le')
  simp only [scriptArgs_period, scriptArgs_limit]
  generalize c.now / (p.periodUs : Int) = w at *
  generalize c'.now / (p.periodUs : Int) = w' at *
  have hcost' : (scriptArgs p c.cost).cost = c.cost := rfl
  rw [add_mul] at hplace''
  rcases hwindow.eq_or_lt with rfl | hnext
  · rw [if_pos (by omega), hcost']
    constructor <;> intro hroom <;> linarith
  have hstt (n : Int) (hn : n ≤ w') := (mul_le_mul_of_nonneg_right hn h.period_pos.le).trans hplace'
  have hboundary := hstt (w + 1) hnext
  rw [add_mul] at hboundary
  rw [if_neg (by omega), hnone w' hnext, zero_add]
  rcases (Int.add_one_le_of_lt hnext).eq_or_lt with rfl | hgone
  · rw [add_mul, one_mul] at hplace'' ⊢
    rw [add_sub_cancel_right, show c'.now - (w * p.periodUs + p.periodUs) =
      c'.now - c.now - (p.periodUs - (c.now - w * p.periodUs)) by omega]
    exact ⟨fun hroom _ => hroom, fun hroom => hroom (by omega)⟩
  · have hsec := hstt (w + 2) (by omega)
    rw [add_mul] at hsec
    rw [hnone (w' - 1) (by omega), zero_mul]
    exact iff_of_true (mul_le_mul_of_nonneg_right (Int.ofNat_le.mpr hle) h.period_pos.le)
      fun hd => absurd hd (by omega)

theorem Ready.gcra_retry (h : Ready p l c) (halg : p.algorithm = .gcra)
    (hcost : c'.cost = c.cost) (hlat : c.now ≤ c'.now) :
    referenceAllows p l.log c' ↔ max (arrival p.interval l.log) c.now + c.cost * p.interval
      - p.burst * p.interval ≤ c'.now := by
  have hle := (h.gcra_cost halg).2
  simp only [referenceAllows, halg, arrival, hcost, decide_eq_true_eq]
  omega

theorem log_of_denied (hst : (limiter p).step l c = some l') (ho : l.reply p c = some (.ok o))
    (hden : o.reply.allowed = 0) : l.allows p c = false ∧ l'.log = l.log := by
  have hals : l.allows p c = false := by simp [Limiter.allows, ho, hden]
  rw [(step_log hst).1, hals]
  exact ⟨rfl, rfl⟩

/-- The script decides as the log says, if it decides. -/
theorem Ready.decides (h : Ready p l c) (hst : (limiter p).step l c = some l')
    (ho : ∃ o, l.reply p c = some (.ok o)) {P : Prop} (hP : referenceAllows p l.log c ↔ P) :
    ∃ o, l.reply p c = some (.ok o) ∧ (o.reply.allowed = 1 ↔ P) := by
  obtain ⟨o, ho⟩ := ho
  refine ⟨o, ho, ?_⟩
  rw [← hP, ← h.allows_eq hst]
  simp [Limiter.allows, ho]

/-- The delay computed from the rounded sum lies in the future, as the exact one does. -/
theorem Ready.slidingDelay_pos (h : Ready p l c) (halg : p.algorithm = .slidingWindow)
    (hden : referenceAllows p l.log c = false) :
    0 < slidingDelay p l.log c.cost c.now (luaNumber (slidingCandidate p l.log c.cost c.now)) := by
  have hle := h.cost_le
  have hplace := h.elapsed
  have hperiod := h.period_pos
  simp only [RateLimitPolicy.maxCost, referenceAllows, halg, decide_eq_false_iff_not] at hle hden
  have hlimit : (p.limit : Int) * p.periodUs < 2 ^ 53 := by
    have hle := mul_le_mul (Int.ofNat_le.mpr h.bounds.limit_le)
      (Int.ofNat_le.mpr h.bounds.period_le) hperiod.le (by decide)
    omega
  have hexact := (luaNumber_le_iff hlimit).not.mpr hden
  refine (slidingRetryUs_bounds _ _ ?_ ?_ ?_ (Int.ofNat_le.mpr hle) hperiod).1
  · exact sub_pos.mpr (not_le.mp hexact)
  · omega
  · simp only [scriptArgs_period]
    omega

/-- What a refusal advises, and from when on the request is really allowed.  The two are the same
time unless a sliding window's sum is rounded. -/
theorem Ready.retry_spec (h : Ready p l c) (hl' : (limiter p).Reach (limiter p).start l')
    (hst : (limiter p).step l c = some l') (ho : l.reply p c = some (.ok o))
    (hdenied : o.reply.allowed = 0) :
    o.reply.retryMs = luaCeil o.retryUs 1000 ∧ 0 < o.retryUs ∧ ∃ delay, 0 < delay ∧
      (o.retryUs = delay ↔
        (p.algorithm = .slidingWindow → RoundingHarmless p l.log c.cost c.now)) ∧
      ∀ c' l'', c'.cost = c.cost → (limiter p).step l' c' = some l'' →
        ∃ o', l'.reply p c' = some (.ok o') ∧ (o'.reply.allowed = 1 ↔ c.now + delay ≤ c'.now) := by
  obtain ⟨v, hv, hreply⟩ := reply_of_step hst
  obtain ⟨hals, hlog⟩ := log_of_denied hst ho hdenied
  rw [h.allows_eq hst] at hals
  have hlat {c' l''} (hst' : (limiter p).step l' c' = some l'') : Ready p l' c' ∧ c.now ≤ c'.now :=
    have h' := ready_of_step h.bounds hl' hst'
    ⟨h', (step_log hst).2 ▸ h'.clock_le⟩
  -- a refused request is not allowed at the reading it was refused at
  have hpos {delay : Int} (hdelay : referenceAllows p l.log c ↔ c.now + delay ≤ c.now) :
      0 < delay := by
    have := hdelay.not.mp (by simp [hals])
    omega
  rw [hreply] at ho
  cases halg : p.algorithm with
  | fixedWindow =>
    rw [h.fixed_reply halg hv] at ho
    cases ho
    have hfull := hals
    simp only [referenceAllows, halg, decide_eq_false_iff_not] at hfull
    simp only [fixedWindowDecide, scriptArgs, hfull, decide_false, Bool.false_eq_true, if_false]
    have hretry {c' : Call} (hcost : c'.cost = c.cost) (hle : c.now ≤ c'.now) :
        referenceAllows p l.log c' ↔
          c.now + ((c.now / p.periodUs + 1) * p.periodUs - c.now) ≤ c'.now := by
      rw [h.fixed_retry halg hals hcost hle, add_sub_cancel]
    have hdelay := hpos (hretry rfl le_rfl)
    refine ⟨by unfold luaCeil; omega, hdelay, _, hdelay, by simp, fun c' l'' hcost hst' => ?_⟩
    obtain ⟨h', hle⟩ := hlat hst'
    exact h'.decides hst' (h'.counter_reply (by simp [halg]) hst') (by rw [hlog, hretry hcost hle])
  | slidingWindow =>
    rw [h.sliding_reply halg hv] at ho
    cases ho
    have hfull := hals
    simp only [referenceAllows, halg, decide_eq_false_iff_not, add_mul] at hfull
    rw [add_right_comm] at hfull
    -- the script adds in another order
    have hsum : slidingCandidate p l.log c.cost c.now = _ :=
      (congrArg (· + _) (add_mul _ _ _)).trans (add_right_comm _ _ _)
    simp only [slidingWindowDecide, scriptArgs, hfull, decide_false, Bool.false_eq_true, if_false]
    rw [← hsum]
    refine ⟨by unfold luaCeil; omega, h.slidingDelay_pos halg hals,
      slidingDelay p l.log c.cost c.now (slidingCandidate p l.log c.cost c.now),
      hpos (h.sliding_retry halg hals rfl le_rfl), by simp [RoundingHarmless]; rfl, ?_⟩
    intro c' l'' hcost hst'
    obtain ⟨h', hle⟩ := hlat hst'
    exact h'.decides hst' (h'.counter_reply (by simp [halg]) hst')
      (by rw [hlog, h.sliding_retry halg hals hcost hle])
  | gcra =>
    rcases h.gcra_cases halg hv rfl with ⟨-, hs⟩ | ⟨hallow, hs⟩ | ⟨hnear, hrefuse, hs⟩
    · rw [hs] at ho
      cases ho
    · rw [hs] at ho
      cases ho
      cases hdenied
    · rw [hs] at ho
      cases ho
      simp only [gcraRefuse, scriptArgs]
      have hretry {c' : Call} (hcost : c'.cost = c.cost) (hle : c.now ≤ c'.now) :
          referenceAllows p l.log c' ↔ c.now + (max (arrival p.interval l.log) c.now +
            c.cost * p.interval - p.burst * p.interval - c.now) ≤ c'.now := by
        rw [h.gcra_retry halg hcost hle, add_sub_cancel]
      have hdelay := hpos (hretry rfl le_rfl)
      refine ⟨by unfold luaCeil ttlMillis; omega, hdelay, _, hdelay, by simp, ?_⟩
      intro c' l'' hcost hst'
      obtain ⟨h', hle⟩ := hlat hst'
      have hone := h'.gcra_cost halg
      refine h'.decides hst' ?_ (by rw [hlog, hretry hcost hle])
      obtain ⟨v', hv', hreply'⟩ := reply_of_step hst'
      rw [hreply']
      rcases h'.gcra_cases halg hv' rfl with ⟨hfar, -⟩ | ⟨-, hs'⟩ | ⟨-, -, hs'⟩
      · -- the candidate only comes nearer
        rw [hlog, hcost] at hfar
        omega
      · exact ⟨_, congrArg some hs'⟩
      · exact ⟨_, congrArg some hs'⟩

end

/-- **Retry advice is exact, exactly where rounding does not move it.**  In every reachable state of
a limiter, let a request be denied.  The reply holds `retry_us` in milliseconds, rounded up.  And
the same request, with no other in between, is denied before `now + retry_us` and allowed from then
on, if and only if the algorithm is not the sliding window or the rounding of the sum it weighs does
no harm. -/
theorem retry_advice_exact {p : RateLimitPolicy} (hp : p.Accepted) {l l' : Limiter} {c : Call}
    {o : ScriptOutcome} (hl : (limiter p).Reach (limiter p).start l)
    (hst : (limiter p).step l c = some l') (ho : l.reply p c = some (.ok o))
    (hdenied : o.reply.allowed = 0) :
    o.reply.retryMs = luaCeil o.retryUs 1000 ∧
    ((∀ c' l'', c'.cost = c.cost → (limiter p).step l' c' = some l'' →
      ∃ o', l'.reply p c' = some (.ok o') ∧
        (o'.reply.allowed = 1 ↔ c.now + o.retryUs ≤ c'.now)) ↔
      (p.algorithm = .slidingWindow → RoundingHarmless p l.log c.cost c.now)) := by
  have h := ready_of_step hp.bounds hl hst
  obtain ⟨hms, hpos, delay, hdelay, hsame, hlater⟩ :=
    h.retry_spec (hl.tail trivial hst) hst ho hdenied
  refine ⟨hms, ?_⟩
  rw [← hsame]
  constructor
  · intro hexact
    -- the same request at the earlier of the two times is judged by both
    obtain ⟨c', hcost, hnow, hexp⟩ : ∃ c' : Call, c'.cost = c.cost ∧
        c'.now = c.now + min o.retryUs delay ∧ c'.expired = false :=
      ⟨⟨c.cost, c.now + min o.retryUs delay, false⟩, rfl, rfl, rfl⟩
    obtain ⟨l'', hst'⟩ := step_enabled (p := p) (l := l') (hcost ▸ h.cost_pos) (hcost ▸ h.cost_le)
      (by rw [(step_log hst).2]; omega) hexp
    obtain ⟨o', ho', hadvice⟩ := hexact c' l'' hcost hst'
    obtain ⟨o'', ho'', htruth⟩ := hlater c' l'' hcost hst'
    cases Except.ok.inj (Option.some.inj (ho'.symm.trans ho''))
    have := hadvice.symm.trans htruth
    omega
  · rintro hdelay
    rw [hdelay]
    exact hlater

/-- Two requests in one window, and the third told to wait for the first to lose weight. -/
theorem retry_advice_exact_slidingTwo :
    ∃ l l' o, (limiter slidingTwo).run (limiter slidingTwo).start [⟨2, 900000, false⟩] = some l ∧
      (limiter slidingTwo).step l ⟨1, 1100000, false⟩ = some l' ∧
      l.reply slidingTwo ⟨1, 1100000, false⟩ = some (.ok o) ∧ o.retryUs = 400000 ∧
      o.reply.retryMs = luaCeil o.retryUs 1000 ∧
      ∃ o', l'.reply slidingTwo ⟨1, 1500000, false⟩ = some (.ok o') ∧
        (o'.reply.allowed = 1 ↔ (1100000 : Int) + o.retryUs ≤ 1500000) := by
  refine ⟨_, _, _, rfl, rfl, rfl, rfl, ?_⟩
  obtain ⟨hms, hlat⟩ := retry_advice_exact (.inr (.inl ⟨2, .fromMillis 1000, rfl⟩))
    (Machine.reach_of_run (M := limiter slidingTwo) [⟨2, 900000, false⟩] rfl)
    (c := ⟨1, 1100000, false⟩) rfl rfl rfl
  exact ⟨hms, hlat.mpr (fun _ => rfl) ⟨1, 1500000, false⟩ _ rfl rfl⟩

def slidingDaily : RateLimitPolicy := ⟨.slidingWindow, 100000, 86400000000, 100000⟩

/-- **One tick late.**  The sum is `15929913599746875`, which a double rounds up, and the request is
told to wait one microsecond longer than it has to. -/
theorem retry_advice_one_tick_late :
    RateLimitPolicy.slidingWindow 100000 (.fromHours 24) = .ok slidingDaily ∧
    ∃ l l' o, (limiter slidingDaily).run (limiter slidingDaily).start [⟨84375, 0, false⟩] = some l ∧
      (limiter slidingDaily).step l ⟨99999, 86400000003, false⟩ = some l' ∧
      l.reply slidingDaily ⟨99999, 86400000003, false⟩ = some (.ok o) ∧ o.reply.allowed = 0 ∧
      o.retryUs = 86398975998 ∧
      l'.allows slidingDaily ⟨99999, 86400000003 + 86398975997, false⟩ = true :=
  ⟨rfl, _, _, _, rfl, rfl, rfl, rfl, rfl, rfl⟩

/-! ## 3. Refusals -/

section

variable {p : RateLimitPolicy} {l l' : Limiter} {c c' : Call}

/-- Room only grows while nothing is allowed: a window that ends gives its weight back, and the
arrival time stands still. -/
theorem Ready.fits_later (h : Ready p l c) (hcost : c'.cost ≤ c.cost) (hlat : c.now ≤ c'.now)
    (hals : referenceAllows p l.log c = true) : referenceAllows p l.log c' = true := by
  have hperiod := h.period_pos
  have hle : (c'.cost : Int) ≤ c.cost := Int.ofNat_le.mpr hcost
  have hnn (w : Int) : 0 ≤ windowCost p.periodUs w l.log := costWhere_nonneg h.inv.cost_pos
  have hlater := fun w => @Ready.windowCost_later p l c h w
  have hwindow := Int.ediv_le_ediv hperiod hlat
  cases halg : p.algorithm with
  | fixedWindow =>
    simp only [referenceAllows, halg, decide_eq_true_eq] at hals ⊢
    rcases hwindow.eq_or_lt with hsame | hnext
    · rw [← hsame]
      omega
    · have := hnn (c.now / p.periodUs)
      rw [hlater _ hnext]
      omega
  | slidingWindow =>
    have hplace := Int.lt_ediv_add_one_mul_self c.now hperiod
    have hplace' := Int.ediv_mul_le c'.now (ne_of_gt hperiod)
    simp only [referenceAllows, halg, decide_eq_true_eq] at hals ⊢
    refine le_trans ?_ hals
    have hspent := mul_le_mul_of_nonneg_right hle hperiod.le
    generalize c.now / (p.periodUs : Int) = w at *
    generalize c'.now / (p.periodUs : Int) = w' at *
    rw [add_mul] at hplace
    have hleft := mul_nonneg (hnn (w - 1))
      (show (0 : Int) ≤ p.periodUs - (c.now - w * p.periodUs) by omega)
    rcases hwindow.eq_or_lt with rfl | hnext
    · have hweight := mul_le_mul_of_nonneg_left hlat (hnn (w - 1))
      linarith
    rw [hlater w' hnext]
    rcases (Int.add_one_le_of_lt hnext).eq_or_lt with rfl | hgone
    · rw [add_sub_cancel_right]
      have hweight := mul_le_mul_of_nonneg_left hplace' (hnn w)
      linarith
    · have hcurrent := mul_nonneg (hnn w) hperiod.le
      rw [hlater (w' - 1) (by omega)]
      linarith
  | gcra =>
    have hspent := mul_le_mul_of_nonneg_right hle h.bounds.interval_pos.le
    simp only [referenceAllows, halg, arrival] at hals ⊢
    have hfits := of_decide_eq_true hals
    exact decide_eq_true (by omega)

end

/-- **Refusals cost nothing.**  However many calls are refused or fail after a reachable state, a
further call is decided as it would have been before them; and a request that would have been
allowed before them is allowed after them, for the same or a smaller cost and at the same or a later
reading. -/
theorem refusals_cost_nothing {p : RateLimitPolicy} (hp : p.Accepted) {l l' : Limiter}
    (hl : (limiter p).Reach (limiter p).start l)
    (hrefused : (limiter p).ReachIf (fun u c => u.allows p c = false) l l') :
    (∀ c u u', (limiter p).step l c = some u → (limiter p).step l' c = some u' →
      l'.allows p c = l.allows p c) ∧
    ∀ c c' u u', (limiter p).step l c = some u → l.allows p c = true →
      (limiter p).step l' c' = some u' → c'.cost ≤ c.cost → c.now ≤ c'.now →
      l'.allows p c' = true := by
  have hlog : l'.log = l.log := hrefused.invariant (I := fun u => u.log = l.log) rfl
    fun u c v hu hden hst => by rw [(step_log hst).1, hden, ← hu]; rfl
  have hl' := hl.trans (hrefused.mono fun _ _ _ => trivial)
  have hready {c u} (hst : (limiter p).step l c = some u) := ready_of_step hp.bounds hl hst
  have hready' {c u} (hst : (limiter p).step l' c = some u) := ready_of_step hp.bounds hl' hst
  constructor
  · intro c u u' hst hst'
    rw [(hready hst).allows_eq hst, (hready' hst').allows_eq hst', hlog]
  · intro c c' u u' hst hals hst' hcost hlat
    rw [(hready hst).allows_eq hst] at hals
    rw [(hready' hst').allows_eq hst', hlog]
    exact (hready hst).fits_later hcost hlat hals

/-- Two of two are spent, and a refused call changes nothing for the one that asks later. -/
theorem refusals_cost_nothing_slidingTwo : ∃ l l' : Limiter,
    (limiter slidingTwo).run (limiter slidingTwo).start [⟨2, 900000, false⟩] = some l ∧
    (limiter slidingTwo).step l ⟨1, 1100000, false⟩ = some l' ∧
    l'.allows slidingTwo ⟨1, 1600000, false⟩ = true := by
  refine ⟨_, _, rfl, rfl, ?_⟩
  have h := refusals_cost_nothing (p := slidingTwo) (.inr (.inl ⟨2, .fromMillis 1000, rfl⟩))
    (Machine.reach_of_run (M := limiter slidingTwo) [⟨2, 900000, false⟩] rfl)
    (.tail .refl (a := ⟨1, 1100000, false⟩) (by decide) rfl)
  exact h.2 ⟨1, 1500000, false⟩ ⟨1, 1600000, false⟩ _ _ rfl (by decide) rfl (by decide) (by decide)

end Omnius.RateLimit
