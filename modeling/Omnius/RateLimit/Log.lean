/-
# What the stored hash means: the log of allowed requests

The script keeps two or three integers per key.  This file says what they stand for, in terms of
the log of every request it ever allowed:

* fixed window: `count` is the allowed cost of window `window`;
* sliding window: `current` and `previous` are the allowed costs of `window` and of the one before;
* GCRA: `tat` is the theoretical arrival time the log builds up (`arrival`).

`Inv` is that reading together with the deadline of the key, which is what makes an EXPIRED key
harmless: by the time Redis may drop it, the numbers it held are the ones the script would have
started from anyway.  The three `*_reply` lemmas then say it once for all callers: on any key the
limiter can be left with, the script's branch computes its decision from the log.
-/
import Omnius.RateLimit.Script

namespace Omnius.RateLimit

open Omnius.Lib Option Limiter

/-! ## 1. The invariant -/

/-- The GCRA emission interval, as the script computes it. -/
def RateLimitPolicy.interval (p : RateLimitPolicy) : Int := luaCeil p.periodUs p.limit

variable {p : RateLimitPolicy}

theorem RateLimitPolicy.Bounds.interval_pos (hp : p.Bounds) :
    0 < p.interval := by
  have h1 := hp.limit_pos
  have h2 := hp.period_ge
  exact luaCeil_pos (by omega) (by omega)

/-- The retention bound the constructor checks, in the script's own numbers. -/
theorem RateLimitPolicy.Bounds.burst_interval_le (hp : p.Bounds)
    (halg : p.algorithm = .gcra) : p.burst * p.interval ≤ 604800000000 := by
  rw [RateLimitPolicy.interval, luaCeil_natCast hp.limit_pos, mul_comm]
  exact_mod_cast hp.retention_le halg

/-- What the fields of an existing key say about the log, and how long the key stays. -/
def KeyInv (p : RateLimitPolicy) (k : RedisKey) (clock : Int) (log : List Entry) : Prop :=
  ∃ fields, k.value = .hash fields ∧
    match p.algorithm with
    | .fixedWindow =>
      ∃ w, fields .window = some w ∧ fields .count = some (windowCost p.periodUs w log) ∧
        0 ≤ w ∧ w ≤ clock / p.periodUs ∧ (∀ e ∈ log, e.at_ / p.periodUs ≤ w) ∧
        (w + 1) * p.periodUs ≤ k.expireAt
    | .slidingWindow =>
      ∃ w, fields .window = some w ∧ fields .current = some (windowCost p.periodUs w log) ∧
        fields .previous = some (windowCost p.periodUs (w - 1) log) ∧
        0 ≤ w ∧ w ≤ clock / p.periodUs ∧ (∀ e ∈ log, e.at_ / p.periodUs ≤ w) ∧
        (w + 2) * p.periodUs ≤ k.expireAt
    | .gcra =>
      fields .tat = some (arrival p.interval log) ∧
        arrival p.interval log ≤ k.expireAt

/-- What the limiter never lets the log exceed. -/
def Capped (p : RateLimitPolicy) (clock : Int) (log : List Entry) : Prop :=
  match p.algorithm with
  | .fixedWindow | .slidingWindow => ∀ w, windowCost p.periodUs w log ≤ p.limit
  | .gcra => Conforms p.interval p.burst log ∧
      arrival p.interval log ≤ clock + p.burst * p.interval

/-- The invariant of one key's limiter. -/
structure Inv (p : RateLimitPolicy) (l : Limiter) : Prop where
  clock_nonneg : 0 ≤ l.clock
  entries : ∀ e ∈ l.log, 0 ≤ e.at_ ∧ e.at_ ≤ l.clock ∧ 0 < e.cost
  /-- The log is newest first. -/
  sorted : l.log.Pairwise fun e e' => e'.at_ ≤ e.at_
  absent : l.key = none → l.log = []
  key : ∀ k, l.key = some k → KeyInv p k l.clock l.log
  capped : Capped p l.clock l.log

theorem Inv.cost_pos {l : Limiter} (h : Inv p l) :
    ∀ e ∈ l.log, 0 < e.cost := fun e he => (h.entries e he).2.2

theorem inv_start (hp : p.Bounds) : Inv p (limiter p).start where
  clock_nonneg := le_refl 0
  entries := by simp [limiter]
  sorted := List.Pairwise.nil
  absent := fun _ => rfl
  key := by simp [limiter]
  capped := by
    unfold Capped
    split
    · exact fun w => Int.natCast_nonneg _
    · exact fun w => Int.natCast_nonneg _
    · have hb : (0 : Int) ≤ p.burst * p.interval :=
        mul_nonneg (Int.natCast_nonneg _) (le_of_lt hp.interval_pos)
      simpa [limiter, arrival, Conforms] using hb

/-! ## 2. The script reads the log

`Ready p l c` collects what a call of a run may assume: an accepted policy and cost, a reading not
before the last, and the invariant. -/

theorem scriptArgs_period (p : RateLimitPolicy) (cost : Nat) :
    (scriptArgs p cost).period = p.periodUs := (rfl)

theorem scriptArgs_limit (p : RateLimitPolicy) (cost : Nat) :
    (scriptArgs p cost).limit = p.limit := rfl

/-- A call the limiter can receive in a state that meets the invariant. -/
structure Ready (p : RateLimitPolicy) (l : Limiter) (c : Call) : Prop where
  bounds : p.Bounds
  inv : Inv p l
  cost_pos : 0 < c.cost
  cost_le : c.cost ≤ p.maxCost
  clock_le : l.clock ≤ c.now

section

variable {p : RateLimitPolicy} {l : Limiter} {c : Call} {v : Option KeyValue}

section

variable (h : Ready p l c)

include h

theorem Ready.now_nonneg : 0 ≤ c.now := le_trans h.inv.clock_nonneg h.clock_le

theorem Ready.period_pos : (0 : Int) < p.periodUs := by
  have := h.bounds.period_ge
  omega

theorem Ready.window_nonneg : 0 ≤ c.now / p.periodUs :=
  Int.ediv_nonneg h.now_nonneg (le_of_lt h.period_pos)

theorem Ready.window_le : l.clock / p.periodUs ≤ c.now / p.periodUs :=
  Int.ediv_le_ediv h.period_pos h.clock_le

/-- What the script can find: nothing, or the hash the invariant describes. -/
theorem Ready.visible_cases (hv : l.visible c = some v) :
    (v = none ∧ l.log = []) ∨
    (∃ k, v = none ∧ k.expireAt ≤ c.now ∧ KeyInv p k l.clock l.log) ∨
    (∃ k, v = some k.value ∧ l.key = some k ∧ KeyInv p k l.clock l.log) := by
  unfold visible at hv
  cases hk : l.key with
  | none =>
    rw [hk] at hv
    simp only [some.injEq] at hv
    exact .inl ⟨hv.symm, h.inv.absent hk⟩
  | some k =>
    rw [hk] at hv
    simp only at hv
    have hkey := h.inv.key k hk
    split at hv
    · split at hv
      · rename_i hexp
        simp only [some.injEq] at hv
        exact .inr (.inl ⟨k, hv.symm, hexp, hkey⟩)
      · cases hv
    · simp only [some.injEq] at hv
      exact .inr (.inr ⟨k, hv.symm, rfl, hkey⟩)

/-- The arguments pass the script's own check, so the policy's branch runs. -/
theorem Ready.script_eq (hv : l.visible c = some v) :
    rateLimitScript (scriptArgs p c.cost) c.now v =
      match p.algorithm with
      | .fixedWindow => fixedWindowScript (scriptArgs p c.cost) c.now v
      | .slidingWindow => slidingWindowScript (scriptArgs p c.cost) c.now v
      | .gcra => gcraScript (scriptArgs p c.cost) c.now v := by
  have hne : v ≠ some .foreign := by
    rcases h.visible_cases hv with ⟨rfl, -⟩ | ⟨k, rfl, -⟩ | ⟨k, rfl, -, fields, hk, -⟩
    · simp
    · simp
    · rw [hk]; simp
  have h1 := h.bounds.limit_pos
  have h2 := h.bounds.period_ge
  have h3 := h.bounds.burst_pos
  have h4 := h.cost_pos
  have hargs : ¬ ((scriptArgs p c.cost).algorithm < 1 ∨ 3 < (scriptArgs p c.cost).algorithm
      ∨ (scriptArgs p c.cost).limit < 1 ∨ (scriptArgs p c.cost).period < 1
      ∨ (scriptArgs p c.cost).burst < 1 ∨ (scriptArgs p c.cost).cost < 1
      ∨ (scriptArgs p c.cost).maxStateTtl < 1) := by
    simp only [scriptArgs, maxStateTtl, Duration.asMicros, Duration.fromHours]
    cases p.algorithm <;> simp only [RateLimitAlgorithm.scriptCode] <;> omega
  unfold rateLimitScript
  split
  · exact absurd rfl hne
  rw [if_neg hargs]
  cases halg : p.algorithm <;>
    simp [scriptArgs, halg, RateLimitAlgorithm.scriptCode]

/-- **Fixed window.**  Whatever became of the key, the script counts the allowed cost of the
current window. -/
theorem Ready.fixed_reply (halg : p.algorithm = .fixedWindow) (hv : l.visible c = some v) :
    rateLimitScript (scriptArgs p c.cost) c.now v =
      .ok (fixedWindowDecide (scriptArgs p c.cost) c.now v (c.now / p.periodUs)
        (windowCost p.periodUs (c.now / p.periodUs) l.log)) := by
  have hcap := h.inv.capped
  have hwin := h.window_le
  rw [h.script_eq hv, halg]
  simp only [Capped, halg] at hcap
  rcases h.visible_cases hv with ⟨rfl, hlog⟩ | ⟨k, rfl, hexp, fields, -, hkey⟩ |
      ⟨k, rfl, -, fields, hk, hkey⟩
  · rw [hlog]
    simp [fixedWindowScript, readInteger, scriptArgs, windowCost]
  · -- the deadline lies past the stored window's end
    rw [halg] at hkey
    obtain ⟨w, -, -, -, -, hle, hend⟩ := hkey
    have hlt : w + 1 ≤ c.now / p.periodUs :=
      (Int.le_ediv_iff_mul_le h.period_pos).mpr (le_trans hend hexp)
    rw [windowCost_eq_zero hle (by omega)]
    simp [fixedWindowScript, readInteger, scriptArgs]
  · rw [halg] at hkey
    obtain ⟨w, hw, hct, hw0, hwle, hle, -⟩ := hkey
    have hnn : 0 ≤ windowCost p.periodUs w l.log := costWhere_nonneg h.inv.cost_pos
    have hbad : ¬ (c.now / p.periodUs < w ∨ p.limit < windowCost p.periodUs w l.log) := by
      have := hcap w
      omega
    simp only [fixedWindowScript, scriptArgs_period, scriptArgs_limit, readInteger, hk, hw, hct,
      if_neg (not_lt.mpr hw0), if_neg (not_lt.mpr hnn), if_neg hbad]
    split
    · next heq => rw [heq]
    · next hne => rw [windowCost_eq_zero hle (by omega)]

/-- **Sliding window.**  The two counters are the allowed costs of the current window and of the
one before it, over any gap. -/
theorem Ready.sliding_reply (halg : p.algorithm = .slidingWindow) (hv : l.visible c = some v) :
    rateLimitScript (scriptArgs p c.cost) c.now v =
      .ok (slidingWindowDecide (scriptArgs p c.cost) c.now v (c.now / p.periodUs)
        (windowCost p.periodUs (c.now / p.periodUs) l.log)
        (windowCost p.periodUs (c.now / p.periodUs - 1) l.log)) := by
  have hcap := h.inv.capped
  have hwin := h.window_le
  rw [h.script_eq hv, halg]
  simp only [Capped, halg] at hcap
  rcases h.visible_cases hv with ⟨rfl, hlog⟩ | ⟨k, rfl, hexp, fields, -, hkey⟩ |
      ⟨k, rfl, -, fields, hk, hkey⟩
  · rw [hlog]
    simp [slidingWindowScript, readInteger, scriptArgs, windowCost]
  · -- the deadline lies past the end of the window after the stored one
    rw [halg] at hkey
    obtain ⟨w, -, -, -, -, -, hle, hend⟩ := hkey
    have hlt : w + 2 ≤ c.now / p.periodUs :=
      (Int.le_ediv_iff_mul_le h.period_pos).mpr (le_trans hend hexp)
    rw [windowCost_eq_zero hle (by omega), windowCost_eq_zero hle (by omega)]
    simp [slidingWindowScript, readInteger, scriptArgs]
  · rw [halg] at hkey
    obtain ⟨w, hw, hcur, hprev, hw0, hwle, hle, -⟩ := hkey
    have hnn : ∀ u, 0 ≤ windowCost p.periodUs u l.log := fun u => costWhere_nonneg h.inv.cost_pos
    have hbad : ¬ (p.limit < windowCost p.periodUs w l.log ∨
        p.limit < windowCost p.periodUs (w - 1) l.log) :=
      not_or.mpr ⟨not_lt.mpr (hcap w), not_lt.mpr (hcap (w - 1))⟩
    simp only [slidingWindowScript, scriptArgs_period, scriptArgs_limit, readInteger, hk, hw, hcur,
      hprev, if_neg (not_lt.mpr hw0), if_neg (not_lt.mpr (hnn w)),
      if_neg (not_lt.mpr (hnn (w - 1))), if_neg hbad]
    split
    · omega
    -- the rollover: no window skipped, one, or several
    split
    · rw [windowCost_eq_zero (w := c.now / p.periodUs) hle (by omega)]
      split
      · next hone => rw [show w = c.now / (p.periodUs : Int) - 1 by omega]
      · next hmany => rw [windowCost_eq_zero hle (by omega)]
    · rw [show w = c.now / (p.periodUs : Int) by omega]

/-- **GCRA.**  The script starts from the arrival time the log builds up, or from the reading if
that is later. -/
theorem Ready.gcra_reply (halg : p.algorithm = .gcra) (hv : l.visible c = some v) :
    rateLimitScript (scriptArgs p c.cost) c.now v =
      gcraDecide (scriptArgs p c.cost) c.now v p.interval
        (max (arrival p.interval l.log) c.now) := by
  have hcap := h.inv.capped
  have hnow := h.now_nonneg
  rw [h.script_eq hv, halg]
  simp only [Capped, halg] at hcap
  rcases h.visible_cases hv with ⟨rfl, hlog⟩ | ⟨k, rfl, hexp, fields, -, hkey⟩ |
      ⟨k, rfl, -, fields, hk, hkey⟩
  · rw [hlog]
    simp only [gcraScript, readInteger, arrival, max_eq_right hnow]
    rfl
  · -- the key stays until the arrival time it holds has passed
    rw [halg] at hkey
    simp only [gcraScript, readInteger, max_eq_right (le_trans hkey.2 hexp)]
    rfl
  · rw [halg] at hkey
    obtain ⟨htat, -⟩ := hkey
    have hnn : 0 ≤ arrival p.interval l.log := by
      cases hlog : l.log with
      | nil => exact le_refl 0
      | cons e log =>
        have he := h.inv.entries e (by rw [hlog]; exact List.mem_cons_self)
        have := mul_pos he.2.2 h.bounds.interval_pos
        simp only [arrival]
        omega
    have hbad : ¬ ((scriptArgs p c.cost).maxStateTtl < arrival p.interval l.log - c.now) := by
      have := h.bounds.burst_interval_le halg
      have := h.clock_le
      simp only [scriptArgs, maxStateTtl, Duration.asMicros, Duration.fromHours]
      omega
    simp only [gcraScript, readInteger, hk, htat, if_neg (not_lt.mpr hnn), if_neg hbad]
    rfl

end

/-! ## 3. One call preserves the invariant -/

variable {l' : Limiter} {b : Bool}

/-- The limiter after a reply to what the key showed: a failure leaves the key as it was. -/
def Limiter.after (l : Limiter) (c : Call) (v : Option KeyValue) :
    Except ScriptError ScriptOutcome → Limiter
  | .ok o => ⟨o.key c.now, c.now, l.record c (o.reply.allowed = 1)⟩
  | .error _ => ⟨if v.isSome then l.key else none, c.now, l.log⟩

/-- What a call does: it is an accepted request at a reading not before the last, and the script
decided it. -/
theorem step_cases (h : (limiter p).step l c = some l') :
    (0 < c.cost ∧ c.cost ≤ p.maxCost) ∧ l.clock ≤ c.now ∧ ∃ v, l.visible c = some v ∧
      l' = l.after c v (rateLimitScript (scriptArgs p c.cost) c.now v) := by
  simp only [limiter, Limiter.step, reply] at h
  split at h
  · cases h
  rename_i r hr
  refine ⟨(RateLimitRequest.new_ok_iff.mp hr).1, ?_⟩
  split at h
  · cases h
  rename_i hclk
  refine ⟨not_lt.mp hclk, ?_⟩
  cases hv : l.visible c with
  | none => simp [hv] at h
  | some v =>
    refine ⟨v, rfl, ?_⟩
    rw [hv, map_some] at h
    cases hs : rateLimitScript (scriptArgs p c.cost) c.now v <;> rw [hs] at h <;> cases h <;> rfl

theorem forall_mem_record {P : Entry → Prop} (hnew : P ⟨c.now, c.cost⟩) (hold : ∀ e ∈ l.log, P e)
    (b : Bool) : ∀ e ∈ l.record c b, P e := by
  cases b with
  | false => exact hold
  | true => exact List.forall_mem_cons.mpr ⟨hnew, hold⟩

theorem windowCost_record {period w : Int} (b : Bool) :
    windowCost period w (l.record c b) =
      windowCost period w l.log + if b ∧ c.now / period = w then (c.cost : Int) else 0 := by
  cases b with
  | false => simp [record]
  | true =>
    by_cases hw : c.now / period = w
    · simp only [record, if_true, hw, and_self, windowCost]
      rw [costWhere_cons_pos hw]
      exact add_comm _ _
    · simp only [record, if_true, hw, and_false, if_false, add_zero, windowCost]
      exact costWhere_cons_neg hw

section

variable (h : Ready p l c)

include h

theorem Ready.record_window_le (b : Bool) :
    ∀ e ∈ l.record c b, e.at_ / p.periodUs ≤ c.now / p.periodUs := by
  refine forall_mem_record (P := fun e => e.at_ / p.periodUs ≤ _) (le_refl _) (fun e he => ?_) b
  exact Int.ediv_le_ediv h.period_pos (le_trans (h.inv.entries e he).2.1 h.clock_le)

theorem Ready.inv_of {key : Option RedisKey} (habs : key = none → l.record c b = [])
    (hkey : ∀ k, key = some k → KeyInv p k c.now (l.record c b))
    (hcap : Capped p c.now (l.record c b)) : Inv p ⟨key, c.now, l.record c b⟩ where
  clock_nonneg := h.now_nonneg
  entries := by
    refine forall_mem_record ⟨h.now_nonneg, le_refl _, Int.natCast_pos.mpr h.cost_pos⟩ ?_ b
    intro e he
    obtain ⟨h0, hle, hpos⟩ := h.inv.entries e he
    exact ⟨h0, le_trans hle h.clock_le, hpos⟩
  sorted := by
    cases b with
    | false => exact h.inv.sorted
    | true =>
      exact List.pairwise_cons.mpr
        ⟨fun e he => le_trans (h.inv.entries e he).2.1 h.clock_le, h.inv.sorted⟩
  absent := habs
  key := hkey
  capped := hcap

/-- A counter that only allows what fits keeps every window within the limit. -/
theorem Ready.capped_record (halg : p.algorithm ≠ .gcra)
    (hb : b → windowCost p.periodUs (c.now / p.periodUs) l.log + c.cost ≤ p.limit) :
    ∀ w, windowCost p.periodUs w (l.record c b) ≤ p.limit := by
  intro w
  have hcap : windowCost p.periodUs w l.log ≤ p.limit := by
    have := h.inv.capped
    cases hal : p.algorithm <;> simp only [Capped, hal] at this
    · exact this w
    · exact this w
    · exact absurd hal halg
  rw [windowCost_record]
  split
  · rename_i hw
    obtain ⟨hb', rfl⟩ := hw
    exact hb hb'
  · omega

theorem Ready.fixed_step (halg : p.algorithm = .fixedWindow)
    (hst : (limiter p).step l c = some l') : Inv p l' := by
  obtain ⟨-, -, v, hv, rfl⟩ := step_cases hst
  rw [h.fixed_reply halg hv]
  set seen := windowCost p.periodUs (c.now / p.periodUs) l.log with hseen
  have hflag : decide ((fixedWindowDecide (scriptArgs p c.cost) c.now v (c.now / p.periodUs)
      seen).reply.allowed = 1) = decide (seen + c.cost ≤ p.limit) := by
    by_cases hal : seen + c.cost ≤ p.limit <;> simp [fixedWindowDecide, scriptArgs, hal]
  rw [after, hflag]
  refine h.inv_of (by simp [ScriptOutcome.key, fixedWindowDecide]) ?_ ?_
  · intro k hk
    simp only [ScriptOutcome.key, fixedWindowDecide, scriptArgs, map_some, some.injEq] at hk
    subst hk
    refine ⟨_, rfl, ?_⟩
    simp only [halg]
    refine ⟨c.now / p.periodUs, by simp, ?_, h.window_nonneg, le_refl _, h.record_window_le _, ?_⟩
    · rw [windowCost_record, ← hseen]
      by_cases hal : seen + c.cost ≤ p.limit <;> simp [hal]
    · have := le_ttlMillis_mul ((c.now / p.periodUs + 1) * p.periodUs - c.now)
      omega
  · simp only [Capped, halg]
    exact h.capped_record (by simp [halg]) (by simp [← hseen])

theorem Ready.sliding_step (halg : p.algorithm = .slidingWindow)
    (hst : (limiter p).step l c = some l') : Inv p l' := by
  obtain ⟨-, -, v, hv, rfl⟩ := step_cases hst
  rw [h.sliding_reply halg hv]
  set cur := windowCost p.periodUs (c.now / p.periodUs) l.log with hcur
  set prev := windowCost p.periodUs (c.now / p.periodUs - 1) l.log with hprev
  set fits : Prop := cur * p.periodUs + prev * (p.periodUs - (c.now - c.now / p.periodUs *
    p.periodUs)) + c.cost * p.periodUs ≤ p.limit * p.periodUs with hfits
  have hflag : decide ((slidingWindowDecide (scriptArgs p c.cost) c.now v
      (c.now / p.periodUs) cur prev).reply.allowed = 1) = decide fits := by
    by_cases hal : fits <;> rw [hfits] at hal <;>
      simp [slidingWindowDecide, scriptArgs, hal, hfits]
  rw [after, hflag]
  refine h.inv_of (by simp [ScriptOutcome.key, slidingWindowDecide]) ?_ ?_
  · intro k hk
    simp only [ScriptOutcome.key, slidingWindowDecide, scriptArgs, map_some, some.injEq] at hk
    subst hk
    refine ⟨_, rfl, ?_⟩
    simp only [halg]
    refine ⟨c.now / p.periodUs, by simp, ?_, ?_, h.window_nonneg, le_refl _,
      h.record_window_le _, ?_⟩
    · rw [windowCost_record, ← hcur]
      by_cases hal : fits <;> rw [hfits] at hal <;> simp [hal, hfits]
    · rw [windowCost_record, ← hprev, if_neg (fun hw => by have := hw.2; omega)]
      simp
    · have := le_ttlMillis_mul (2 * p.periodUs - (c.now - c.now / p.periodUs * p.periodUs))
      have : (c.now / p.periodUs + 2) * (p.periodUs : Int)
          = c.now / p.periodUs * p.periodUs + 2 * p.periodUs := add_mul _ _ _
      omega
  · simp only [Capped, halg]
    refine h.capped_record (by simp [halg]) ?_
    intro hal
    have hfit : fits := of_decide_eq_true hal
    -- what is left of the window before is not negative
    have hprev0 : 0 ≤ prev := costWhere_nonneg h.inv.cost_pos
    have hleft : 0 ≤ (p.periodUs : Int) - (c.now - c.now / p.periodUs * p.periodUs) := by
      have := Int.emod_lt_of_pos c.now h.period_pos
      have := Int.emod_add_ediv_mul c.now p.periodUs
      omega
    have hpos := mul_nonneg hprev0 hleft
    have hmul : (cur + c.cost) * (p.periodUs : Int) ≤ p.limit * p.periodUs := by
      linarith
    exact le_of_mul_le_mul_right hmul h.period_pos

variable (halg : p.algorithm = .gcra)

include halg

/-- The three ways out of the GCRA branch, in the policy's numbers: the candidate arrival time is
further away than the horizon, within a burst of the reading, or in between. -/
theorem Ready.gcra_cases
    (hv : l.visible c = some v) {tat : Int} (htat : tat = max (arrival p.interval l.log) c.now) :
    (604800000000 < tat + c.cost * p.interval - c.now ∧
      rateLimitScript (scriptArgs p c.cost) c.now v = .error .invalidState) ∨
    (tat + c.cost * p.interval ≤ c.now + p.burst * p.interval ∧
      rateLimitScript (scriptArgs p c.cost) c.now v =
        .ok (gcraAllow (scriptArgs p c.cost) c.now v p.interval (tat + c.cost * p.interval))) ∨
    (tat + c.cost * p.interval - c.now ≤ 604800000000 ∧
      c.now + p.burst * p.interval < tat + c.cost * p.interval ∧
      rateLimitScript (scriptArgs p c.cost) c.now v =
        .ok (gcraRefuse (scriptArgs p c.cost) c.now v p.interval tat)) := by
  have httl : (scriptArgs p c.cost).maxStateTtl = 604800000000 := rfl
  have hcost : (scriptArgs p c.cost).cost = c.cost := rfl
  have hburst : (scriptArgs p c.cost).burst = p.burst := rfl
  rw [h.gcra_reply halg hv, ← htat]
  unfold gcraDecide
  rw [httl, hcost]
  by_cases hfar : 604800000000 < tat + c.cost * p.interval - c.now
  · exact .inl ⟨hfar, if_pos hfar⟩
  · rw [if_neg hfar]
    by_cases hallow : tat + c.cost * p.interval - p.burst * p.interval ≤ c.now
    · exact .inr (.inl ⟨by omega, if_pos hallow⟩)
    · exact .inr (.inr ⟨by omega, by omega, if_neg hallow⟩)

theorem Ready.gcra_cost :
    0 < (c.cost : Int) * p.interval ∧ (c.cost : Int) * p.interval ≤ p.burst * p.interval := by
  have hI := h.bounds.interval_pos
  have hle := h.cost_le
  simp only [RateLimitPolicy.maxCost, halg] at hle
  exact ⟨mul_pos (Int.natCast_pos.mpr h.cost_pos) hI,
    mul_le_mul_of_nonneg_right (by exact_mod_cast hle) (le_of_lt hI)⟩

/-- A call that finds no key starts from the reading: nothing it could ask for is refused. -/
theorem Ready.gcra_absent
    (hv : l.visible c = some none) : max (arrival p.interval l.log) c.now = c.now := by
  rcases h.visible_cases hv with ⟨-, hlog⟩ | ⟨k, -, hexp, fields, -, hkey⟩ | ⟨k, hk, -⟩
  · rw [hlog]
    exact max_eq_right h.now_nonneg
  · rw [halg] at hkey
    exact max_eq_right (le_trans hkey.2 hexp)
  · cases hk

/-- A GCRA key that is only given a new deadline, not before its arrival time, is still good. -/
theorem Ready.gcra_keep {k : RedisKey}
    (hk : l.key = some k) {deadline : Int} (hd : arrival p.interval l.log ≤ deadline) :
    KeyInv p ⟨k.value, deadline⟩ c.now (l.record c false) := by
  obtain ⟨fields, hval, hkey⟩ := h.inv.key k hk
  refine ⟨fields, hval, ?_⟩
  simp only [halg] at hkey ⊢
  exact ⟨hkey.1, hd⟩

theorem Ready.gcra_step (hst : (limiter p).step l c = some l') : Inv p l' := by
  obtain ⟨-, -, v, hv, rfl⟩ := step_cases hst
  obtain ⟨tat, htat⟩ : ∃ tat, tat = max (arrival p.interval l.log) c.now := ⟨_, rfl⟩
  have hcap := h.inv.capped
  have hclk := h.clock_le
  have hcost := h.gcra_cost halg
  have hret := h.bounds.burst_interval_le halg
  simp only [Capped, halg] at hcap
  have hcapped : Capped p c.now (l.record c false) := by
    simp only [Capped, halg]
    exact ⟨hcap.1, le_trans hcap.2 (by omega)⟩
  -- a refusal and an error both leave the stored key in place
  have hsome : c.now + p.burst * p.interval < tat + c.cost * p.interval →
      ∃ k, v = some k.value ∧ l.key = some k := by
    intro hlt
    rcases h.visible_cases hv with ⟨rfl, -⟩ | ⟨k, rfl, -⟩ | ⟨k, hk, hkey, -⟩
    · have := h.gcra_absent halg hv
      omega
    · have := h.gcra_absent halg hv
      omega
    · exact ⟨k, hk, hkey⟩
  rcases h.gcra_cases halg hv htat with ⟨hfar, hs⟩ | ⟨hallow, hs⟩ | ⟨-, hrefuse, hs⟩
  · -- an error
    obtain ⟨k, rfl, hk⟩ := hsome (by omega)
    rw [hs]
    refine h.inv_of (b := false) (by simp [hk]) ?_ hcapped
    intro k' hk'
    have hkk : k' = k := by simpa [hk] using hk'.symm
    obtain ⟨_, _, hkey⟩ := h.inv.key k hk
    simp only [halg] at hkey
    rw [hkk]
    exact h.gcra_keep halg hk hkey.2
  · -- allowed: the new arrival time is within a burst of the reading
    rw [hs]
    refine h.inv_of (b := true) (by simp [ScriptOutcome.key, gcraAllow]) ?_ ?_
    · intro k hk
      simp only [ScriptOutcome.key, gcraAllow, map_some, some.injEq] at hk
      subst hk
      refine ⟨_, rfl, ?_⟩
      simp only [halg]
      refine ⟨by simp [record, arrival, htat], ?_⟩
      have := le_ttlMillis_mul (max p.interval (tat + c.cost * p.interval - c.now))
      simp only [record, if_true, arrival, ← htat]
      omega
    · simp only [Capped, halg, record, if_true, Conforms, arrival, ← htat]
      exact ⟨⟨hallow, hcap.1⟩, hallow⟩
  · -- refused: the hash is untouched and its deadline moves to the stored arrival time
    obtain ⟨k, rfl, hk⟩ := hsome hrefuse
    rw [hs]
    refine h.inv_of (b := false) (by simp [ScriptOutcome.key, gcraRefuse]) ?_ hcapped
    intro k' hk'
    simp only [ScriptOutcome.key, gcraRefuse, map_some, some.injEq] at hk'
    subst hk'
    have := le_ttlMillis_mul (max p.interval (tat - c.now))
    exact h.gcra_keep halg hk (by omega)

end

/-- **Every call preserves the invariant.** -/
theorem inv_step (hp : p.Bounds) (hinv : Inv p l) (hst : (limiter p).step l c = some l') :
    Inv p l' := by
  obtain ⟨hcost, hclk, -⟩ := step_cases hst
  have h : Ready p l c := ⟨hp, hinv, hcost.1, hcost.2, hclk⟩
  cases halg : p.algorithm with
  | fixedWindow => exact h.fixed_step halg hst
  | slidingWindow => exact h.sliding_step halg hst
  | gcra => exact h.gcra_step halg hst

/-- **... so every state of every run has it.** -/
theorem reach_inv (hp : p.Bounds) (h : (limiter p).Reach (limiter p).start l) : Inv p l :=
  h.invariant (inv_start hp) fun _ _ _ hinv _ hst => inv_step hp hinv hst

end

end Omnius.RateLimit
