/-
# Whose completion is it

`complete` finds its row by FINGERPRINT, status and expiry.  That is not an identity: a caller
whose claim expired and was taken over by another caller with the same fingerprint still finds the
row, and its completion is accepted in the other's place (`late_completion_accepted`).

The fence holds as soon as no such late completion is made: a completion goes out only while its
own `Started` is the latest one for its fingerprint (`Fenced`).  All laws below are those of runs
of that kind; nothing is claimed of a run after a late completion.

The argument is one equation.  The row is what the current claim period says it is
(`row_eq_period`), so each call's answer is an answer about the period, and the laws are read off
call by call (`CallLaw`).
-/
import Omnius.Idempotency.Store

namespace Omnius.Idempotency

open Omnius.Lib Option Period

/-! ## 1. The row is the period -/

def Period.toRecord (p : Period) : Record :=
  match p.completion with
  | none => .claimed p.fingerprint p.expiresAt
  | some (response, completedAt) =>
    (Record.claimed p.fingerprint p.expiresAt).complete response completedAt

@[simp] theorem Period.toRecord_requestHash (p : Period) :
    p.toRecord.requestHash = p.fingerprint.bytes := by
  unfold toRecord
  split <;> rfl

@[simp] theorem Period.toRecord_expiresAt (p : Period) : p.toRecord.expiresAt = p.expiresAt := by
  unfold toRecord
  split <;> rfl

@[simp] theorem fromDigest_bytes (f : RequestFingerprint) :
    RequestFingerprint.fromDigest f.bytes = some f := by
  simp [RequestFingerprint.fromDigest, f.length_eq]

theorem SafeResponse.new_self (r : SafeResponse) :
    SafeResponse.new r.status r.contentType r.body = .ok r := by
  unfold SafeResponse.new
  split
  · rename_i e h
    rw [r.valid] at h
    cases h
  · rfl

theorem completable_iff {p : Period} {f : RequestFingerprint} {now : Nat} :
    p.toRecord.completable f now = true ↔
      p.fingerprint = f ∧ p.completion = none ∧ now < p.expiresAt := by
  have hby : p.fingerprint.bytes = f.bytes ↔ p.fingerprint = f := by
    cases p.fingerprint
    cases f
    simp
  have hstatus : p.toRecord.status = .inProgress ↔ p.completion = none := by
    unfold toRecord
    cases p.completion <;> simp [Record.claimed, Record.complete]
  simp [Record.completable, hby, hstatus, and_assoc]

theorem restoreResponse_toRecord {p : Period} {configuredMax : Nat} {r : SafeResponse}
    (h : restoreResponse p.toRecord configuredMax = .ok r) :
    ∃ completedAt, p.completion = some (r, completedAt) := by
  unfold toRecord at h
  cases hc : p.completion with
  | none =>
    rw [hc] at h
    simp [restoreResponse, Record.claimed] at h
  | some completion =>
    obtain ⟨response, completedAt⟩ := completion
    rw [hc] at h
    simp only [restoreResponse, Record.complete, SafeResponse.new_self] at h
    split at h
    · cases h
    · cases h
      exact ⟨completedAt, rfl⟩

/-! ## 2. One call -/

/-- **What one call may answer**, given the claim period before it. -/
def CallLaw (before : Option Period) : Event → Prop
  | .claimed _ fingerprint _ clock outcome =>
    -- started only where no record is live
    (outcome = .ok .started →
      ∀ p, before = some p → p.expiresAt ≤ clock.lockedAt ∧ p.expiresAt ≤ clock.reclaimedAt) ∧
    -- a live record of another fingerprint is a conflict
    (∀ p, before = some p → clock.lockedAt < p.expiresAt → p.fingerprint ≠ fingerprint →
      outcome = .error .conflict) ∧
    -- a replay is the response stored in this period
    (∀ response, outcome = .ok (.replay response) → ∃ p completedAt, before = some p ∧
      p.fingerprint = fingerprint ∧ clock.lockedAt < p.expiresAt ∧
      p.completion = some (response, completedAt))
  | .completed caller fingerprint _ clock result =>
    -- accepted from the caller that began the period, before it expired, and once
    result = .ok () → ∃ p, before = some p ∧ p.caller = caller ∧ p.fingerprint = fingerprint ∧
      clock.updatedAt < p.expiresAt ∧ p.completion = none

theorem classify_law {store : PostgresIdempotencyStore} {p : Period} {f : RequestFingerprint} :
    classify store p.toRecord f ≠ .ok .started ∧
      (p.fingerprint ≠ f → classify store p.toRecord f = .error .conflict) ∧
      ∀ r, classify store p.toRecord f = .ok (.replay r) →
        p.fingerprint = f ∧ ∃ completedAt, p.completion = some (r, completedAt) := by
  simp only [classify, toRecord_requestHash, fromDigest_bytes]
  by_cases hf : p.fingerprint = f
  · rw [if_neg fun hne => hne hf]
    cases hs : p.toRecord.status with
    | inProgress =>
      cases p.toRecord.isCleanInProgress with
      | true | false => exact ⟨by simp, fun h => absurd hf h, fun r h => by cases h⟩
    | completed =>
      cases hr : restoreResponse p.toRecord store.config.maxResponseBytes with
      | error e => exact ⟨by simp, fun h => absurd hf h, fun r h => by cases h⟩
      | ok response =>
        refine ⟨by simp, fun h => absurd hf h, fun r h => ?_⟩
        cases h
        exact ⟨hf, restoreResponse_toRecord hr⟩
  · rw [if_pos hf]
    exact ⟨by simp, fun _ => rfl, fun r h => by cases h⟩

section Steps

variable {store : PostgresIdempotencyStore} {caller : Nat} {f : RequestFingerprint}
  {past : List Event}

theorem claim_step (hen : store.config.enabled = true) {clock : ClaimClock}
    {outcome : Except IdempotencyStoreError ClaimOutcome} {row : Option Record}
    (h : claimInner store ((period past).map toRecord) f clock = (outcome, row)) :
    row = (period (.claimed caller f store.config.ttl clock outcome :: past)).map
        toRecord ∧
      CallLaw (period past) (.claimed caller f store.config.ttl clock outcome) := by
  simp only [claimInner, hen, Bool.not_true, Bool.false_eq_true, if_false] at h
  cases hp : period past with
  | none =>
    rw [hp] at h
    cases h
    refine ⟨?_, ?_, ?_, ?_⟩
    · simp [period, hp, toRecord]
    · nofun
    · nofun
    · nofun
  | some p =>
    rw [hp] at h
    simp only [map_some, toRecord_expiresAt] at h
    by_cases hexp : p.expiresAt ≤ clock.lockedAt
    · rw [if_pos hexp] at h
      split at h
      · rename_i hreclaimed
        cases h
        refine ⟨?_, ?_, ?_, ?_⟩
        · simp [period, hp, toRecord]
        · rintro - _ ⟨⟩
          exact ⟨hexp, hreclaimed⟩
        · rintro _ ⟨⟩ hlive
          exact absurd hexp (Nat.not_le.mpr hlive)
        · nofun
      · cases h
        refine ⟨by simp [period, hp], by rintro ⟨⟩, ?_, by rintro r ⟨⟩⟩
        rintro _ ⟨⟩ hlive
        exact absurd hexp (Nat.not_le.mpr hlive)
    · rw [if_neg hexp] at h
      cases h
      obtain ⟨hns, hcfl, hreplay⟩ := @classify_law store p f
      refine ⟨?_, fun hs => absurd hs hns, ?_, ?_⟩
      · -- the answer is no `Started`, so the period goes on
        generalize classify store p.toRecord f = answer at hns ⊢
        cases answer with
        | error e => simp [period, hp]
        | ok o =>
          cases o with
          | started => exact absurd rfl hns
          | replay r | inProgress => simp [period, hp]
      · rintro _ ⟨⟩ _ hf
        exact hcfl hf
      · intro r hr
        obtain ⟨hf, completedAt, hc⟩ := hreplay r hr
        exact ⟨p, completedAt, rfl, hf, Nat.not_le.mp hexp, hc⟩

/-- The period's caller is the latest one started for the period's fingerprint. -/
theorem lastStarted_of_period {p : Period} (h : period past = some p) :
    lastStarted p.fingerprint past = some p.caller := by
  induction past generalizing p with
  | nil => cases h
  | cons e past ih =>
    cases e with
    | claimed caller g ttl clock outcome =>
      match outcome with
      | .ok .started =>
        simp only [period, some.injEq] at h
        subst h
        simp [lastStarted]
      | .ok (.replay _) | .ok .inProgress | .error _ => exact ih h
    | completed caller g response clock result =>
      match result with
      | .ok () =>
        simp only [period, map_eq_some_iff] at h
        obtain ⟨q, hq, rfl⟩ := h
        exact ih (p := q) hq
      | .error e => exact ih h

/-- A completion keeps the equation and obeys the law, if its own `Started` is the latest one for
its fingerprint. -/
theorem complete_step (hen : store.config.enabled = true)
    (hlast : lastStarted f past = some caller) {response : SafeResponse} {clock : CompleteClock}
    {result : Except IdempotencyStoreError Unit} {row : Option Record}
    (h : completeInner store ((period past).map toRecord) f response clock = (result, row)) :
    row = (period (.completed caller f response clock result :: past)).map toRecord ∧
      CallLaw (period past) (.completed caller f response clock result) := by
  simp only [completeInner, hen, Bool.not_true, Bool.false_eq_true, if_false] at h
  split at h
  · cases h
    exact ⟨rfl, by rintro ⟨⟩⟩
  split at h
  · rename_i record hfilter
    cases h
    obtain ⟨hrow, hcompletable⟩ := filter_eq_some_iff.mp hfilter
    obtain ⟨p, hp, rfl⟩ := map_eq_some_iff.mp hrow
    obtain ⟨hf, hopen, hlive⟩ := completable_iff.mp hcompletable
    have hcaller : p.caller = caller := by
      have := lastStarted_of_period hp
      rw [hf, hlast] at this
      exact (Option.some.inj this).symm
    refine ⟨?_, fun _ => ⟨p, hp, hcaller, hf, hlive, hopen⟩⟩
    simp [period, hp, toRecord, hopen]
  · cases h
    exact ⟨rfl, by rintro ⟨⟩⟩

end Steps

/-! ## 3. Every run -/

/-- The condition on the calls of a run: the store is switched on, and a caller completes only
while its own `Started` is the latest one for its fingerprint. -/
def Fenced (w : World) (a : Action) : Prop :=
  a.store.config.enabled = true ∧
    match a with
    | .claim .. => True
    | .complete caller _ fingerprint _ _ => lastStarted fingerprint w.history = some caller

/-- What a run of the store keeps. -/
structure Inv (w : World) : Prop where
  row_eq_period : w.row = (period w.history).map toRecord
  calls : ∀ e past, e :: past <:+ w.history → CallLaw (period past) e

theorem Inv.act {w : World} {a : Action} (h : Inv w) (ha : Fenced w a) : Inv (w.act a) := by
  have hextend : ∀ {e : Event} {row : Option Record},
      (row = (period (e :: w.history)).map toRecord ∧ CallLaw (period w.history) e) →
      Inv ⟨row, e :: w.history⟩ := by
    rintro e row ⟨hrow, hlaw⟩
    refine ⟨hrow, fun e' past hsuffix => ?_⟩
    rcases List.suffix_cons_iff.mp hsuffix with heq | hold
    · cases heq
      exact hlaw
    · exact h.calls e' past hold
  cases a with
  | claim caller store f clock =>
    simp only [World.act]
    rw [h.row_eq_period]
    exact hextend (claim_step ha.1 rfl)
  | complete caller store f response clock =>
    simp only [World.act]
    rw [h.row_eq_period]
    exact hextend (complete_step ha.1 ha.2 rfl)

theorem inv_of_reach {w : World} (h : machine.ReachIf Fenced machine.start w) : Inv w :=
  h.invariant ⟨rfl, fun e past hs => absurd hs.length_le (by simp [machine])⟩
    fun u a v hu ha hstep => by
      cases hstep
      exact hu.act ha

/-- After an accepted completion only a new `Started` opens the period again, and the period is
then its caller's. -/
theorem started_since_completion {later past : List Event} {caller : Nat} {f : RequestFingerprint}
    {response : SafeResponse} {clock : CompleteClock} {p : Period}
    (h : period (later ++ .completed caller f response clock (.ok ()) :: past) = some p)
    (hopen : p.completion = none) :
    ∃ g ttl clock, Event.claimed p.caller g ttl clock (.ok .started) ∈ later := by
  induction later generalizing p with
  | nil =>
    simp only [List.nil_append, period, map_eq_some_iff] at h
    obtain ⟨q, -, rfl⟩ := h
    cases hopen
  | cons e later ih =>
    cases e with
    | claimed caller' g ttl clock' outcome =>
      match outcome with
      | .ok .started =>
        simp only [List.cons_append, period, some.injEq] at h
        subst h
        exact ⟨g, ttl, clock', List.mem_cons_self⟩
      | .ok (.replay _) | .ok .inProgress | .error _ =>
        obtain ⟨g', ttl', c', hmem⟩ := ih h hopen
        exact ⟨g', ttl', c', List.mem_cons_of_mem _ hmem⟩
    | completed caller' g response' clock' result =>
      match result with
      | .ok () =>
        simp only [List.cons_append, period, map_eq_some_iff] at h
        obtain ⟨q, -, rfl⟩ := h
        cases hopen
      | .error e =>
        obtain ⟨g', ttl', c', hmem⟩ := ih h hopen
        exact ⟨g', ttl', c', List.mem_cons_of_mem _ hmem⟩

/-- **The law of one identity**, over a whole history of calls. -/
structure FencingLaw (history : List Event) : Prop where
  /-- Every call answers as the claim period before it says. -/
  calls : ∀ e past, e :: past <:+ history → CallLaw (period past) e
  /-- Between two accepted completions the second caller was started: no two callers take one
  stored response for theirs. -/
  unshared : ∀ {second first : Nat} {f g r s c d} {later past : List Event},
    .completed second f r c (.ok ()) :: (later ++ .completed first g s d (.ok ()) :: past)
      <:+ history →
    ∃ g ttl clock, Event.claimed second g ttl clock (.ok .started) ∈ later

/-- **Completion is fenced to its claim** in every run whose callers complete only while their own
`Started` is the latest one for their fingerprint. -/
theorem completion_fenced {w : World} (h : machine.ReachIf Fenced machine.start w) :
    FencingLaw w.history := by
  have hcalls := (inv_of_reach h).calls
  refine ⟨hcalls, ?_⟩
  intro second first f g r s c d later past hsuffix
  obtain ⟨p, hp, hcaller, -, -, hopen⟩ := hcalls _ _ hsuffix rfl
  rw [← hcaller]
  exact started_since_completion hp hopen

/-! ## 4. Runs -/

namespace Demo

def store : PostgresIdempotencyStore := ⟨⟨true, 1000000, 16⟩, rfl⟩

def fingerprint : RequestFingerprint := ⟨List.replicate 32 7, by decide⟩

def response : SafeResponse := ⟨200, none, [1], rfl⟩

def claimAt (caller now : Nat) : Action := .claim caller store fingerprint ⟨now, now, now⟩

def completeAt (caller now : Nat) : Action :=
  .complete caller store fingerprint response ⟨now, now⟩

/-- A claim expires, another caller takes it over and completes it in time. -/
def takenOver : World :=
  ((machine.start.act (claimAt 0 0)).act (claimAt 1 2000000)).act (completeAt 1 2500000)

/-- The same, but the first caller completes, late. -/
def late : World :=
  ((machine.start.act (claimAt 0 0)).act (claimAt 1 2000000)).act (completeAt 0 2500000)

end Demo

theorem completion_fenced_taken_over :
    machine.ReachIf Fenced machine.start Demo.takenOver ∧ FencingLaw Demo.takenOver.history := by
  have hfst : machine.ReachIf Fenced machine.start (machine.start.act (Demo.claimAt 0 0)) :=
    Machine.ReachIf.refl.tail ⟨rfl, trivial⟩ rfl
  have hsec := hfst.tail (a := Demo.claimAt 1 2000000) ⟨rfl, trivial⟩ rfl
  have hre : machine.ReachIf Fenced machine.start Demo.takenOver :=
    hsec.tail (a := Demo.completeAt 1 2500000) ⟨rfl, rfl⟩ rfl
  exact ⟨hre, completion_fenced hre⟩

/-- **A late completion is accepted in another caller's period.**  Caller 0 is started, its claim
expires, caller 1 is started for the same fingerprint; caller 0 then completes and is told `Ok`,
although the record's period is caller 1's. -/
theorem late_completion_accepted :
    machine.Reach machine.start Demo.late ∧
      ∃ past, Demo.late.history =
        .completed 0 Demo.fingerprint Demo.response ⟨2500000, 2500000⟩ (.ok ()) :: past ∧
      (period past).map caller = some 1 := by
  have hre : machine.Reach machine.start Demo.late :=
    Machine.reach_of_run [Demo.claimAt 0 0, Demo.claimAt 1 2000000, Demo.completeAt 0 2500000] rfl
  exact ⟨hre, _, rfl, by decide⟩

end Omnius.Idempotency
