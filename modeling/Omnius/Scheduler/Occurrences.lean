/-
# Each occurrence at most once, and catch-up without a gap

What protects the cursor is the conjunction of revision, cursor and token, and the token is not
even needed for it: under one revision a materialisation MOVES THE CURSOR FORWARD, so the claim it
used, and every other claim made at that cursor, is spent.  A control call changes the revision, so
every claim made before it is spent as well.

Every instant ever materialised is below the cursor and not after the clock.  That is what makes
the cursor safe to move: a materialisation emits instants from the cursor on, and a resume or an
update puts the cursor after the clock.  An update may still move it BACKWARDS, from an instant far
ahead to a nearer one of the new definition.
-/
import Omnius.Scheduler.Repository

namespace Omnius.Scheduler

open Omnius.Lib List Option

variable {cron : Cron} {plan : OccurrencePlan} {a : Action} {due : DueSchedule}

/-! ## 1. The plan of one claim -/

variable {found cursor remaining next : Nat} {definition : ScheduleDefinition}

theorem nextOccurrence_eq_ok {after : Nat} :
    nextOccurrence definition after = .ok found
      ↔ definition.cron.findNextOccurrence after = some found := by
  unfold nextOccurrence
  cases definition.cron.findNextOccurrence after <;> simp

/-- `cursor` is the first firing instant after some instant that is not after `now`. -/
def Cron.FirstAfter (cron : Cron) (now cursor : Nat) : Prop :=
  ∃ s ≤ now, cron.findNextOccurrence s = some cursor

variable {now : Nat}

theorem Cron.FirstAfter.mono {later : Nat} (h : cron.FirstAfter now cursor) (hle : now ≤ later) :
    cron.FirstAfter later cursor := by
  obtain ⟨s, hs, hfind⟩ := h
  exact ⟨s, hs.trans hle, hfind⟩

section

variable (hexact : cron.Exact) (h : cron.FirstAfter now cursor)

include hexact h

theorem Cron.FirstAfter.fires : cron.fires cursor := by
  obtain ⟨s, -, hs⟩ := h
  exact (hexact s cursor hs).1.2

theorem Cron.FirstAfter.le_next
    (hfd : cron.findNextOccurrence now = some found) : cursor ≤ found := by
  obtain ⟨s, hs, hfind⟩ := h
  have hnext := (hexact now found hfd).1
  exact (hexact s cursor hfind).2 ⟨lt_of_le_of_lt hs hnext.1, hnext.2⟩

end

/-- `runs` are the firing instants from `start` up to `cursor`, each once and in order. -/
def Cron.AllSince (cron : Cron) (start cursor : Nat) (runs : List Nat) : Prop :=
  runs.Pairwise (· < ·) ∧ ∀ t, t ∈ runs ↔ cron.fires t ∧ start ≤ t ∧ t < cursor

theorem Cron.AllSince.nil {start : Nat} : cron.AllSince start start [] := by
  refine ⟨.nil, ?_⟩
  intro t
  simp only [not_mem_nil, false_iff]
  omega

theorem Cron.AllSince.append {start : Nat} {runs more : List Nat}
    (h : cron.AllSince start cursor runs) (hmore : cron.AllSince cursor next more)
    (hstt : start ≤ cursor) (hadvances : cursor < next) :
    cron.AllSince start next (runs ++ more) := by
  refine ⟨pairwise_append.mpr ⟨h.1, hmore.1, ?_⟩, ?_⟩
  · intro t ht u hu
    exact lt_of_lt_of_le ((h.2 t).mp ht).2.2 ((hmore.2 u).mp hu).2.1
  · intro t
    rw [mem_append, h.2, hmore.2]
    constructor
    · rintro (⟨hf, hge, hlt⟩ | ⟨hf, hge, hlt⟩)
      · exact ⟨hf, hge, by omega⟩
      · exact ⟨hf, by omega, hlt⟩
    · rintro ⟨hf, hge, hlt⟩
      rcases Nat.lt_or_ge t cursor with hbl | habove
      · exact .inl ⟨hf, hge, hbl⟩
      · exact .inr ⟨hf, habove, hlt⟩

/-- What the plan for a cursor claimed at `now` holds. -/
structure PlanLaw (definition : ScheduleDefinition) (cursor now : Nat) (plan : OccurrencePlan) :
    Prop where
  bounded : plan.occurrences.length ≤ definition.misfirePolicy.limit
  due : ∀ t ∈ plan.occurrences, cursor ≤ t ∧ t ≤ now ∧ t < plan.nextRunAt
  sorted : plan.occurrences.Pairwise (· < ·)
  advances : cursor < plan.nextRunAt
  first : definition.cron.FirstAfter now plan.nextRunAt
  complete : ∀ maxRuns, definition.misfirePolicy = .catchUp maxRuns →
    ∀ t, t ∈ plan.occurrences ↔ definition.cron.fires t ∧ cursor ≤ t ∧ t < plan.nextRunAt

/-- What the catch-up loop has done when it stops. -/
structure CatchUpLaw (cron : Cron) (now remaining next : Nat) (plan : OccurrencePlan) : Prop where
  bounded : plan.occurrences.length ≤ remaining
  due : ∀ t ∈ plan.occurrences, t ≤ now
  sorted : plan.occurrences.Pairwise (· < ·)
  le : next ≤ plan.nextRunAt
  advances : 0 < remaining → next ≤ now → next < plan.nextRunAt
  first : cron.FirstAfter now plan.nextRunAt
  complete : ∀ t, t ∈ plan.occurrences ↔ cron.fires t ∧ next ≤ t ∧ t < plan.nextRunAt

theorem CatchUpLaw.stop (hfst : cron.FirstAfter now next)
    (hstop : remaining = 0 ∨ now < next) : CatchUpLaw cron now remaining next ⟨[], next⟩ where
  bounded := Nat.zero_le _
  due := by simp
  sorted := .nil
  le := le_rfl
  advances := by omega
  first := hfst
  complete := by
    intro t
    simp only [not_mem_nil, false_iff]
    omega

theorem CatchUpLaw.turn {following : Nat} {rest : OccurrencePlan} (hexact : cron.Exact)
    (hnow : next ≤ now) (hfires : cron.fires next)
    (hfind : cron.findNextOccurrence next = some following)
    (h : CatchUpLaw cron now remaining following rest) :
    CatchUpLaw cron now (remaining + 1) next ⟨next :: rest.occurrences, rest.nextRunAt⟩ := by
  have hleast := hexact next following hfind
  have hlt : next < following := hleast.1.1
  have hle := h.le
  refine ⟨?_, ?_, ?_, ?_, ?_, h.first, ?_⟩
  · exact Nat.succ_le_succ h.bounded
  · exact forall_mem_cons.mpr ⟨hnow, h.due⟩
  · refine pairwise_cons.mpr ⟨?_, h.sorted⟩
    intro t ht
    exact lt_of_lt_of_le hlt ((h.complete t).mp ht).2.1
  · exact hlt.le.trans hle
  · intro _ _
    exact lt_of_lt_of_le hlt hle
  · intro t
    constructor
    · intro ht
      rcases mem_cons.mp ht with rfl | ht
      · exact ⟨hfires, le_rfl, lt_of_lt_of_le hlt hle⟩
      · obtain ⟨hf, hge, hbl⟩ := (h.complete t).mp ht
        exact ⟨hf, hlt.le.trans hge, hbl⟩
    · rintro ⟨hf, hge, hbl⟩
      rcases eq_or_lt_of_le hge with rfl | hgt
      · exact mem_cons_self
      -- no firing instant lies strictly between `next` and `following`
      · have hflw : following ≤ t := hleast.2 ⟨hgt, hf⟩
        exact mem_cons_of_mem _ ((h.complete t).mpr ⟨hf, hflw, hbl⟩)

/-- The loop, by induction on the occurrences it may still emit. -/
theorem catchUpFrom_law (hexact : definition.cron.Exact) (remaining : Nat) :
    ∀ {next : Nat} {plan : OccurrencePlan}, definition.cron.FirstAfter now next →
      catchUpFrom definition now remaining next = .ok plan →
      CatchUpLaw definition.cron now remaining next plan := by
  induction remaining with
  | zero =>
    intro next plan hfst h
    cases h
    exact .stop hfst (.inl rfl)
  | succ remaining ih =>
    intro next plan hfst h
    unfold catchUpFrom at h
    split at h
    next hnow =>
      obtain ⟨following, hflw, h⟩ := bind_eq_ok.mp h
      obtain ⟨rest, hrest, h⟩ := bind_eq_ok.mp h
      cases h
      have hfind := nextOccurrence_eq_ok.mp hflw
      exact .turn hexact hnow (hfst.fires hexact) hfind (ih ⟨next, hnow, hfind⟩ hrest)
    next hnow =>
      cases h
      exact .stop hfst (.inr (Nat.lt_of_not_le hnow))

/-- **The plan of a claim.** -/
theorem evaluateOccurrences_law (hexact : definition.cron.Exact)
    (hfst : definition.cron.FirstAfter now cursor)
    (h : evaluateOccurrences definition cursor now = .ok plan) :
    PlanLaw definition cursor now plan := by
  unfold evaluateOccurrences at h
  split at h
  · cases h
  next hdue =>
  have hcrs : cursor ≤ now := Nat.le_of_not_lt hdue
  have hbl {found} (hfd : nextOccurrence definition now = .ok found) : cursor < found :=
    lt_of_le_of_lt hcrs (hexact now found (nextOccurrence_eq_ok.mp hfd)).1.1
  split at h
  next hpol =>
    obtain ⟨found, hfd, h⟩ := bind_eq_ok.mp h
    cases h
    exact ⟨Nat.zero_le _, by simp, .nil, hbl hfd, ⟨now, le_rfl, nextOccurrence_eq_ok.mp hfd⟩,
      by simp [hpol]⟩
  next hpol =>
    obtain ⟨found, hfd, h⟩ := bind_eq_ok.mp h
    cases h
    exact ⟨by simp [hpol, MisfirePolicy.limit], by simpa using ⟨hcrs, hbl hfd⟩,
      pairwise_singleton _ _, hbl hfd, ⟨now, le_rfl, nextOccurrence_eq_ok.mp hfd⟩,
      by simp [hpol]⟩
  next maxRuns hpol =>
    have hlaw := catchUpFrom_law hexact maxRuns.val hfst h
    refine ⟨by simpa [hpol, MisfirePolicy.limit] using hlaw.bounded, ?_, hlaw.sorted,
      hlaw.advances maxRuns.2.1 hcrs, hlaw.first, fun _ _ => hlaw.complete⟩
    intro t ht
    have hmem := (hlaw.complete t).mp ht
    exact ⟨hmem.2.1, hlaw.due t ht, hmem.2.2⟩

/-- What the two policies that do not catch up make of the gap from the cursor to `now`. -/
structure GapLaw (definition : ScheduleDefinition) (cursor now : Nat) (plan : OccurrencePlan) :
    Prop where
  skip : definition.misfirePolicy = .skip → plan.occurrences = []
  fireOnce : definition.misfirePolicy = .fireOnce → plan.occurrences = [cursor]
  passed : (∀ maxRuns, definition.misfirePolicy ≠ .catchUp maxRuns) →
    IsLeast {t | now < t ∧ definition.cron.fires t} plan.nextRunAt

theorem evaluateOccurrences_gap (hexact : definition.cron.Exact)
    (h : evaluateOccurrences definition cursor now = .ok plan) :
    GapLaw definition cursor now plan := by
  unfold evaluateOccurrences at h
  split at h
  · cases h
  cases hpol : definition.misfirePolicy with
  | catchUp maxRuns =>
    exact ⟨by simp [hpol], by simp [hpol], fun hnot => absurd hpol (hnot maxRuns)⟩
  | skip | fireOnce =>
    rw [hpol] at h
    obtain ⟨found, hfd, h⟩ := bind_eq_ok.mp h
    cases h
    have hleast := hexact now found (nextOccurrence_eq_ok.mp hfd)
    exact ⟨by simp [hpol], by simp [hpol], fun _ => hleast⟩

/-- When no other instant was due, every policy but `skip` emits all that was. -/
theorem PlanLaw.allSince (hlaw : PlanLaw definition cursor now plan)
    (hexact : definition.cron.Exact) (h : evaluateOccurrences definition cursor now = .ok plan)
    (hfires : definition.cron.fires cursor) (hpol : definition.misfirePolicy ≠ .skip)
    (hontime : ∀ t, cursor < t → t ≤ now → ¬ definition.cron.fires t) :
    definition.cron.AllSince cursor plan.nextRunAt plan.occurrences := by
  refine ⟨hlaw.sorted, ?_⟩
  have hgap := evaluateOccurrences_gap hexact h
  cases hcase : definition.misfirePolicy with
  | skip => exact absurd hcase hpol
  | catchUp maxRuns => exact hlaw.complete maxRuns hcase
  | fireOnce =>
    intro t
    rw [hgap.fireOnce hcase, mem_singleton]
    constructor
    · rintro rfl
      exact ⟨hfires, le_rfl, hlaw.advances⟩
    · rintro ⟨hf, hge, hlt⟩
      by_contra hne
      have hcrs : cursor < t := lt_of_le_of_ne hge (Ne.symm hne)
      -- a firing instant after the claim is not below the new cursor
      have hnow : now < t := Nat.lt_of_not_le fun hle => hontime t hcrs hle hf
      have hle := (hgap.passed (by simp [hcase])).2 ⟨hnow, hf⟩
      omega

/-! ## 2. What a call can do -/

theorem prepare_scheduledFor {factory : EnvelopeFactory} (occurrences : List Nat) :
    ∀ {jobIds : List Nat} {prepared : List ScheduledRun},
      prepare factory jobIds occurrences = .ok prepared →
      prepared.map (·.scheduledFor) = occurrences := by
  induction occurrences with
  | nil =>
    intro jobIds prepared h
    cases h
    rfl
  | cons scheduledFor rest ih =>
    intro jobIds prepared h
    unfold prepare at h
    split at h
    · cases h
    split at h
    · cases h
    obtain ⟨tail, htail, h⟩ := bind_eq_ok.mp h
    cases h
    simp [ih htail]

theorem insertRuns_eq (prepared : List ScheduledRun) :
    ∀ {runs inserted : List ScheduledRun}, insertRuns runs prepared = .ok inserted →
      inserted = runs ++ prepared := by
  induction prepared with
  | nil =>
    intro runs inserted h
    cases h
    simp
  | cons run rest ih =>
    intro runs inserted h
    obtain ⟨first, hfst, h⟩ := bind_eq_ok.mp h
    have hrun : first = runs ++ [run] := by
      unfold insertRun at hfst
      split at hfst
      · cases hfst
      split at hfst
      · cases hfst
      split at hfst
      · cases hfst
      · cases hfst
        rfl
    rw [ih h, hrun, append_assoc, singleton_append]

/-- The effects a call can have: none but the clock's, a lease, a materialisation, a pause, or a
restart of the cursor after the clock. -/
inductive Effect (w : World) (a : Action) : World → Prop
  | idle (now : Nat) (hclock : w.clock ≤ now) : Effect w a { w with clock := now }
  | claimed (token now : Nat) (hclock : w.clock ≤ now) (hdue : w.row.isDue now = true) :
      Effect w a { w with
        row := { w.row with
          leaseToken := some token
          leaseExpiresAt := some (now + w.row.definition.schedulerLeaseMicros) }
        clock := now
        claims := w.claims ++ [⟨w.row.definition, w.row.revision, w.row.nextRunAt, token, now⟩]
        history := .claimed w.claims.length :: w.history }
  | materialized (index : Nat) (due : DueSchedule) (plan : OccurrencePlan)
      (added : List ScheduledRun) (hclaim : w.claims[index]? = some due)
      (hplan : evaluateOccurrences due.definition due.nextRunAt due.claimedAt = .ok plan)
      (howned : w.row.ownedBy due = true)
      (hadded : added.map (·.scheduledFor) = plan.occurrences) :
      Effect w a { w with
        row := { w.row with
          nextRunAt := plan.nextRunAt, leaseToken := none, leaseExpiresAt := none }
        runs := w.runs ++ added
        history := .materialized index plan.occurrences :: w.history }
  | paused (now : Nat) (hclock : w.clock ≤ now) :
      Effect w a { w with
        row := { w.row with
          paused := true, revision := w.row.revision + 1, leaseToken := none
          leaseExpiresAt := none }
        clock := now
        history := .revised w.row.nextRunAt :: w.history }
  | restarted (now : Nat) (row : Schedule) (hclock : w.clock ≤ now)
      (hrevision : row.revision = w.row.revision + 1)
      (hnext : row.definition.cron.findNextOccurrence now = some row.nextRunAt)
      (hsame : a.isUpdate = false → row.definition = w.row.definition)
      (hexact : a.Exact → w.row.definition.cron.Exact → row.definition.cron.Exact) :
      Effect w a { w with row, clock := now, history := .revised row.nextRunAt :: w.history }

variable {index : Nat} {w' : World} {w : World}

theorem materialize_effect (hclm : w.claims[index]? = some due)
    (factory : EnvelopeFactory) : Effect w a (w.materialize index due factory) := by
  unfold World.materialize
  split
  · exact .idle w.clock le_rfl
  next row runs plan h =>
  obtain ⟨evaluated, hplan, h⟩ := bind_eq_ok.mp h
  obtain ⟨prepared, hprepared, h⟩ := bind_eq_ok.mp h
  split at h
  · cases h
  next howned =>
  obtain ⟨inserted, hins, h⟩ := bind_eq_ok.mp h
  cases h
  rw [insertRuns_eq prepared hins]
  exact .materialized index due _ prepared hclm hplan (by simpa using howned)
    (prepare_scheduledFor _ hprepared)

theorem setPaused_effect {expected : Nat} (paused : Bool) (hclock : w.clock ≤ now) :
    Effect w a (w.revise now (setPaused w.row expected paused now)) := by
  cases h : setPaused w.row expected paused now with
  | error e => exact .idle now hclock
  | ok row =>
    unfold setPaused at h
    split at h
    · cases h
    obtain ⟨nextRunAt, hnext, h⟩ := bind_eq_ok.mp h
    cases h
    cases paused with
    | true =>
      cases hnext
      exact .paused now hclock
    | false =>
      exact .restarted now _ hclock rfl (nextOccurrence_eq_ok.mp hnext) (fun _ => rfl) fun _ => id

theorem next_effect (h : w.next a = some w') : Effect w a w' := by
  cases a with
  | claim token now =>
    simp only [World.next, ite_none_right_eq_some, some.injEq] at h
    obtain ⟨hclock, rfl⟩ := h
    unfold World.claim claimDueSchedules
    cases hdue : w.row.isDue now with
    | true => exact .claimed token now hclock hdue
    | false => exact .idle now hclock
  | materialize index factory =>
    simp only [World.next, map_eq_some_iff] at h
    obtain ⟨due, hclm, rfl⟩ := h
    exact materialize_effect hclm factory
  | pause expected now =>
    simp only [World.next, ite_none_right_eq_some, some.injEq] at h
    obtain ⟨hclock, rfl⟩ := h
    exact setPaused_effect true hclock
  | resume expected now =>
    simp only [World.next, ite_none_right_eq_some, some.injEq] at h
    obtain ⟨hclock, rfl⟩ := h
    exact setPaused_effect false hclock
  | update expected definition now =>
    simp only [World.next, ite_none_right_eq_some, some.injEq] at h
    obtain ⟨hclock, rfl⟩ := h
    cases hrow : updateSchedule w.row expected definition now with
    | error e => exact .idle now hclock
    | ok row =>
      unfold updateSchedule at hrow
      split at hrow
      · cases hrow
      obtain ⟨nextRunAt, hnext, hrow⟩ := bind_eq_ok.mp hrow
      cases hrow
      exact .restarted now _ hclock rfl (nextOccurrence_eq_ok.mp hnext) nofun fun hexact _ => hexact

/-! ## 3. The invariant -/

/-- Nothing but claims and materialisations happened since the claim. -/
def ClaimedSince (history : List Event) (index : Nat) : Prop :=
  ∃ since before, history = since ++ .claimed index :: before ∧ ∀ e ∈ since, e.isRevision = false

variable {history : List Event} {e : Event} {claims : List DueSchedule} {occurrences : List Nat}
  {added : List ScheduledRun}

theorem ClaimedSince.cons (h : ClaimedSince history index) (he : e.isRevision = false) :
    ClaimedSince (e :: history) index := by
  obtain ⟨since, before, rfl, hsince⟩ := h
  exact ⟨e :: since, before, rfl, forall_mem_cons.mpr ⟨he, hsince⟩⟩

/-- What is known of a claim that was given out, whatever happened since. -/
structure ClaimInv (w : World) (index : Nat) (due : DueSchedule) : Prop where
  clock : due.claimedAt ≤ w.clock
  was_due : due.nextRunAt ≤ due.claimedAt
  revision : due.revision ≤ w.row.revision
  current : due.revision = w.row.revision →
    due.definition = w.row.definition ∧ ClaimedSince w.history index

/-- A materialisation in the history used a claim made under the same revision, and emitted no
more instants than its policy allows, none of them after the claiming clock. -/
def Fenced (claims : List DueSchedule) (past : List Event) (index : Nat) (occurrences : List Nat) :
    Prop :=
  ∃ due, claims[index]? = some due ∧ ClaimedSince past index ∧
    occurrences.length ≤ due.definition.misfirePolicy.limit ∧
    ∀ t ∈ occurrences, t ≤ due.claimedAt

/-- **What holds of the schedule at any time.** -/
structure SchedulerLaw (w : World) : Prop where
  /-- The runs stand in the order of their instants, so no instant occurs twice. -/
  once : w.runs.Pairwise fun earlier later => earlier.scheduledFor < later.scheduledFor
  /-- The last of them are the instants materialised since the last control call. -/
  recorded : revisionRuns w.history <:+ w.runs.map (·.scheduledFor)
  /-- Every materialisation is fenced to its claim. -/
  fenced : ∀ since index occurrences past,
    w.history = since ++ .materialized index occurrences :: past →
    Fenced w.claims past index occurrences
  /-- Under a catch-up policy the instants materialised since the last control call are ALL the
  firing instants from the starting cursor up to the cursor, in order. -/
  caught_up : ∀ maxRuns, w.row.definition.misfirePolicy = .catchUp maxRuns →
    (revisionRuns w.history).Pairwise (· < ·) ∧
    ∀ t, t ∈ revisionRuns w.history ↔
      w.row.definition.cron.fires t ∧ startingCursor w.history ≤ t ∧ t < w.row.nextRunAt

/-- The invariant: the law, and what carries it from step to step. -/
structure Inv (w : World) : Prop where
  law : SchedulerLaw w
  exact : w.row.definition.cron.Exact
  past : ∀ run ∈ w.runs, run.scheduledFor < w.row.nextRunAt ∧ run.scheduledFor ≤ w.clock
  first : w.row.definition.cron.FirstAfter w.clock w.row.nextRunAt
  start_le : startingCursor w.history ≤ w.row.nextRunAt
  claims : ∀ index due, w.claims[index]? = some due → ClaimInv w index due

theorem Fenced.mono {more : List DueSchedule} {past : List Event}
    (h : Fenced claims past index occurrences) :
    Fenced (claims ++ more) past index occurrences := by
  obtain ⟨due, hclm, hrest⟩ := h
  have hlt : index < claims.length := (List.getElem?_eq_some_iff.mp hclm).1
  exact ⟨due, (List.getElem?_append_left hlt).trans hclm, hrest⟩

theorem fenced_cons (h : ∀ since index occurrences past,
      history = since ++ .materialized index occurrences :: past →
      Fenced claims past index occurrences)
    (he : ∀ index occurrences, e = .materialized index occurrences →
      Fenced claims history index occurrences) :
    ∀ since index occurrences past,
      e :: history = since ++ .materialized index occurrences :: past →
      Fenced claims past index occurrences := by
  intro since index occurrences past heq
  cases since with
  | nil =>
    obtain ⟨rfl, rfl⟩ := cons_eq_cons.mp heq
    exact he index occurrences rfl
  | cons first since => exact h since index occurrences past (cons_eq_cons.mp heq).2

theorem Inv.idle (h : Inv w) (hclock : w.clock ≤ now) :
    Inv { w with clock := now } where
  __ := h
  law := { h.law with }
  past run hrun := ⟨(h.past run hrun).1, (h.past run hrun).2.trans hclock⟩
  first := h.first.mono hclock
  claims index due hdue :=
    let hclm := h.claims index due hdue
    { hclm with clock := hclm.clock.trans hclock }

theorem Inv.claimed (h : Inv w) {token : Nat} (hclock : w.clock ≤ now)
    (hdue : w.row.isDue now = true) :
    Inv { w with
      row := { w.row with
        leaseToken := some token
        leaseExpiresAt := some (now + w.row.definition.schedulerLeaseMicros) }
      clock := now
      claims := w.claims ++ [⟨w.row.definition, w.row.revision, w.row.nextRunAt, token, now⟩]
      history := .claimed w.claims.length :: w.history } := by
  refine ⟨{ h.law with fenced := ?_ }, h.exact, ?_, h.first.mono hclock, h.start_le, ?_⟩
  · refine fenced_cons ?_ (by simp)
    intro since index occurrences past heq
    exact (h.law.fenced since index occurrences past heq).mono
  · intro run hrun
    exact ⟨(h.past run hrun).1, (h.past run hrun).2.trans hclock⟩
  · intro index due hget
    rcases Rows.getElem?_concat_eq_some.mp hget with hget | ⟨rfl, rfl⟩
    · obtain ⟨hclk, hwas, hrev, hcur⟩ := h.claims index due hget
      refine ⟨hclk.trans hclock, hwas, hrev, ?_⟩
      intro hrvn
      exact ⟨(hcur hrvn).1, (hcur hrvn).2.cons rfl⟩
    · -- the claim just given out
      have hle : w.row.nextRunAt ≤ now := by
        simp only [Schedule.isDue, Bool.and_eq_true, decide_eq_true_eq] at hdue
        exact hdue.1.2
      exact ⟨le_rfl, hle, le_rfl, fun _ => ⟨rfl, [], w.history, rfl, by simp⟩⟩

variable {row : Schedule}

theorem ownedBy_eq_true {claim : DueSchedule} (h : row.ownedBy claim = true) :
    row.revision = claim.revision ∧ row.nextRunAt = claim.nextRunAt := by
  simp only [Schedule.ownedBy, Bool.and_eq_true, decide_eq_true_eq] at h
  exact h.1

/-- What a claim that still owns the row is good for: its plan begins at the row's cursor. -/
theorem Inv.plan_law (h : Inv w) (hclm : w.claims[index]? = some due)
    (hplan : evaluateOccurrences due.definition due.nextRunAt due.claimedAt = .ok plan)
    (howned : w.row.ownedBy due = true) :
    due.definition = w.row.definition ∧ ClaimedSince w.history index ∧
      PlanLaw w.row.definition w.row.nextRunAt due.claimedAt plan := by
  obtain ⟨-, hwas, -, hcur⟩ := h.claims index due hclm
  obtain ⟨hrvn, hcrs⟩ := ownedBy_eq_true howned
  obtain ⟨hdef, hsince⟩ := hcur hrvn.symm
  rw [hdef, ← hcrs] at hplan
  refine ⟨hdef, hsince, evaluateOccurrences_law h.exact ?_ hplan⟩
  -- the cursor was found from an instant below it, so before the claiming clock
  obtain ⟨s, -, hs⟩ := h.first
  have hbl := (h.exact s _ hs).1.1
  exact ⟨s, by omega, hs⟩

theorem once_append (h : Inv w) (hadd : added.map (·.scheduledFor) = occurrences)
    (hsrt : occurrences.Pairwise (· < ·)) (hfrom : ∀ t ∈ occurrences, w.row.nextRunAt ≤ t) :
    (w.runs ++ added).Pairwise fun earlier later => earlier.scheduledFor < later.scheduledFor := by
  refine pairwise_append.mpr ⟨h.law.once, ?_, ?_⟩
  · rw [← hadd, pairwise_map] at hsrt
    exact hsrt
  · intro run hrun later hlat
    have hmem : later.scheduledFor ∈ occurrences := hadd ▸ mem_map_of_mem hlat
    exact lt_of_lt_of_le (h.past run hrun).1 (hfrom _ hmem)

theorem Inv.materialized (h : Inv w) (hclm : w.claims[index]? = some due)
    (hplan : evaluateOccurrences due.definition due.nextRunAt due.claimedAt = .ok plan)
    (howned : w.row.ownedBy due = true) (hadd : added.map (·.scheduledFor) = plan.occurrences) :
    Inv { w with
      row := { w.row with nextRunAt := plan.nextRunAt, leaseToken := none, leaseExpiresAt := none }
      runs := w.runs ++ added
      history := .materialized index plan.occurrences :: w.history } := by
  have hclk := (h.claims index due hclm).clock
  obtain ⟨hdef, hsince, hlaw⟩ := h.plan_law hclm hplan howned
  refine ⟨⟨?_, ?_, ?_, ?_⟩, h.exact, ?_, ?_, ?_, ?_⟩
  · exact once_append h hadd hlaw.sorted fun t ht => (hlaw.due t ht).1
  · obtain ⟨earlier, heq⟩ := h.law.recorded
    exact ⟨earlier, by rw [map_append, hadd, ← heq, append_assoc]; rfl⟩
  · refine fenced_cons h.law.fenced ?_
    intro index' occurrences heq
    obtain ⟨rfl, rfl⟩ := Event.materialized.inj heq
    exact ⟨due, hclm, hsince, hdef ▸ hlaw.bounded, fun t ht => (hlaw.due t ht).2.1⟩
  · intro maxRuns hpol
    exact Cron.AllSince.append (h.law.caught_up maxRuns hpol)
      ⟨hlaw.sorted, hlaw.complete maxRuns hpol⟩ h.start_le hlaw.advances
  · intro run hrun
    have hadvances := hlaw.advances
    rcases mem_append.mp hrun with hold | hnew
    · obtain ⟨hbl, hbef⟩ := h.past run hold
      exact ⟨show run.scheduledFor < plan.nextRunAt by omega, hbef⟩
    · have hmem : run.scheduledFor ∈ plan.occurrences := hadd ▸ mem_map_of_mem hnew
      obtain ⟨-, hbef, hbl⟩ := hlaw.due _ hmem
      exact ⟨hbl, hbef.trans hclk⟩
  · exact hlaw.first.mono hclk
  · have hadvances := hlaw.advances
    have hstt := h.start_le
    change startingCursor w.history ≤ plan.nextRunAt
    omega
  · intro index' due' hget
    obtain ⟨hclk', hwas', hrev', hcur'⟩ := h.claims index' due' hget
    exact ⟨hclk', hwas', hrev', fun heq => ⟨(hcur' heq).1, (hcur' heq).2.cons rfl⟩⟩

/-- A control call begins a revision: all claims are spent, and nothing is materialised yet. -/
theorem Inv.revised (h : Inv w) (hclock : w.clock ≤ now) (hrvn : row.revision = w.row.revision + 1)
    (hexact : row.definition.cron.Exact)
    (hfst : row.definition.cron.FirstAfter now row.nextRunAt)
    (hpast : ∀ run ∈ w.runs, run.scheduledFor < row.nextRunAt) :
    Inv { w with row, clock := now, history := .revised row.nextRunAt :: w.history } := by
  refine ⟨⟨h.law.once, nil_suffix, fenced_cons h.law.fenced (by simp), ?_⟩, hexact, ?_, hfst,
    le_rfl, ?_⟩
  · intro maxRuns _
    exact Cron.AllSince.nil
  · intro run hrun
    exact ⟨hpast run hrun, (h.past run hrun).2.trans hclock⟩
  · intro index due hget
    obtain ⟨hclk, hwas, hrev, -⟩ := h.claims index due hget
    refine ⟨hclk.trans hclock, hwas, ?_, ?_⟩
    · change due.revision ≤ row.revision
      omega
    · intro heq
      change due.revision = row.revision at heq
      omega

theorem Inv.effect (h : Inv w) (ha : a.Exact) (heff : Effect w a w') : Inv w' := by
  cases heff with
  | idle now hclock => exact h.idle hclock
  | claimed token now hclock hdue => exact h.claimed hclock hdue
  | materialized index due plan added hclm hplan howned hadd =>
    exact h.materialized hclm hplan howned hadd
  | paused now hclock =>
    exact h.revised hclock rfl h.exact (h.first.mono hclock) fun run hrun => (h.past run hrun).1
  | restarted now row hclock hrvn hnext hsame hexact =>
    refine h.revised hclock hrvn (hexact ha h.exact) ⟨now, le_rfl, hnext⟩ ?_
    -- everything materialised is not after the clock, and the new cursor is
    intro run hrun
    have haft := (hexact ha h.exact now _ hnext).1.1
    have hbef := (h.past run hrun).2
    omega

theorem Inv.created (hexact : definition.cron.Exact)
    (h : createSchedule definition now = .ok row) : Inv (.created row now) := by
  obtain ⟨nextRunAt, hnext, h⟩ := bind_eq_ok.mp h
  cases h
  have hfind := nextOccurrence_eq_ok.mp hnext
  refine ⟨⟨.nil, nil_suffix, ?_, ?_⟩, hexact, by simp [World.created], ⟨now, le_rfl, hfind⟩,
    le_rfl, by simp [World.created]⟩
  · intro since index occurrences past heq
    cases since <;> simp [World.created] at heq
  · intro maxRuns _
    exact Cron.AllSince.nil

theorem Effect.cursor_le (h : Inv w) (heff : Effect w a w')
    (hupd : a.isUpdate = false) : w.row.nextRunAt ≤ w'.row.nextRunAt := by
  cases heff with
  | idle now hclock | claimed token now hclock hdue | paused now hclock => exact le_rfl
  | materialized index due plan added hclm hplan howned hadd =>
    exact (h.plan_law hclm hplan howned).2.2.advances.le
  | restarted now row hclock hrvn hnext hsame hexact =>
    rw [hsame hupd] at hnext
    exact (h.first.mono hclock).le_next h.exact hnext

/-! ## 4. Every interleaving -/

section Runs

variable {definition : ScheduleDefinition} {now : Nat} {row : Schedule} {w : World}

theorem inv_of_reach (hexact : definition.cron.Exact)
    (hcreate : createSchedule definition now = .ok row)
    (hw : (machine row now).ReachIf (fun _ a => a.Exact) (machine row now).start w) : Inv w :=
  hw.invariant (Inv.created hexact hcreate)
    fun _ _ _ hu ha hstep => hu.effect ha (next_effect hstep)

theorem Action.exact_of_not_update (h : a.isUpdate = false) : a.Exact := by
  cases a with
  | update => cases h
  | _ => trivial

variable {v : World}

theorem cursor_le_of_reachIf {u : World} (hu : Inv u)
    (h : (machine row now).ReachIf (fun _ a => a.isUpdate = false) u v) :
    u.row.nextRunAt ≤ v.row.nextRunAt := by
  have hboth : Inv v ∧ u.row.nextRunAt ≤ v.row.nextRunAt := by
    refine h.invariant (I := fun x => Inv x ∧ u.row.nextRunAt ≤ x.row.nextRunAt) ⟨hu, le_rfl⟩ ?_
    rintro x a y ⟨hx, hle⟩ hupd hstep
    have heff := next_effect hstep
    exact ⟨hx.effect (Action.exact_of_not_update hupd) heff, hle.trans (heff.cursor_le hx hupd)⟩
  exact hboth.2

/-- An update that is accepted puts the cursor at the first instant of its definition after the
clock. -/
theorem update_cursor {expected t : Nat} {d : ScheduleDefinition} (hexact : d.cron.Exact)
    (h : w.next (.update expected d t) = some v) :
    v.row = w.row ∨ IsLeast {u | t < u ∧ d.cron.fires u} v.row.nextRunAt := by
  simp only [World.next, ite_none_right_eq_some, some.injEq] at h
  obtain ⟨-, rfl⟩ := h
  cases hrow : updateSchedule w.row expected d t with
  | error e => exact .inl rfl
  | ok new =>
    unfold updateSchedule at hrow
    split at hrow
    · cases hrow
    obtain ⟨nextRunAt, hnext, hrow⟩ := bind_eq_ok.mp hrow
    cases hrow
    exact .inr (hexact t nextRunAt (nextOccurrence_eq_ok.mp hnext))

/-- **Each occurrence at most once, fenced to its claim, bounded, and without a gap.**  The cursor
moves backwards in no run without an update, and an accepted update puts it at the first instant
of its definition after the clock.  The searches are assumed to be exact. -/
theorem occurrences_materialized_once (hexact : definition.cron.Exact)
    (hcreate : createSchedule definition now = .ok row)
    (hw : (machine row now).ReachIf (fun _ a => a.Exact) (machine row now).start w) :
    SchedulerLaw w ∧
    (∀ v, (machine row now).ReachIf (fun _ a => a.isUpdate = false) w v →
      w.row.nextRunAt ≤ v.row.nextRunAt) ∧
    ∀ expected d t v, d.cron.Exact → (machine row now).step w (.update expected d t) = some v →
      v.row = w.row ∨ IsLeast {u | t < u ∧ d.cron.fires u} v.row.nextRunAt := by
  have h := inv_of_reach hexact hcreate hw
  exact ⟨h.law, fun _ hv => cursor_le_of_reachIf h hv,
    fun _ _ _ _ hd hstep => update_cursor hd hstep⟩

/-! ## 5. Misfire policies -/

/-- The claim was made before the instant that follows its cursor fell due. -/
def DueSchedule.OnTime (due : DueSchedule) : Prop :=
  ∀ t, due.nextRunAt < t → t ≤ due.claimedAt → ¬ due.definition.cron.fires t

theorem onTime_of_le (h : ∀ due ∈ claims, due.claimedAt ≤ due.nextRunAt) :
    ∀ due ∈ claims, due.OnTime := by
  intro due hmem t hlt hle
  exact absurd (hle.trans (h due hmem)) (Nat.not_le.mpr hlt)

/-- If every claim was made on time, every policy but `skip` has materialised ALL the instants of
the current revision.  A claim is never withdrawn, so this is a condition on the whole run. -/
def World.OmitsNothing (w : World) : Prop :=
  (∀ due ∈ w.claims, due.OnTime) → w.row.definition.misfirePolicy ≠ .skip →
    w.row.definition.cron.AllSince (startingCursor w.history) w.row.nextRunAt
      (revisionRuns w.history)

theorem Effect.omitsNothing (h : Inv w) (heff : Effect w a v) (hall : w.OmitsNothing) :
    v.OmitsNothing := by
  intro hontime hpol
  cases heff with
  | idle now hclock => exact hall hontime hpol
  | claimed token now hclock hdue =>
    exact hall (fun due hmem => hontime due (mem_append_left _ hmem)) hpol
  | materialized index due plan added hclm hplan howned hadd =>
    obtain ⟨hdef, -, hlaw⟩ := h.plan_law hclm hplan howned
    have hcrs := (ownedBy_eq_true howned).2
    have hdue := hontime due (mem_of_getElem? hclm)
    rw [DueSchedule.OnTime, hdef, ← hcrs] at hdue
    rw [hdef, ← hcrs] at hplan
    exact (hall hontime hpol).append (hlaw.allSince h.exact hplan (h.first.fires h.exact) hpol hdue)
      h.start_le hlaw.advances
  | paused now hclock | restarted now row hclock hrvn hnext hsame hexact => exact Cron.AllSince.nil

theorem Effect.gap (h : Inv w) (heff : Effect w a v)
    (hhist : v.history = .materialized index occurrences :: w.history) :
    ∃ due, w.claims[index]? = some due ∧
      v.runs.map (·.scheduledFor) = w.runs.map (·.scheduledFor) ++ occurrences ∧
      GapLaw w.row.definition w.row.nextRunAt due.claimedAt ⟨occurrences, v.row.nextRunAt⟩ := by
  cases heff with
  | materialized index' due plan added hclm hplan howned hadd =>
    obtain ⟨⟨rfl, rfl⟩, -⟩ := (cons_eq_cons.mp hhist).imp_left Event.materialized.inj
    rw [(h.plan_law hclm hplan howned).1, ← (ownedBy_eq_true howned).2] at hplan
    exact ⟨due, hclm, by simp [hadd], evaluateOccurrences_gap h.exact hplan⟩
  | idle now hclock => simp at hhist
  | claimed token now hclock hdue | paused now hclock
  | restarted now row hclock hrvn hnext hsame hexact => cases hhist

end Runs

namespace Demo

def every (n : Nat) : Cron where
  fires t := n ∣ t
  findNextOccurrence after := some ((after / n + 1) * n)

theorem exact_every {n : Nat} (hn : 0 < n) : (every n).Exact := by
  intro after found h
  cases h
  refine ⟨⟨?_, Nat.dvd_mul_left n _⟩, ?_⟩
  · exact Nat.lt_mul_of_div_lt (Nat.lt_succ_self _) hn
  · rintro t ⟨hlt, k, rfl⟩
    have hk : after / n < k := Nat.div_lt_of_lt_mul hlt
    rw [Nat.mul_comm n k]
    exact Nat.mul_le_mul_right n hk

def everyTen : ScheduleDefinition := ⟨every 10, .catchUp ⟨2, by decide⟩, 5, false⟩

def everyOne : ScheduleDefinition := ⟨every 1, .catchUp ⟨2, by decide⟩, 5, false⟩

/-- The row `createSchedule` makes of `everyTen` at instant 0. -/
def tenRow : Schedule := ⟨everyTen, false, 1, 10, none, none⟩

def onceTen : ScheduleDefinition := { everyTen with misfirePolicy := .fireOnce }

def onceRow : Schedule := { tenRow with definition := onceTen }

def envelopes : EnvelopeFactory := fun t => some ⟨t, true⟩

/-- Two claims for a backlog of three: the second continues where the first stopped. -/
def backlog : List Action :=
  [.claim 7 35, .materialize 0 envelopes, .claim 8 36, .materialize 0 envelopes,
   .materialize 1 envelopes]

/-- A run of these brings no new definition. -/
theorem reach_of_runIf {row : Schedule} {now : Nat} (actions : List Action) {w v : World}
    (h : (machine row now).runIf (fun _ a => a.isUpdate = false) w actions = some v) :
    (machine row now).ReachIf (fun _ a => a.Exact) w v :=
  Machine.reachIf_of_runIf_imp actions (fun _ _ _ => Action.exact_of_not_update) h

/-- Each instant claimed when it falls due. -/
def punctual : List Action :=
  [.claim 1 10, .materialize 0 envelopes, .claim 2 20, .materialize 1 envelopes]

end Demo

open Demo in
/-- The backlog 10, 20, 30 at instant 36, in batches of two; the spent claim adds nothing. -/
theorem occurrences_materialized_once_backlog :
    ∃ w, (machine tenRow 0).run (machine tenRow 0).start backlog = some w ∧
      w.runs.map (·.scheduledFor) = [10, 20, 30] ∧ w.row.nextRunAt = 40 ∧ SchedulerLaw w :=
  ⟨_, rfl, rfl, rfl,
    (@occurrences_materialized_once everyTen 0 tenRow _ (exact_every (by decide)) rfl
      (reach_of_runIf backlog rfl)).1⟩

open Demo in
/-- **The cursor does move backwards, and a resume can skip a backlog.**  A schedule whose cursor
is at 10 is updated at instant 0 to a definition that fires at 1: its cursor is then 1.  And a
schedule that is never paused, and whose definition never changes, loses the due instants 10 to 50
when it is resumed at 55. -/
theorem update_moves_cursor_back :
    (∃ w, (machine tenRow 0).step (machine tenRow 0).start (.update 1 everyOne 0) = some w ∧
      w.row.nextRunAt < tenRow.nextRunAt) ∧
    ∃ w, (machine tenRow 0).run (machine tenRow 0).start
        [.resume 1 55, .claim 7 60, .materialize 0 envelopes] = some w ∧
      w.row.paused = false ∧ w.row.definition = everyTen ∧
      w.runs.map (·.scheduledFor) = [60] ∧ tenRow.nextRunAt = 10 :=
  ⟨⟨_, rfl, by decide⟩, ⟨_, rfl, rfl, rfl, rfl, rfl⟩⟩

end Omnius.Scheduler
