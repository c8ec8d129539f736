/-
# The delivery law of the outbox, and the retention it does not keep

One row's LIFE is what claims, marks and failures do to it, one event after another; the machine of
all relays only ever interleaves lives (`Kept`).  The law is then read off a life, by induction on
how it came about: what each event needed when it happened (`Allowed`).

* `outbox_delivery_law` -- leases do not overlap, only the last token settles and only in time, no
  row is handed out more often than allowed, a publication is final, and only published or
  exhausted rows are deleted.
* The RETENTION of an exhausted row counts from `available_at`, which a recorded failure moves past
  the claim but a claim alone does not.  A row whose last lease just expired may thus be deleted
  at once when it had waited long before (`exhausted_deleted_early`); the law keeps it for the
  whole period when the last attempt ended by a recorded failure.
-/
import Omnius.Outbox.Store

namespace Omnius.Outbox

open Omnius.Lib List

variable {now : Nat} {moment : Moment} {candidates : List OutboxEvent}

/-! ## 1. The law -/

/-- The leases of a tale, newest first. -/
def grants : List Event → List Grant
  | [] => []
  | .granted grant :: past => grant :: grants past
  | _ :: past => grants past

/-- The token a mark succeeded with. -/
def Event.settledBy : Event → Option Nat
  | .published token _ _ => some token
  | .failed token _ _ => some token
  | _ => none

def Event.isPublication : Event → Bool
  | .published _ _ _ => true
  | _ => false

def Event.isFailure : Event → Bool
  | .failed _ _ _ => true
  | _ => false

/-- Neither published nor deleted. -/
def Open (past : List Event) : Prop :=
  ∀ event ∈ past, event.isPublication = false ∧ ∀ at', event ≠ .deleted at'

/-- A mark may settle the newest lease only, with its token and before it expires. -/
def Fenced (past : List Event) (token checkedAt : Nat) : Prop :=
  ∃ grant older, grants past = grant :: older ∧ grant.token = token ∧ checkedAt < grant.expiresAt

/-- Every lease of the past has expired, or was settled with its own token. -/
def NoneHeld (past : List Event) (now : Nat) : Prop :=
  ∀ newer grant older, past = newer ++ .granted grant :: older →
    grant.expiresAt ≤ now ∨ ∃ event ∈ newer, event.settledBy = some grant.token

/-- What an event needs when it happens after `past`. -/
def Allowed (config : OutboxConfig) (past : List Event) : Event → Prop
  | .granted grant =>
    Open past ∧ (grants past).length < config.maxAttempts ∧ NoneHeld past grant.checkedAt
  | .published token checkedAt _ => Open past ∧ Fenced past token checkedAt
  | .failed token checkedAt _ => Open past ∧ Fenced past token checkedAt
  | .deleted checkedAt =>
    (∀ event ∈ past, ∀ at', event ≠ .deleted at') ∧
    ((∃ event ∈ past, event.isPublication = true) ∨
      ((grants past).length = config.maxAttempts ∧ NoneHeld past checkedAt ∧
        ((past.head?.any Event.isFailure) = true → ∀ grant older, grants past = grant :: older →
          1000 * grant.grantedAt + config.retention ≤ 1000 * checkedAt)))

/-- Each event of a tale was allowed when it happened. -/
def Lawful (config : OutboxConfig) : List Event → Prop
  | [] => True
  | event :: past => Allowed config past event ∧ Lawful config past

variable {config : OutboxConfig} {event : Event}

theorem Lawful.allowed {past : List Event} :
    ∀ {newer : List Event}, Lawful config (newer ++ event :: past) → Allowed config past event
  | [], h => h.1
  | _ :: _, h => Lawful.allowed h.2

theorem Lawful.grants_le {tale : List Event} (h : Lawful config tale) :
    (grants tale).length ≤ config.maxAttempts := by
  induction tale with
  | nil => exact Nat.zero_le _
  | cons event past ih =>
    cases event with
    | granted grant => exact h.1.2.1
    | published | failed | deleted => exact ih h.2

def publication : List Event → Option Nat
  | [] => none
  | .published _ _ publishedAt :: _ => some publishedAt
  | _ :: past => publication past

/-! ## 2. One life -/

/-- What the calls make of one row, up to a reading of the clock. -/
inductive Life (config : OutboxConfig) : OutboxEvent → List Event → Nat → Prop
  | appended {row : OutboxEvent} {clock : Nat} (attempts : row.attemptCount = 0)
      (lease : row.lease = none) (published : row.publishedAt = none) : Life config row [] clock
  | waited {row : OutboxEvent} {tale : List Event} {clock later : Nat}
      (life : Life config row tale clock) (hclock : clock ≤ later) : Life config row tale later
  | granted {row : OutboxEvent} {tale : List Event} {clock : Nat} {moment : Moment} {lease : Lease}
      (life : Life config row tale clock) (before : clock ≤ moment.checkedAt)
      (readings : moment.checkedAt ≤ moment.stampedAt)
      (claimable : row.claimable config moment.checkedAt = true) :
      Life config (row.granted lease)
        (.granted ⟨lease.token, moment.checkedAt, moment.stampedAt, lease.expiresAt⟩ :: tale)
        moment.stampedAt
  | published {row : OutboxEvent} {tale : List Event} {clock token : Nat} {moment : Moment}
      (life : Life config row tale clock) (before : clock ≤ moment.checkedAt)
      (readings : moment.checkedAt ≤ moment.stampedAt)
      (held : row.heldBy token moment.checkedAt = true) :
      Life config (row.published moment.stampedAt)
        (.published token moment.checkedAt moment.stampedAt :: tale) moment.stampedAt
  | failed {row : OutboxEvent} {tale : List Event} {clock token delay : Nat} {moment : Moment}
      {failure : FailureClass} (life : Life config row tale clock)
      (before : clock ≤ moment.checkedAt) (readings : moment.checkedAt ≤ moment.stampedAt)
      (held : row.heldBy token moment.checkedAt = true) :
      Life config (row.failed failure (moment.stampedAt + durationMicros delay))
        (.failed token moment.checkedAt (moment.stampedAt + durationMicros delay) :: tale)
        moment.stampedAt

/-- The lease a tale leaves in the row: only the newest event decides. -/
def current : List Event → Option (Nat × Nat)
  | .granted grant :: _ => some (grant.token, grant.expiresAt)
  | _ => none

variable {row : OutboxEvent}

theorem claimable_eq :
    row.claimable config now = true ↔ row.publishedAt = none ∧ row.availableAt ≤ now ∧
      row.attemptCount < config.maxAttempts ∧
      ∀ lease, row.lease = some lease → lease.expiresAt ≤ now := by
  simp [OutboxEvent.claimable, Option.all_eq_true, and_assoc]

theorem heldBy_eq {token : Nat} :
    row.heldBy token now = true ↔ row.publishedAt = none ∧
      ∃ lease, row.lease = some lease ∧ lease.token = token ∧ now < lease.expiresAt := by
  simp [OutboxEvent.heldBy, Option.any_eq_true]

theorem removable_eq : row.removable config now = true ↔
      (∀ lease, row.lease = some lease → lease.expiresAt ≤ now) ∧
      (row.publishedAt ≠ none ∨ config.maxAttempts ≤ row.attemptCount) ∧
      row.agedFrom + durationMicros config.retention < now := by
  simp [OutboxEvent.removable, Option.all_eq_true, and_assoc, Option.isSome_iff_ne_none]

namespace Life

variable {config : OutboxConfig} {row : OutboxEvent} {tale : List Event} {clock : Nat}

section

variable (h : Life config row tale clock)

include h

theorem lease_eq :
    row.lease.map (fun lease => (lease.token, lease.expiresAt)) = current tale := by
  induction h with
  | appended _ lease _ => simp [lease, current]
  | waited _ _ ih => exact ih
  | granted | published | failed => rfl

theorem attempts_eq :
    row.attemptCount = (grants tale).length := by
  induction h with
  | appended attempts _ _ => simp [attempts, grants]
  | waited _ _ ih => exact ih
  | granted _ _ _ _ ih => simp [OutboxEvent.granted, grants, ih]
  | published _ _ _ _ ih => simpa [OutboxEvent.published, grants] using ih
  | failed _ _ _ _ ih => simpa [OutboxEvent.failed, grants] using ih

theorem attempts_le : row.attemptCount ≤ config.maxAttempts := by
  induction h with
  | appended attempts _ _ => simp [attempts]
  | waited _ _ ih | published _ _ _ _ ih | failed _ _ _ _ ih => exact ih
  | granted _ _ _ claimable _ => exact (claimable_eq.mp claimable).2.2.1

theorem publishedAt_eq : row.publishedAt = publication tale := by
  induction h with
  | appended _ _ published => exact published
  | waited _ _ ih | granted _ _ _ _ ih | failed _ _ _ _ ih => exact ih
  | published => rfl

/-- A row that is not published is open: a life never passes a deletion. -/
theorem open_of_unpublished (hrow : row.publishedAt = none) :
    Open tale := by
  induction h with
  | appended => exact nofun
  | waited _ _ ih => exact ih hrow
  | granted _ _ _ _ ih | failed _ _ _ _ ih =>
    exact forall_mem_cons.mpr ⟨⟨rfl, by simp⟩, ih hrow⟩
  | published => cases hrow

theorem not_deleted :
    ∀ event ∈ tale, ∀ at', event ≠ .deleted at' := by
  induction h with
  | appended => exact nofun
  | waited _ _ ih => exact ih
  | granted _ _ _ _ ih | published _ _ _ _ ih | failed _ _ _ _ ih =>
    exact forall_mem_cons.mpr ⟨nofun, ih⟩

theorem granted_le :
    ∀ grant ∈ grants tale, grant.grantedAt ≤ clock := by
  induction h with
  | appended => exact nofun
  | waited _ hclk ih => exact fun grant hgr => (ih grant hgr).trans hclk
  | granted _ before readings _ ih =>
    exact forall_mem_cons.mpr
      ⟨le_rfl, fun grant hgr => (ih grant hgr).trans (before.trans readings)⟩
  | published _ before readings _ ih | failed _ before readings _ ih =>
    exact fun grant hgr => (ih grant hgr).trans (before.trans readings)

end

/-- The lease in the row is the newest event, if that is a grant. -/
theorem lease_of_newest {grant : Grant} {past : List Event}
    (h : Life config row (.granted grant :: past) clock) :
    ∃ lease, row.lease = some lease ∧ lease.token = grant.token ∧
      lease.expiresAt = grant.expiresAt := by
  obtain ⟨lease, hls, heq⟩ := Option.map_eq_some_iff.mp h.lease_eq
  exact ⟨lease, hls, Prod.mk.inj heq⟩

variable {token : Nat}

theorem fenced_of_held (h : Life config row tale clock) (held : row.heldBy token now = true) :
    Fenced tale token now := by
  obtain ⟨-, lease, hls, htok, hnow⟩ := heldBy_eq.mp held
  have heq := h.lease_eq
  rw [hls] at heq
  match tale, heq with
  | .granted grant :: past, heq =>
    simp only [Option.map_some, current, Option.some.injEq, Prod.mk.injEq] at heq
    exact ⟨grant, grants past, rfl, heq.1 ▸ htok, heq.2 ▸ hnow⟩

/-- Under a new event only the lease that was newest so far is to be looked at. -/
theorem free_below_cons {tale : List Event} {clock clock' : Nat} (hclk : clock ≤ clock')
    (hnwst : ∀ grant older, tale = .granted grant :: older →
      grant.expiresAt ≤ clock' ∨ event.settledBy = some grant.token)
    (ih : ∀ event newer grant older, tale = event :: (newer ++ .granted grant :: older) →
      grant.expiresAt ≤ clock ∨ ∃ settled ∈ event :: newer, settled.settledBy = some grant.token) :
    ∀ newer grant older, tale = newer ++ .granted grant :: older →
      grant.expiresAt ≤ clock' ∨
        ∃ settled ∈ event :: newer, settled.settledBy = some grant.token := by
  intro newer grant older hspl
  cases newer with
  | nil => exact (hnwst grant older hspl).imp_right fun h => ⟨event, mem_cons_self, h⟩
  | cons second newer =>
    refine (ih second newer grant older hspl).imp (fun h => h.trans hclk) ?_
    rintro ⟨settled, hmem, hstl⟩
    exact ⟨settled, mem_cons_of_mem _ hmem, hstl⟩

variable (h : Life config row tale clock)

include h

/-- A lease under a newer event had expired when the next one was granted, or was settled. -/
theorem free_below :
    ∀ event newer grant older, tale = event :: (newer ++ .granted grant :: older) →
      grant.expiresAt ≤ clock ∨
        ∃ settled ∈ event :: newer, settled.settledBy = some grant.token := by
  induction h with
  | appended =>
    intro event newer grant older hspl
    cases hspl
  | waited _ hle ih =>
    intro event newer grant older hspl
    exact (ih event newer grant older hspl).imp_left fun h => h.trans hle
  | granted life before readings claimable ih =>
    intro event newer grant older hspl
    obtain ⟨rfl, htail⟩ := List.cons.inj hspl
    refine free_below_cons (before.trans readings) ?_ ih newer grant older htail
    -- The lease the claim found in the row: it had to be expired.
    rintro grant older rfl
    obtain ⟨lease, hls, -, hexps⟩ := life.lease_of_newest
    have hexp := (claimable_eq.mp claimable).2.2.2 lease hls
    exact .inl (hexps ▸ hexp.trans readings)
  | @published row tale clock token moment life before readings held ih
  | @failed row tale clock token delay moment failure life before readings held ih =>
    intro event newer grant older hspl
    obtain ⟨rfl, htail⟩ := List.cons.inj hspl
    refine free_below_cons (before.trans readings) ?_ ih newer grant older htail
    -- The mark settles the lease it found in the row.
    rintro grant older rfl
    obtain ⟨lease, hls, htok, -⟩ := life.lease_of_newest
    obtain ⟨-, lease', hls', rfl, -⟩ := heldBy_eq.mp held
    obtain rfl : lease = lease' := Option.some.inj (hls.symm.trans hls')
    exact .inr (congrArg some htok)

/-- Once the row's own lease has expired or is gone, nobody holds the row. -/
theorem noneHeld (hclk : clock ≤ now)
    (hls : ∀ lease, row.lease = some lease → lease.expiresAt ≤ now) : NoneHeld tale now := by
  intro newer grant older hspl
  cases newer with
  | nil =>
    subst hspl
    obtain ⟨lease, hrow, -, hexps⟩ := h.lease_of_newest
    exact .inl (hexps ▸ hls lease hrow)
  | cons event newer =>
    exact (h.free_below event newer grant older hspl).imp_left fun h => h.trans hclk

/-- After a recorded failure the row is scheduled past every claim of its life. -/
theorem granted_le_availableAt (hfailed : (tale.head?.any Event.isFailure) = true) :
    ∀ grant ∈ grants tale, grant.grantedAt ≤ row.availableAt := by
  induction h with
  | appended | granted | published => cases hfailed
  | waited _ _ ih => exact ih hfailed
  | @failed row tale clock token delay moment failure life before readings held ih =>
    intro grant hgr
    have hclk : grant.grantedAt ≤ clock := life.granted_le grant hgr
    change grant.grantedAt ≤ moment.stampedAt + durationMicros delay
    omega

/-- **The law, along one life.** -/
theorem lawful : Lawful config tale := by
  induction h with
  | appended => trivial
  | waited _ _ ih => exact ih
  | granted life before _ claimable ih =>
    obtain ⟨hrow, -, hatts, hls⟩ := claimable_eq.mp claimable
    rw [life.attempts_eq] at hatts
    exact ⟨⟨life.open_of_unpublished hrow, hatts, life.noneHeld before hls⟩, ih⟩
  | published life _ _ held ih | failed life _ _ held ih =>
    exact ⟨⟨life.open_of_unpublished (heldBy_eq.mp held).1, life.fenced_of_held held⟩, ih⟩

theorem isPublication_of_publishedAt
    (hrow : row.publishedAt ≠ none) : ∃ event ∈ tale, event.isPublication = true := by
  induction h with
  | appended _ _ published => exact absurd published hrow
  | waited _ _ ih => exact ih hrow
  | published => exact ⟨_, mem_cons_self, rfl⟩
  | granted _ _ _ _ ih | failed _ _ _ _ ih =>
    obtain ⟨event, hmem, hev⟩ := ih hrow
    exact ⟨event, mem_cons_of_mem _ hmem, hev⟩

/-- A deletion ends the life of a row that meets the cleanup's condition. -/
theorem allowed_deleted (hclk : clock ≤ now)
    (hrmb : row.removable config now = true) : Allowed config tale (.deleted now) := by
  obtain ⟨hls, hdone, haged⟩ := removable_eq.mp hrmb
  refine ⟨h.not_deleted, ?_⟩
  by_cases hrow : row.publishedAt = none
  · have hatts := hdone.resolve_left fun hne => hne hrow
    have hle := h.attempts_le
    rw [h.attempts_eq] at hatts hle
    refine .inr ⟨by omega, h.noneHeld hclk hls, ?_⟩
    intro hfailed grant older hgrs
    have hgranted := h.granted_le_availableAt hfailed grant (by simp [hgrs])
    rw [OutboxEvent.agedFrom, hrow, Option.getD_none, durationMicros] at haged
    omega
  · exact .inl (h.isPublication_of_publishedAt hrow)

end Life

/-! ## 3. Interleaved lives -/

section Records

variable {rows : List OutboxEvent} {event : OutboxEvent → Option Event} {serial : Nat}

theorem taleOf_append (serial : Nat) (newer older : List (Nat × Event)) :
    taleOf serial (newer ++ older) = taleOf serial newer ++ taleOf serial older := by
  simp [taleOf]

theorem taleOf_records_cons (row : OutboxEvent) :
    taleOf serial (World.records (row :: rows) event) =
      (if row.serial = serial then (event row).toList else []) ++
        taleOf serial (World.records rows event) := by
  unfold World.records taleOf
  cases hev : event row <;> by_cases h : row.serial = serial <;>
    simp [hev, h]

theorem taleOf_records_of_none (h : ∀ row ∈ rows, row.serial = serial → event row = none) :
    taleOf serial (World.records rows event) = [] := by
  induction rows with
  | nil => rfl
  | cons row rows ih =>
    rw [taleOf_records_cons, ih fun other hoth => h other (mem_cons_of_mem _ hoth)]
    split
    · next heq => simp [h row mem_cons_self heq]
    · rfl

theorem taleOf_records (hsers : (rows.map (·.serial)).Nodup) (hrow : row ∈ rows) :
    taleOf row.serial (World.records rows event) = (event row).toList := by
  induction rows with
  | nil => cases hrow
  | cons first rows ih =>
    rw [map_cons, nodup_cons, mem_map] at hsers
    obtain ⟨hfst, hrest⟩ := hsers
    rw [taleOf_records_cons]
    rcases mem_cons.mp hrow with rfl | hmem
    · rw [if_pos rfl, taleOf_records_of_none, append_nil]
      intro other hoth heq
      exact absurd ⟨other, hoth, heq⟩ hfst
    · rw [if_neg fun heq => hfst ⟨row, hmem, heq.symm⟩, ih hrest hmem, nil_append]

end Records

/-- What a deleted row's tale is. -/
def Ended (config : OutboxConfig) (tale : List Event) : Prop :=
  ∃ row past clock now, tale = .deleted now :: past ∧ Life config row past clock ∧ clock ≤ now ∧
    row.removable config now = true

/-- Every row that was ever appended lives, or has ended by a deletion. -/
structure Kept (config : OutboxConfig) (w : World) : Prop where
  ids : (w.rows.map (·.id)).Nodup
  serials : (w.rows.map (·.serial)).Nodup
  appended : ∀ row ∈ w.rows, row.serial < w.appends
  lives : ∀ row ∈ w.rows, Life config row (taleOf row.serial w.history) w.clock
  ended : ∀ serial, (∀ row ∈ w.rows, row.serial ≠ serial) →
    taleOf serial w.history = [] ∨
      (serial < w.appends ∧ Ended config (taleOf serial w.history))

section Steps

variable {config : OutboxConfig} {w : World}

theorem Kept.start : Kept config (machine config).start :=
  { ids := nodup_nil
    serials := nodup_nil
    appended := nofun
    lives := nofun
    ended := fun _ _ => .inl rfl }

variable {other : OutboxEvent} {change : OutboxEvent → OutboxEvent}
  {before : OutboxEvent → OutboxEvent → Prop} {condition : OutboxEvent → Bool} {limit id : Nat}
  {lease : Nat → Option Lease} {w' : World}

section

variable (h : Kept config w)

include h

theorem Kept.eq_of_serial (hrow : row ∈ w.rows)
    (hoth : other ∈ w.rows) (heq : row.serial = other.serial) : row = other :=
  inj_on_of_nodup_map h.serials hrow hoth heq

theorem Kept.eq_of_id (hrow : row ∈ w.rows)
    (hoth : other ∈ w.rows) (heq : row.id = other.id) : row = other :=
  inj_on_of_nodup_map h.ids hrow hoth heq

/-- A statement that changes rows in place continues each row's life. -/
theorem Kept.update {news : List (Nat × Event)} {clock : Nat}
    (hid : ∀ row, (change row).id = row.id) (hser : ∀ row, (change row).serial = row.serial)
    (hlives : ∀ row ∈ w.rows,
      Life config (change row) (taleOf row.serial news ++ taleOf row.serial w.history) clock)
    (hoths : ∀ serial, (∀ row ∈ w.rows, row.serial ≠ serial) → taleOf serial news = []) :
    Kept config { w with rows := w.rows.map change, clock, history := news ++ w.history } where
  ids := by
    simpa [Function.comp_def, hid] using h.ids
  serials := by
    simpa [Function.comp_def, hser] using h.serials
  appended := by
    intro row hrow
    obtain ⟨old, hold, rfl⟩ := mem_map.mp hrow
    rw [hser]
    exact h.appended old hold
  lives := by
    intro row hrow
    obtain ⟨old, hold, rfl⟩ := mem_map.mp hrow
    rw [hser, taleOf_append]
    exact hlives old hold
  ended := by
    intro serial hsers
    have hold : ∀ row ∈ w.rows, row.serial ≠ serial := by
      intro row hrow
      have := hsers (change row) (mem_map_of_mem hrow)
      rwa [hser] at this
    rw [taleOf_append, hoths serial hold]
    exact h.ended serial hold

theorem Kept.append (id occurredAt availableAt : Nat) :
    Kept config (w.append id occurredAt availableAt) := by
  unfold World.append Outbox.append
  by_cases hid : w.rows.any (·.id = id) = true
  · simpa [hid] using h
  rw [if_neg hid]
  have hnew : ∀ row ∈ w.rows, row.id ≠ id := by simpa using hid
  have hser : ∀ row ∈ w.rows, row.serial ≠ w.appends := fun row hrow =>
    (h.appended row hrow).ne
  have hemp : taleOf w.appends w.history = [] :=
    (h.ended w.appends hser).resolve_right fun hended => lt_irrefl _ hended.1
  refine ⟨?_, ?_, ?_, ?_, ?_⟩
  · simpa [nodup_append, h.ids] using hnew
  · simpa [nodup_append, h.serials] using hser
  · exact forall_mem_append.mpr ⟨fun row hold => (h.appended row hold).trans (Nat.lt_succ_self _),
      forall_mem_singleton.mpr (Nat.lt_succ_self _)⟩
  · refine forall_mem_append.mpr ⟨h.lives, forall_mem_singleton.mpr ?_⟩
    simp only [hemp]
    exact .appended rfl rfl rfl
  · intro serial hsers
    have hold := h.ended serial fun row hrow => hsers row (mem_append_left _ hrow)
    exact hold.imp_right fun ⟨hlt, hended⟩ => ⟨hlt.trans (Nat.lt_succ_self _), hended⟩

end

/-! The candidates of a statement are rows that meet its condition, each once. -/

variable {rows : List OutboxEvent}

theorem nodup_candidates {α : Type} {f : OutboxEvent → α}
    [DecidableRel before] (h : (rows.map f).Nodup) :
    ((((rows.filter condition).insertionSort before).take limit).map f).Nodup := by
  have hfilter : ((rows.filter condition).map f).Nodup :=
    h.sublist (filter_sublist.map f)
  have hsrt : (((rows.filter condition).insertionSort before).map f).Nodup :=
    ((perm_insertionSort before _).map f).nodup_iff.mpr hfilter
  exact hsrt.sublist ((take_sublist _ _).map f)

theorem mem_candidates [DecidableRel before] {unlocked : OutboxEvent → Bool}
    (h : row ∈ ((rows.filter fun row => condition row && unlocked row).insertionSort before).take
      limit) : row ∈ rows ∧ condition row = true := by
  have h := mem_filter.mp ((mem_insertionSort _).mp (mem_of_mem_take h))
  exact ⟨h.1, (Bool.and_eq_true_iff.mp h.2).1⟩

theorem mem_of_suppliedLease {tokens : List Nat} {stampedAt : Nat} {lease : Lease}
    (h : suppliedLease config candidates tokens stampedAt id = some lease) :
    ∃ row ∈ candidates, row.id = id := by
  obtain ⟨⟨id', token⟩, hfind, -⟩ := Option.map_eq_some_iff.mp h
  have hid : id' = id := by simpa using List.find?_some hfind
  have hmem := (of_mem_zip (mem_of_find?_eq_some hfind)).1
  obtain ⟨row, hrow, heq⟩ := mem_map.mp hmem
  exact ⟨row, hrow, heq.trans hid⟩

theorem nodup_serials_granted (h : (candidates.map (·.serial)).Nodup) :
    ((candidates.filterMap fun row => (lease row.id).map row.granted).map (·.serial)).Nodup := by
  induction candidates with
  | nil => exact nodup_nil
  | cons row rest ih =>
    rw [map_cons, nodup_cons] at h
    cases hgiven : lease row.id with
    | none => simpa [hgiven] using ih h.2
    | some given =>
      rw [filterMap_cons, hgiven, Option.map_some, map_cons, nodup_cons]
      refine ⟨?_, ih h.2⟩
      intro hmem
      obtain ⟨claimed, hcld, heq⟩ := mem_map.mp hmem
      obtain ⟨other, hoth, hmap⟩ := mem_filterMap.mp hcld
      obtain ⟨given', -, rfl⟩ := Option.map_eq_some_iff.mp hmap
      exact h.1 (mem_map.mpr ⟨other, hoth, heq⟩)

/-- Leases written into candidates, and into no other row. -/
theorem Kept.leased (h : Kept config w) (before : w.clock ≤ moment.checkedAt)
    (readings : moment.checkedAt ≤ moment.stampedAt) (hcands : ∀ row ∈ candidates,
      row ∈ w.rows ∧ row.claimable config moment.checkedAt = true)
    (hsers : (candidates.map (·.serial)).Nodup)
    (hls : ∀ id given, lease id = some given → ∃ row ∈ candidates, row.id = id) :
    Kept config { w with
      rows := w.rows.map fun row => (lease row.id).elim row row.granted
      clock := moment.stampedAt
      history :=
        World.records (candidates.filterMap fun row => (lease row.id).map row.granted)
          (World.grantOf moment) ++ w.history } := by
  have hcld : ∀ claimed ∈ candidates.filterMap (fun row => (lease row.id).map row.granted),
      ∃ row ∈ w.rows, ∃ given, lease row.id = some given ∧ row.granted given = claimed := by
    intro claimed hcld
    obtain ⟨row, hrow, heq⟩ := mem_filterMap.mp hcld
    obtain ⟨given, hgiven, heq⟩ := Option.map_eq_some_iff.mp heq
    exact ⟨row, (hcands row hrow).1, given, hgiven, heq⟩
  refine h.update ?_ ?_ ?_ ?_
  · intro row
    cases lease row.id <;> rfl
  · intro row
    cases lease row.id <;> rfl
  · intro row hrow
    cases hgiven : lease row.id with
    | none =>
      rw [taleOf_records_of_none]
      · exact (h.lives row hrow).waited (before.trans readings)
      · intro claimed hmem heq
        obtain ⟨other, hoth, given, hgiven', rfl⟩ := hcld claimed hmem
        obtain rfl := h.eq_of_serial hoth hrow heq
        rw [hgiven] at hgiven'
        cases hgiven'
    | some given =>
      obtain ⟨candidate, hcand, hid⟩ := hls row.id given hgiven
      obtain rfl := h.eq_of_id (hcands candidate hcand).1 hrow hid
      have hmem : candidate.granted given ∈
          candidates.filterMap fun row => (lease row.id).map row.granted :=
        mem_filterMap.mpr ⟨candidate, hcand, by rw [hgiven]; rfl⟩
      have htale : taleOf (candidate.granted given).serial
          (World.records _ (World.grantOf moment)) = _ :=
        taleOf_records (nodup_serials_granted hsers) hmem
      change taleOf candidate.serial _ = _ at htale
      rw [htale]
      exact (h.lives candidate hrow).granted before readings (hcands candidate hcand).2
  · intro serial hser
    refine taleOf_records_of_none ?_
    intro claimed hmem heq
    obtain ⟨row, hrow, given, -, rfl⟩ := hcld claimed hmem
    exact absurd heq (hser row hrow)

theorem Kept.claim (h : Kept config w) (tokens : List Nat) (before : w.clock ≤ moment.checkedAt)
    (readings : moment.checkedAt ≤ moment.stampedAt) : Kept config (w.claim config tokens moment) :=
  h.leased before readings (fun _ hrow => mem_candidates hrow) (nodup_candidates h.serials)
    fun _ _ hgiven => mem_of_suppliedLease hgiven

theorem countP_id_le_one (h : (rows.map (·.id)).Nodup) :
    rows.countP (fun row => row.id = id && condition row) ≤ 1 := by
  calc rows.countP (fun row => row.id = id && condition row)
      ≤ rows.countP (fun row => row.id = id) :=
        countP_mono_left fun row _ hrow => (Bool.and_eq_true_iff.mp hrow).1
    _ = (rows.map (·.id)).count id := by
        rw [List.count, countP_map]
        rfl
    _ ≤ 1 := nodup_iff_count_le_one.mp h id

theorem admits_of_step {next : World}
    (h : (if w.admits moment then some next else none) = some w') :
    (w.clock ≤ moment.checkedAt ∧ moment.checkedAt ≤ moment.stampedAt) ∧ next = w' := by
  split at h
  · next had =>
    have had := Bool.and_eq_true_iff.mp had
    exact ⟨⟨by simpa using had.1, by simpa using had.2⟩, Option.some.inj h⟩
  · cases h

section

variable (h : Kept config w)

include h

theorem Kept.refused {error : OutboxError}
    (before : w.clock ≤ moment.checkedAt) (readings : moment.checkedAt ≤ moment.stampedAt) :
    Kept config (w.mark id moment event (w.rows, .error error)) :=
  { h with lives := fun row hrow => (h.lives row hrow).waited (before.trans readings) }

/-- A mark settles the one row with its `id`, or nothing. -/
theorem Kept.mark {token : Nat}
    (before : w.clock ≤ moment.checkedAt) (readings : moment.checkedAt ≤ moment.stampedAt)
    (hid : ∀ row, (change row).id = row.id) (hser : ∀ row, (change row).serial = row.serial)
    (hlife : ∀ row tale, Life config row tale w.clock →
      row.heldBy token moment.checkedAt = true →
      Life config (change row) (event :: tale) moment.stampedAt) :
    Kept config (w.mark id moment event
      (let (rows, affected) := updateWhere w.rows
        (fun row => row.id = id && row.heldBy token moment.checkedAt) change
       (rows, affectedOne affected))) := by
  unfold updateWhere affectedOne
  set held : OutboxEvent → Bool := fun row => row.id = id && row.heldBy token moment.checkedAt
    with hheld
  have hid' : ∀ row, (if held row then change row else row).id = row.id := fun row => by
    split
    · exact hid row
    · rfl
  have hser' : ∀ row, (if held row then change row else row).serial = row.serial := fun row => by
    split
    · exact hser row
    · rfl
  by_cases hct : w.rows.countP held = 1
  · -- The held row exists, so it is the row with this `id`.
    have hpos : 0 < w.rows.countP held := by omega
    obtain ⟨target, htgt, htargetHeld⟩ := countP_pos_iff.mp hpos
    obtain ⟨htargetId, htargetToken⟩ : target.id = id ∧
        target.heldBy token moment.checkedAt = true := by simpa [hheld] using htargetHeld
    have hfilter : ∀ row ∈ w.rows.filter (·.id = id), row = target := by
      intro row hrow
      obtain ⟨hrow, hrowId⟩ := mem_filter.mp hrow
      exact h.eq_of_id hrow htgt ((by simpa using hrowId : row.id = id).trans htargetId.symm)
    have hmem : target ∈ w.rows.filter (·.id = id) :=
      mem_filter.mpr ⟨htgt, by simpa using htargetId⟩
    simp only [hct, if_true]
    refine h.update hid' hser' ?_ ?_
    · intro row hrow
      by_cases hrh : held row = true
      · obtain ⟨hrowId, hrowToken⟩ : row.id = id ∧ row.heldBy token moment.checkedAt = true := by
          simpa [hheld] using hrh
        obtain rfl := h.eq_of_id hrow htgt (hrowId.trans htargetId.symm)
        have hnd : ((w.rows.filter (·.id = id)).map (·.serial)).Nodup :=
          h.serials.sublist (filter_sublist.map _)
        rw [if_pos hrh, taleOf_records hnd hmem]
        exact hlife row _ (h.lives row hrow) hrowToken
      · rw [if_neg hrh, taleOf_records_of_none]
        · exact (h.lives row hrow).waited (before.trans readings)
        · intro other hoth heq
          rw [hfilter other hoth] at heq
          rw [← h.eq_of_serial htgt hrow heq] at hrh
          exact absurd htargetHeld hrh
    · intro serial hsers
      refine taleOf_records_of_none ?_
      intro other hoth heq
      exact absurd heq (hsers other (mem_of_mem_filter hoth))
  · -- No row is held with this token: the update changed nothing.
    have hzero : w.rows.countP held = 0 := by
      have : w.rows.countP held ≤ 1 := countP_id_le_one h.ids
      omega
    have hnone : ∀ row ∈ w.rows, held row = false := by
      simpa using countP_eq_zero.mp hzero
    have hmap : w.rows.map (fun row => if held row then change row else row) = w.rows :=
      (map_congr_left fun row hrow => if_neg (by simp [hnone row hrow])).trans (map_id _)
    simp only [hct, if_false, hmap]
    change Kept config (w.mark id moment event (w.rows, .error .lostLease))
    exact h.refused before readings

theorem Kept.cleanupRetained (before : w.clock ≤ moment.checkedAt)
    (readings : moment.checkedAt ≤ moment.stampedAt) :
    Kept config (w.cleanupRetained config moment) := by
  have hcands : ∀ row ∈ cleanupCandidates config w.rows moment,
      row ∈ w.rows ∧ row.removable config moment.checkedAt = true :=
    fun _ hrow => mem_candidates hrow
  have hsers : ((cleanupCandidates config w.rows moment).map (·.serial)).Nodup :=
    nodup_candidates h.serials
  unfold World.cleanupRetained Outbox.cleanupRetained
  generalize cleanupCandidates config w.rows moment = candidates at hcands hsers
  refine ⟨?_, ?_, ?_, ?_, ?_⟩
  · exact h.ids.sublist (filter_sublist.map _)
  · exact h.serials.sublist (filter_sublist.map _)
  · intro row hrow
    exact h.appended row (mem_of_mem_filter hrow)
  · intro row hrow
    obtain ⟨hold, hkept⟩ := mem_filter.mp hrow
    rw [taleOf_append, taleOf_records_of_none]
    · exact (h.lives row hold).waited (before.trans readings)
    · intro other hoth heq
      obtain rfl := h.eq_of_serial (hcands other hoth).1 hold heq
      simp only [Bool.not_eq_true', contains_eq_mem, decide_eq_false_iff_not] at hkept
      exact absurd (mem_map_of_mem hoth) hkept
  · intro serial hser
    by_cases hdld : ∃ row ∈ candidates, row.serial = serial
    · obtain ⟨row, hrow, rfl⟩ := hdld
      obtain ⟨hold, hrmb⟩ := hcands row hrow
      rw [taleOf_append, taleOf_records hsers hrow]
      exact .inr ⟨h.appended row hold, row, _, w.clock, moment.checkedAt, rfl, h.lives row hold,
        before, hrmb⟩
    · rw [taleOf_append, taleOf_records_of_none]
      · refine h.ended serial ?_
        intro row hold heq
        refine hser row (mem_filter.mpr ⟨hold, ?_⟩) heq
        simp only [Bool.not_eq_true', contains_eq_mem, decide_eq_false_iff_not]
        intro hmem
        obtain ⟨other, hoth, hid⟩ := mem_map.mp hmem
        obtain rfl := h.eq_of_id (hcands other hoth).1 hold hid
        exact hdld ⟨other, hoth, heq⟩
      · intro row hrow heq
        exact absurd ⟨row, hrow, heq⟩ hdld

/-- **One step.** -/
theorem Kept.step {action : Action}
    (hstep : (machine config).step w action = some w') : Kept config w' := by
  change World.next config w action = some w' at hstep
  cases action with
  | append id occurredAt availableAt =>
    obtain rfl := Option.some.inj hstep
    exact h.append id occurredAt availableAt
  | claim tokens moment =>
    obtain ⟨had, rfl⟩ := admits_of_step hstep
    exact h.claim tokens had.1 had.2
  | markPublished id token moment =>
    obtain ⟨had, rfl⟩ := admits_of_step hstep
    exact h.mark had.1 had.2 (fun _ => rfl) (fun _ => rfl)
      fun _ _ life held => life.published had.1 had.2 held
  | markFailed id token failure retryDelay moment =>
    obtain ⟨had, rfl⟩ := admits_of_step hstep
    unfold markFailed
    split
    · exact h.refused had.1 had.2
    · exact h.mark had.1 had.2 (fun _ => rfl) (fun _ => rfl)
        fun _ _ life held => life.failed had.1 had.2 held
  | cleanupRetained moment =>
    obtain ⟨had, rfl⟩ := admits_of_step hstep
    exact h.cleanupRetained had.1 had.2

end

/-- **Every run.** -/
theorem Kept.of_reach (h : (machine config).Reach (machine config).start w) : Kept config w :=
  Machine.ReachIf.invariant h .start fun _ _ _ hkept _ hstep => hkept.step hstep

end Steps

/-! ## 4. The law on every run -/

section Law

variable {config : OutboxConfig} {w : World}

/-- Every tale of a run is lawful, that of a deleted row with its deletion. -/
theorem Kept.lawful (h : Kept config w) (serial : Nat) :
    Lawful config (taleOf serial w.history) := by
  by_cases hrow : ∃ row ∈ w.rows, row.serial = serial
  · obtain ⟨row, hrow, rfl⟩ := hrow
    exact (h.lives row hrow).lawful
  rcases h.ended serial fun row hmem heq => hrow ⟨row, hmem, heq⟩ with hnil | ⟨-, hended⟩
  · rw [hnil]
    trivial
  · obtain ⟨row, past, clock, now, htale, life, hclk, hrmb⟩ := hended
    rw [htale]
    exact ⟨life.allowed_deleted hclk hrmb, life.lawful⟩

/-- **The delivery law of the outbox.**  On every run, whatever happened to a row was allowed when
it happened, no row was handed out more often than the configuration allows, and a row shows what
happened to it: how often it was handed out, and when it was published. -/
theorem outbox_delivery_law (config : OutboxConfig) (w : World)
    (h : (machine config).Reach (machine config).start w) :
    (∀ serial newer event past, taleOf serial w.history = newer ++ event :: past →
      Allowed config past event) ∧
    (∀ serial, (grants (taleOf serial w.history)).length ≤ config.maxAttempts) ∧
    (∀ row ∈ w.rows, row.attemptCount = (grants (taleOf row.serial w.history)).length ∧
      row.publishedAt = publication (taleOf row.serial w.history)) := by
  have hkept := Kept.of_reach h
  refine ⟨?_, fun serial => (hkept.lawful serial).grants_le, ?_⟩
  · intro serial newer event past htale
    have hlaw := hkept.lawful serial
    rw [htale] at hlaw
    exact hlaw.allowed
  · intro row hrow
    exact ⟨(hkept.lives row hrow).attempts_eq, (hkept.lives row hrow).publishedAt_eq⟩

/-! ### A relay with one attempt

The shortest retention and the default timeouts. -/

def oneAttempt : OutboxConfig where
  leaseOwner := "outbox-relay".toList
  claimBatch := 16
  pollInterval := second / 4
  leaseDuration := 120 * second
  publicationTimeout := 5 * second
  retryDelay := 5 * second
  shutdownTimeout := 120 * second
  maxAttempts := 1
  retention := hour
  cleanupBatch := 500
  restart := ⟨8, second / 10, 5 * second, 20⟩

/-- The only attempt fails; the row is deleted an hour after it would have been due again. -/
def recordedFailure : List Action :=
  [.append 1 0 0, .claim [7] ⟨7200000000, 7200000000, []⟩,
   .markFailed 1 7 .timeout (5 * second) ⟨7201000000, 7201000000, []⟩,
   .cleanupRetained ⟨10806000001, 10806000001, []⟩]

theorem outbox_delivery_law_recordedFailure :
    ∃ w, (machine oneAttempt).Reach (machine oneAttempt).start w ∧
      taleOf 0 w.history = [.deleted 10806000001, .failed 7 7201000000 7206000000,
        .granted ⟨7, 7200000000, 7200000000, 7320000000⟩] ∧
      (∀ serial newer event past, taleOf serial w.history = newer ++ event :: past →
        Allowed oneAttempt past event) := by
  have hre := Machine.reach_of_run (M := machine oneAttempt)
    (s := (machine oneAttempt).start) recordedFailure rfl
  exact ⟨_, hre, by decide, (outbox_delivery_law oneAttempt _ hre).1⟩

/-- The relay was down for two hours.  It claims the row and dies; the row is deleted when the
lease expires. -/
def abandonedAttempt : List Action :=
  [.append 1 0 0, .claim [7] ⟨7200000000, 7200000000, []⟩,
   .cleanupRetained ⟨7320000000, 7320000000, []⟩]

/-- **An exhausted row deleted two minutes after its only claim**, with a retention of an hour. -/
theorem exhausted_deleted_early :
    oneAttempt.validate = .ok () ∧
    ∃ w grant checkedAt, (machine oneAttempt).run (machine oneAttempt).start abandonedAttempt =
        some w ∧
      taleOf 0 w.history = [.deleted checkedAt, .granted grant] ∧
      1000 * checkedAt < 1000 * grant.grantedAt + oneAttempt.retention :=
  ⟨by decide, _, ⟨7, 7200000000, 7200000000, 7320000000⟩, 7320000000, rfl, by decide, by decide⟩

end Law

/-! ## 5. Nothing is lost -/

section Conservation

variable {config : OutboxConfig} {w w' : World}

/-- Every serial given out has a row, or something happened to it. -/
def Accounted (w : World) : Prop :=
  ∀ serial < w.appends, (∃ row ∈ w.rows, row.serial = serial) ∨ taleOf serial w.history ≠ []

theorem Accounted.later (h : Accounted w) (happs : w'.appends = w.appends)
    (hrows : ∀ row ∈ w.rows, (∃ row' ∈ w'.rows, row'.serial = row.serial) ∨
      taleOf row.serial w'.history ≠ [])
    (hhist : ∃ news, w'.history = news ++ w.history) : Accounted w' := by
  intro serial hlt
  rcases h serial (happs ▸ hlt) with ⟨row, hrow, rfl⟩ | htale
  · exact hrows row hrow
  · obtain ⟨news, hnews⟩ := hhist
    rw [hnews, taleOf_append]
    exact .inr fun hnil => htale (append_eq_nil_iff.mp hnil).2

theorem Accounted.mark (h : Accounted w) {id : Nat} {moment : Moment} {event : Event}
    {result : List OutboxEvent × Except OutboxError Unit}
    (hrows : ∀ row ∈ w.rows, ∃ row' ∈ result.1, row'.serial = row.serial) :
    Accounted (w.mark id moment event result) := by
  refine h.later rfl (fun row hrow => .inl (hrows row hrow)) ?_
  unfold World.mark
  cases result.2 with
  | ok _ => exact ⟨_, rfl⟩
  | error _ => exact ⟨[], rfl⟩

theorem mem_updateWhere {condition : OutboxEvent → Bool} {change : OutboxEvent → OutboxEvent}
    (hser : ∀ row, (change row).serial = row.serial) {rows : List OutboxEvent} :
    ∀ row ∈ rows, ∃ row' ∈ (updateWhere rows condition change).1, row'.serial = row.serial := by
  intro row hrow
  refine ⟨_, mem_map_of_mem hrow, ?_⟩
  split
  · exact hser row
  · rfl

theorem Accounted.step (h : Accounted w) (hkept : Kept config w) {action : Action}
    (hstep : (machine config).step w action = some w') : Accounted w' := by
  change World.next config w action = some w' at hstep
  cases action with
  | append id occurredAt availableAt =>
    obtain rfl := Option.some.inj hstep
    unfold World.append Outbox.append
    by_cases hid : w.rows.any (·.id = id) = true
    · simpa [hid] using h
    rw [if_neg hid]
    intro serial hlt
    rcases Nat.lt_succ_iff_lt_or_eq.mp hlt with hold | rfl
    · exact (h serial hold).imp_left fun ⟨row, hrow, heq⟩ => ⟨row, mem_append_left _ hrow, heq⟩
    · exact .inl ⟨_, mem_append_right _ (mem_singleton_self _), rfl⟩
  | claim tokens moment =>
    obtain ⟨-, rfl⟩ := admits_of_step hstep
    refine h.later rfl (fun row hrow => .inl ⟨_, mem_map_of_mem hrow, ?_⟩) ⟨_, rfl⟩
    cases suppliedLease config _ tokens moment.stampedAt row.id <;> rfl
  | markPublished id token moment =>
    obtain ⟨-, rfl⟩ := admits_of_step hstep
    refine h.mark (mem_updateWhere fun row => ?_)
    rfl
  | markFailed id token failure retryDelay moment =>
    obtain ⟨-, rfl⟩ := admits_of_step hstep
    unfold markFailed
    split
    · exact h.mark fun row hrow => ⟨row, hrow, rfl⟩
    · refine h.mark (mem_updateWhere fun row => ?_)
      rfl
  | cleanupRetained moment =>
    obtain ⟨-, rfl⟩ := admits_of_step hstep
    refine h.later rfl (fun row hrow => ?_) ⟨_, rfl⟩
    by_cases hgone : row ∈ cleanupCandidates config w.rows moment
    · have hsers : ((cleanupCandidates config w.rows moment).map (·.serial)).Nodup :=
        nodup_candidates hkept.serials
      unfold World.cleanupRetained Outbox.cleanupRetained
      rw [taleOf_append, taleOf_records hsers hgone]
      exact .inr (cons_ne_nil _ _)
    · refine .inl ⟨row, mem_filter.mpr ⟨hrow, ?_⟩, rfl⟩
      simp only [Bool.not_eq_true', contains_eq_mem, decide_eq_false_iff_not]
      intro hmem
      obtain ⟨other, hoth, hid⟩ := mem_map.mp hmem
      obtain rfl := hkept.eq_of_id (mem_candidates hoth).1 hrow hid
      exact hgone hoth

end Conservation

/-- **No event is lost.**  On every run, an event that was ever appended is in the table until the
cleanup that records its deletion, and is not in the table afterwards. -/
theorem appended_stored_until_deleted {config : OutboxConfig} {w : World}
    (h : (machine config).Reach (machine config).start w) {serial : Nat}
    (hserial : serial < w.appends) :
    (∃ row ∈ w.rows, row.serial = serial) ↔
      ∀ now, Event.deleted now ∉ taleOf serial w.history := by
  have hkept := Kept.of_reach h
  have hacc : Accounted w := (h.invariant (I := fun w => Kept config w ∧ Accounted w)
    ⟨.start, fun _ hlt => absurd hlt (Nat.not_lt_zero _)⟩
    fun _ _ _ hw _ hstep => ⟨hw.1.step hstep, hw.2.step hw.1 hstep⟩).2
  constructor
  · rintro ⟨row, hrow, rfl⟩ now hmem
    exact (hkept.lives row hrow).not_deleted _ hmem now rfl
  · intro hnot
    by_contra hnone
    rcases hkept.ended serial fun row hrow heq => hnone ⟨row, hrow, heq⟩ with hnil | ⟨-, hended⟩
    · exact (hacc serial hserial).elim hnone fun htale => htale hnil
    · obtain ⟨row, past, clock, now, htale, -⟩ := hended
      exact hnot now (htale ▸ mem_cons_self)

/-- The row is gone after the cleanup of `recordedFailure`. -/
theorem appended_stored_until_deleted_recordedFailure :
    ∃ w, (machine oneAttempt).run (machine oneAttempt).start recordedFailure = some w ∧
      w.appends = 1 ∧ ¬ ∃ row ∈ w.rows, row.serial = 0 := by
  refine ⟨_, rfl, rfl, ?_⟩
  rw [appended_stored_until_deleted (Machine.reach_of_run recordedFailure rfl) (by decide)]
  exact fun hnot => hnot 10806000001 (by decide)

end Omnius.Outbox
