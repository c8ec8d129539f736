/-
# Uploads: the two tables and their transactions

One upload has TWO object keys: staging, where clients write, and publication, where downloads read.
Its row holds the state; the reconciliation rows hold the durable work on its keys, each under a
lease with a token of its own.  A partial unique index allows one UNFINISHED row per key and kind,
and an insertion that meets it does nothing.

Rows of other uploads have other keys and are left out.  A transaction reads the database clock
once.

Translated from `crates/upload-workflow/src/repository.rs`.
-/
import Mathlib.Algebra.Ring.Nat
import Omnius.Lib.Attempt
import Omnius.Lib.Rows

namespace Omnius.Uploads

open Omnius.Lib

/-! ## 1. Rows -/

inductive UploadState where
  | pendingUpload | quarantined | available | rejected | deleted
deriving DecidableEq

inductive RejectionReason where
  | missingObject | sizeMismatch | checksumMismatch | mimeMismatch | malware | scannerFailure
  | pendingExpired | abandoned
deriving DecidableEq

inductive WorkKind where
  | verify | scan | delete
deriving DecidableEq

inductive DeclaredMime where
  | png | jpeg | gif | pdf | zip
deriving DecidableEq

inductive ObjectKey where
  | staging | published
deriving DecidableEq

inductive UploadError where
  | invalid | notFound | conflict | state | sizeMismatch | checksumMismatch | lostLease

/-- What a row keeps for ever. -/
structure Identity where
  (declaredSize expectedSha256 : Nat)
  declaredMime : DeclaredMime
deriving DecidableEq

/-- What a row may change. -/
structure Upload where
  state : UploadState
  rejectionReason : Option RejectionReason
  directCredentialExpiresAt : Option Nat
  pendingExpiresAt : Nat
  detectedMime : Option DeclaredMime
  verifiedAt : Option Nat

structure Lease where
  (token expiresAt : Nat)

/-- A row of the reconciliation table; a row that is not `referenced` has no upload. -/
structure Work where
  id : Nat
  referenced : Bool
  key : ObjectKey
  kind : WorkKind
  availableAt : Option Nat
  attemptCount : Nat
  lease : Option Lease
  completedAt : Option Nat

def Work.unfinished (work : Work) : Bool := work.completedAt.isNone

def Work.leaseLive (now : Nat) (work : Work) : Bool :=
  work.lease.any fun lease => decide (now < lease.expiresAt)

/-- Whether the row is leased under a token. -/
def Work.heldBy (token : Nat) (work : Work) : Bool :=
  work.lease.any fun lease => decide (lease.token = token)

structure Db where
  upload : Option Upload
  works : List Work

/-- The bounds of `ReconcilerConfig::validate` that the workers rely on, in microseconds. -/
structure ReconcilerConfig where
  (leaseDuration workTimeout finalizationMargin maxAttempts initialRetry maxRetry orphanGrace : Nat)
  timeoutPositive : 0 < workTimeout
  marginBounds : 0 < finalizationMargin ∧ finalizationMargin ≤ 60 * 1000000
  leaseBounds : workTimeout + finalizationMargin ≤ leaseDuration ∧
    leaseDuration ≤ 24 * 3600 * 1000000
  attemptBounds : 0 < maxAttempts ∧ maxAttempts ≤ 100
  retryBounds : 0 < initialRetry ∧ initialRetry ≤ maxRetry ∧ maxRetry ≤ 24 * 3600 * 1000000
  graceBounds : 60 * 1000000 ≤ orphanGrace ∧ orphanGrace ≤ 720 * 3600 * 1000000

def ReconcilerConfig.retryDelay (config : ReconcilerConfig) (attemptCount : Nat) : Nat :=
  min (config.initialRetry * 2 ^ min (attemptCount - 1) 31) config.maxRetry

/-! ## 2. Work rows -/

/-- `ON CONFLICT … WHERE completed_at IS NULL DO NOTHING`. -/
def insertWork (referenced : Bool) (key : ObjectKey) (kind : WorkKind) (ready : Bool) (now : Nat)
    (works : List Work) : List Work :=
  if works.any fun work => decide (work.key = key) && decide (work.kind = kind) && work.unfinished
  then works
  else works ++ [⟨works.length, referenced, key, kind, if ready then some now else none, 0, none,
    none⟩]

def Work.finish (now : Nat) (work : Work) : Work :=
  { work with lease := none, completedAt := some now }

/-- `available_at` moves forward only. -/
def Work.postpone (now notBefore : Nat) (work : Work) : Work :=
  { work with availableAt := some (max (work.availableAt.getD now) notBefore) }

/-- A delete that nobody holds starts its attempts again. -/
def Work.renew (now notBefore : Nat) (work : Work) : Work :=
  { work.postpone now notBefore with
    attemptCount := if work.leaseLive now then work.attemptCount else 0 }

def ensureReferencedDeleteWork (upload : Upload) (now : Nat) (works : List Work) : List Work :=
  (insertWork true .staging .delete true now works).map
    (Rows.patch (fun work => work.referenced && decide (work.kind = .delete) && work.unfinished)
      (Work.renew now (upload.directCredentialExpiresAt.getD now)))

def ensureOrphanDeleteWork (key : ObjectKey) (now : Nat) (works : List Work) : List Work :=
  (insertWork false key .delete true now works).map
    (Rows.patch (fun work => decide (work.key = key) && decide (work.kind = .delete)
      && work.unfinished) (Work.renew now now))

/-- Takes unfinished work away from whoever holds it. -/
def revokeWork (condition : Work → Bool) (now : Nat) (works : List Work) : List Work :=
  works.map (Rows.patch (fun work => condition work && work.unfinished) (Work.finish now))

/-! ## 3. Transactions of the workflow -/

def Upload.reject (reason : RejectionReason) (upload : Upload) : Upload :=
  { upload with state := .rejected, rejectionReason := some reason }

def Upload.pendingExpired (now : Nat) (upload : Upload) : Bool :=
  decide (upload.state = .pendingUpload) && decide (upload.pendingExpiresAt ≤ now)

def rejectExpiredPending (upload : Upload) (works : List Work) (now : Nat) : Db :=
  { upload := some (upload.reject .pendingExpired)
    works := ensureReferencedDeleteWork (upload.reject .pendingExpired) now
      (revokeWork (fun work => decide (work.kind = .verify)) now works) }

/-- The expiry that every reading of a pending row materializes. -/
def expirePending (db : Db) (now : Nat) : Db :=
  match db.upload with
  | none => db
  | some upload =>
    if upload.pendingExpired now then rejectExpiredPending upload db.works now else db

def initiate (identity draft : Identity) (pendingTtl : Nat) (db : Db) (now : Nat) :
    Except UploadError Db :=
  match db.upload with
  | none =>
    .ok { upload := some ⟨.pendingUpload, none, none, now + pendingTtl, none, none⟩
          works := insertWork true .staging .verify false now db.works }
  | some upload =>
    if draft ≠ identity then .error .conflict
    else if upload.state ≠ .pendingUpload then .ok db
    else if upload.pendingExpiresAt ≤ now then .ok (rejectExpiredPending upload db.works now)
    else
      .ok { upload := some { upload with
              pendingExpiresAt := max upload.pendingExpiresAt (now + pendingTtl) }
            works := insertWork true .staging .verify false now db.works }

/-- `false` when completion or expiry won the race. -/
def persistDirectCredentialExpiry (lifetime pendingTtl : Nat) (db : Db) (now : Nat) : Bool × Db :=
  match db.upload with
  | none => (false, db)
  | some upload =>
    if upload.state = .pendingUpload ∧ now < upload.pendingExpiresAt then
      (true, { db with upload := some { upload with
        directCredentialExpiresAt :=
          some (max (upload.directCredentialExpiresAt.getD now) (now + lifetime))
        pendingExpiresAt := max upload.pendingExpiresAt (now + pendingTtl) } })
    else (false, db)

def pendingIsLive (db : Db) (now : Nat) : Bool :=
  db.upload.any fun upload =>
    decide (upload.state = .pendingUpload) && decide (now < upload.pendingExpiresAt)

inductive PostWriteDisposition where
  | safeToAcknowledge | deleteScheduled

def fenceProxiedWrite (db : Db) (now : Nat) : Except UploadError (PostWriteDisposition × Db) :=
  match db.upload with
  | none => .error .notFound
  | some upload =>
    match upload.state with
    | .pendingUpload =>
      if upload.pendingExpiresAt ≤ now then
        .ok (.deleteScheduled, rejectExpiredPending upload db.works now)
      else .ok (.safeToAcknowledge, db)
    | .quarantined => .ok (.safeToAcknowledge, db)
    | .available =>
      .ok (.safeToAcknowledge,
        { db with works := ensureOrphanDeleteWork .staging now db.works })
    | .rejected | .deleted =>
      .ok (.deleteScheduled, { db with works := ensureReferencedDeleteWork upload now db.works })

/-- Verification becomes claimable once the last direct credential has expired. -/
def activateVerify (upload : Upload) (now : Nat) (works : List Work) : List Work :=
  works.map (Rows.patch (fun work => decide (work.kind = .verify) && work.unfinished)
    fun work => { work with availableAt := some (max now
      (max (upload.directCredentialExpiresAt.getD now) (work.availableAt.getD now))) })

def activateVerification (db : Db) (now : Nat) : Except UploadError Db :=
  match db.upload with
  | none => .error .notFound
  | some upload =>
    match upload.state with
    | .pendingUpload =>
      if upload.pendingExpiresAt ≤ now then .ok (rejectExpiredPending upload db.works now)
      else .ok { upload := some { upload with state := .quarantined }
                 works := activateVerify upload now db.works }
    | .quarantined => .ok { db with works := activateVerify upload now db.works }
    | _ => .ok db

/-- A rejected row is given its delete again; unleased verification is closed. -/
def rejectPending (reason : RejectionReason) (db : Db) (now : Nat) : Except UploadError Db :=
  match db.upload with
  | none => .error .notFound
  | some upload =>
    let upload := if upload.state = .pendingUpload then upload.reject reason else upload
    if upload.state = .rejected then
      let works := (insertWork true .staging .delete true now db.works).map
        (Rows.patch (fun work => work.referenced && decide (work.kind = .delete)
            && work.unfinished)
          (Work.postpone now (upload.directCredentialExpiresAt.getD now)))
      .ok { upload := some upload
            works := revokeWork (fun work => decide (work.kind = .verify) && work.lease.isNone)
              now works }
    else .ok db

/-- The transaction of a `complete` that looked up a pending row, given the size that `head` found.
It locks the row anew, whatever state the row is in by then. -/
def complete (identity : Identity) (head : Option Nat) (db : Db) (now : Nat) :
    Except UploadError Db :=
  match head with
  | none => rejectPending .missingObject db now
  | some size =>
    if size ≠ identity.declaredSize then rejectPending .sizeMismatch db now
    else activateVerification db now

/-- Cleanup waits for the leases it takes away. -/
def scheduleAbandonedCleanup (upload : Upload) (works : List Work) (now : Nat) : List Work :=
  let effects : Work → Bool := fun work => decide (work.kind ≠ .delete)
  let leases := works.filterMap fun work => if effects work && work.unfinished then
    work.lease.map (·.expiresAt) else none
  let notBefore := leases.foldl max now
  (ensureOrphanDeleteWork .published now
    (ensureReferencedDeleteWork upload now (revokeWork effects now works))).map
    (Rows.patch (fun work => decide (work.kind = .delete) && work.unfinished)
      (Work.postpone notBefore notBefore))

def abandon (db : Db) (now : Nat) : Except UploadError Db :=
  match db.upload with
  | none => .error .notFound
  | some upload =>
    match upload.state with
    | .available => .error .state
    | .pendingUpload | .quarantined =>
      let upload := upload.reject .abandoned
      .ok ⟨some upload, scheduleAbandonedCleanup upload db.works now⟩
    | .rejected | .deleted =>
      if upload.rejectionReason = some .abandoned then
        .ok { db with works := scheduleAbandonedCleanup upload db.works now }
      else .ok db

/-- Whether a key has a role in the upload's state. -/
def objectIsKnown (key : ObjectKey) (db : Db) (now : Nat) : Bool :=
  db.upload.any fun upload => match key, upload.state with
    | .staging, .quarantined | .staging, .rejected | .published, .available => true
    | .staging, .pendingUpload => decide (now < upload.pendingExpiresAt)
    | _, _ => false

/-- Before the upload is there, its keys name nothing. -/
def scheduleOrphanDelete (key : ObjectKey) (db : Db) (now : Nat) : Db :=
  match db.upload with
  | none => db
  | some upload =>
    if key = .staging && upload.pendingExpired now then rejectExpiredPending upload db.works now
    else match key, upload.state with
      | .staging, .pendingUpload | .staging, .quarantined | .staging, .rejected
      | .published, .available => db
      | _, _ => { db with works := insertWork false key .delete true now db.works }

/-! ## 4. Transactions of the reconciler -/

/-- A claimed row as its worker knows it. -/
structure LeasedWork where
  id : Nat
  referenced : Bool
  key : ObjectKey
  kind : WorkKind
  (token attemptCount : Nat)
  uploadSnapshot : Option Upload

def Work.claimable (config : ReconcilerConfig) (now : Nat) (work : Work) : Bool :=
  work.unfinished && work.availableAt.any (fun at_ => decide (at_ ≤ now))
    && decide (work.attemptCount < config.maxAttempts) && !work.leaseLive now

def Work.claim (config : ReconcilerConfig) (token now : Nat) (work : Work) : Work :=
  { work with
    lease := some ⟨token, now + config.leaseDuration⟩, attemptCount := work.attemptCount + 1 }

/-- Claims the row `id`, if it is ready.  A batch claims several rows at one instant. -/
def claim (config : ReconcilerConfig) (id token : Nat) (db : Db) (now : Nat) :
    Option LeasedWork × Db :=
  let db := expirePending db now
  match db.works.find? fun work => decide (work.id = id) && work.claimable config now with
  | none => (none, db)
  | some work =>
    (some ⟨work.id, work.referenced, work.key, work.kind, token, work.attemptCount + 1,
        if work.kind = .delete then none else db.upload⟩,
      { db with works := db.works.map (Rows.patch
          (fun other => decide (other.id = id) && other.claimable config now)
          (Work.claim config token now)) })

/-- The row of a worker that still holds its lease; the key of a row never changes. -/
def LeasedWork.holds (work : LeasedWork) (now : Nat) (row : Work) : Bool :=
  decide (row.id = work.id) && row.heldBy work.token && decide (row.kind = work.kind)
    && decide (row.key = work.key) && row.unfinished && row.leaseLive now

/-- `lock_live_work`, with the update that the fenced statement makes. -/
def LeasedWork.update (work : LeasedWork) (change : Work → Work) (works : List Work) (now : Nat) :
    Except UploadError (List Work) :=
  if works.any (work.holds now) then .ok (works.map (Rows.patch (work.holds now) change))
  else .error .lostLease

def beginPublication (config : ReconcilerConfig) (work : LeasedWork) (db : Db) (now : Nat) :
    Except UploadError Db := do
  deny (decide (work.kind ≠ .scan)) .state
  let works ← work.update
    (fun row => { row with lease := some ⟨work.token, now + config.leaseDuration⟩ }) db.works now
  .ok { db with works }

def completeVerification (identity : Identity) (work : LeasedWork) (db : Db) (now : Nat) :
    Except UploadError Db := do
  let works ← work.update (Work.finish now) db.works now
  match db.upload with
  | none => .error .state
  | some upload =>
    deny (decide (work.kind ≠ .verify) || decide (upload.state ≠ .quarantined)) .state
    .ok { upload := some { upload with
            detectedMime := some identity.declaredMime, verifiedAt := some now }
          works := insertWork true .staging .scan true now works }

/-- Refuses when a delete of the publication key may have followed the copy; otherwise closes the
deletes that nobody holds. -/
def fencePublishedDeletes (startedAt : Nat) (works : List Work) (now : Nat) :
    Except UploadError (List Work) :=
  let deletes : Work → Bool := fun work =>
    decide (work.key = .published) && decide (work.kind = .delete)
  if works.any fun work => deletes work
      && (work.completedAt.any (fun at_ => decide (startedAt ≤ at_))
        || (work.unfinished && work.leaseLive now)) then .error .lostLease
  else .ok (revokeWork deletes now works)

def completeScanClean (identity : Identity) (startedAt : Nat) (work : LeasedWork) (db : Db)
    (now : Nat) : Except UploadError Db := do
  let finished ← work.update (Work.finish now) db.works now
  match db.upload with
  | none => .error .notFound
  | some upload =>
    deny (decide (work.kind ≠ .scan) || decide (upload.state ≠ .quarantined)) .state
    let works ← fencePublishedDeletes startedAt finished now
    deny (upload.verifiedAt.isNone || decide (upload.detectedMime ≠ some identity.declaredMime))
      .state
    .ok { upload := some { upload with state := .available }
          works := ensureOrphanDeleteWork .staging now works }

def rejectLeased (reason : RejectionReason) (work : LeasedWork) (db : Db) (now : Nat) :
    Except UploadError Db := do
  let works ← work.update (Work.finish now) db.works now
  match db.upload with
  | none => .error .state
  | some upload =>
    deny (decide (work.kind = .delete) || decide (upload.state ≠ .quarantined)) .state
    .ok ⟨some (upload.reject reason), insertWork true .staging .delete true now works⟩

/-- The row of a referenced delete moves to `deleted`. -/
def markDeleted (work : LeasedWork) (upload : Option Upload) :
    Except UploadError (Option Upload) :=
  if !work.referenced then .ok upload
  else match upload with
    | none => .error .state
    | some upload =>
      if upload.state = .rejected ∨ upload.state = .deleted then
        .ok (some { upload with state := .deleted })
      else .error .state

def completeDelete (work : LeasedWork) (db : Db) (now : Nat) : Except UploadError Db := do
  deny (decide (work.kind ≠ .delete)) .state
  let works ← work.update (Work.finish now) db.works now
  let upload ← markDeleted work db.upload
  .ok ⟨upload, works⟩

def retry (config : ReconcilerConfig) (work : LeasedWork) (db : Db) (now : Nat) :
    Except UploadError Db := do
  let works ← work.update
    (fun row => { row with
      lease := none, availableAt := some (now + config.retryDelay work.attemptCount) })
    db.works now
  .ok { db with works }

end Omnius.Uploads
