/-
# Uploads: clients, workers and the object store

Every transaction commits on its own, and every external effect (a write, a read, a copy, a delete)
happens BETWEEN transactions.  A worker therefore moves in steps: it claims a row, starts its
publication if it scans, performs its effects, and finalizes under the lease it was given, if it
still holds it.  A worker that never moves again has crashed.  A fault turns the outcome of an
effect into a retry, whether or not the effect took place.

The world also records what no code can see: whether a delete followed a client's write, whether one
followed a worker's copy, and which readings the finalized runs made.

Translated from `crates/upload-workflow/src/workflow.rs` and `reconciler.rs`.
-/
import Omnius.Lib.Machine
import Omnius.Uploads.Store

namespace Omnius.Uploads

open Omnius.Lib

/-! ## 1. Objects and effects -/

structure Object where
  (size sha256 : Nat)
  mime : Option DeclaredMime
  lastModified : Nat

/-- The store enforces the length and the digest of every write to the staging key. -/
def Identity.admits (identity : Identity) (object : Object) : Bool :=
  decide (object.size = identity.declaredSize) && decide (object.sha256 = identity.expectedSha256)

inductive ScannerFailure where
  | retryable | permanent

inductive ScanVerdict where
  | clean | malicious

/-- What a scanner does with one object. -/
structure Scanner where
  (start chunk finish : Option ScannerFailure)
  verdict : ScanVerdict

/-- What an effect asks its finalization to do. -/
inductive EffectOutcome where
  | completeVerification
  | completeScanClean (startedAt : Nat)
  | completeDelete
  | reject (reason : RejectionReason)
  | retry
deriving DecidableEq

/-- Reads the staging object to its end and inspects it. -/
def verifyEffect (identity : Identity) : Option Object → EffectOutcome
  | none => .reject .missingObject
  | some object =>
    if object.size ≠ identity.declaredSize then .reject .sizeMismatch
    else if object.sha256 ≠ identity.expectedSha256 then .reject .checksumMismatch
    else if object.mime = some identity.declaredMime then .completeVerification
    else .reject .mimeMismatch

def ScannerFailure.outcome : ScannerFailure → EffectOutcome
  | .retryable => .retry
  | .permanent => .reject .scannerFailure

/-- Reads the staging object through the scanner; `none` goes on to publish it. -/
def scanEffect (identity : Identity) (scanner : Scanner) (object : Option Object) :
    Option EffectOutcome :=
  match scanner.start, object with
  | some failure, _ => some failure.outcome
  | none, none => some (.reject .missingObject)
  | none, some object =>
    if object.size ≠ identity.declaredSize then some (.reject .sizeMismatch)
    else match scanner.chunk with
      | some failure => some failure.outcome
      | none =>
        if object.sha256 ≠ identity.expectedSha256 then some (.reject .checksumMismatch)
        else if object.mime ≠ some identity.declaredMime then some (.reject .mimeMismatch)
        else match scanner.finish, scanner.verdict with
          | some failure, _ => some failure.outcome
          | none, .malicious => some (.reject .malware)
          | none, .clean => none

/-- A download read to its end: the stream checks the digest as it is read, behind the size. -/
def openDownload (identity : Identity) (db : Db) (published : Option Object) :
    Except UploadError Object :=
  match db.upload with
  | none => .error .notFound
  | some upload =>
    if upload.state ≠ .available ∨ upload.detectedMime = none then .error .state
    else match published with
      | none => .error .notFound
      | some object =>
        if object.size ≠ identity.declaredSize then .error .sizeMismatch
        else if object.sha256 ≠ identity.expectedSha256 then .error .checksumMismatch
        else .ok object

/-! ## 2. The world -/

/-- A reading of the staging object, and whether its reader held its lease then. -/
structure Reading where
  at_ : Nat
  object : Object
  live : Bool
  verdict : Option ScanVerdict

inductive Phase where
  | claimed | scanned
  | ended (outcome : EffectOutcome)
  | finished
deriving DecidableEq

/-- A worker is the lease it was given, and how far it is. -/
structure Worker extends LeasedWork where
  grantedAt : Nat
  startedAt : Option Nat
  phase : Phase
  /-- Its delete or its copy took effect. -/
  ran : Bool
  /-- A delete of the publication key took effect after its copy. -/
  overtaken : Bool
  reading : Option Reading

/-- A `put_proxied` call that passed the eligibility check. -/
structure Call where
  id : Nat
  landed : Bool
  /-- What its fence answered, and so what it returns. -/
  returned : Option PostWriteDisposition
  /-- It returned an error of the store or of the database, and has no fence any more. -/
  failed : Bool
  /-- A delete of the staging key took effect after its write. -/
  removed : Bool

structure Run where
  kind : WorkKind
  reading : Reading
  at_ : Nat

structure World where
  db : Db
  (clock tokens : Nat)
  (staging published : Option Object)
  credentials : List Nat
  listed : List ObjectKey
  calls : List Call
  /-- The `complete` calls that looked up a pending row and have not committed. -/
  completing : Nat
  workers : List Worker
  runs : List Run

structure InitiateUploadRequest where
  draft : Identity
  (directUploadExpiresIn pendingUploadTtl : Nat)

/-- The thirty seconds that a provider's clock may differ. -/
def directCredentialClockSkew : Nat := 30 * 1000000

def InitiateUploadRequest.credentialLifetime (request : InitiateUploadRequest) : Nat :=
  request.directUploadExpiresIn + directCredentialClockSkew

def InitiateUploadRequest.valid (request : InitiateUploadRequest) : Bool :=
  decide (request.draft.declaredSize ≤ 5368709120)
    && decide (0 < request.directUploadExpiresIn)
    && decide (request.directUploadExpiresIn % 1000000 = 0)
    && decide (request.pendingUploadTtl ≤ 24 * 3600 * 1000000)
    && decide (request.credentialLifetime ≤ request.pendingUploadTtl)

inductive Action where
  | tick (elapsed : Nat)
  | initiate (request : InitiateUploadRequest)
  | issueCredential (request : InitiateUploadRequest) (until_ : Nat)
  | directPut (object : Object)
  | beginPut
  | landPut (call : Nat) (object : Object)
  | fencePut (call : Nat)
  | failPut (call : Nat)
  | beginComplete
  | complete (head : Option Nat)
  | status | abandon
  | list (key : ObjectKey)
  | repair (key : ObjectKey)
  | claim (id : Nat)
  | begin_ (token : Nat)
  | read (token : Nat) (scanner : Scanner)
  | copy (token : Nat)
  | delete (token : Nat)
  | fault (token : Nat)
  | finalize (token : Nat)

/-- `prepare_effect`: the snapshot that the claim took must still allow the effect. -/
def Worker.prepared (identity : Identity) (worker : Worker) : Bool :=
  match worker.kind with
  | .delete => true
  | .verify => worker.uploadSnapshot.any fun upload => decide (upload.state = .quarantined)
  | .scan => worker.startedAt.isSome && worker.uploadSnapshot.any fun upload =>
      decide (upload.state = .quarantined)
        && decide (upload.detectedMime = some identity.declaredMime)

/-- The fenced transaction an outcome asks for. -/
def Worker.finalize (identity : Identity) (config : ReconcilerConfig) (worker : Worker)
    (outcome : EffectOutcome) (db : Db) (now : Nat) : Except UploadError Db :=
  match outcome with
  | .completeVerification => completeVerification identity worker.toLeasedWork db now
  | .completeScanClean startedAt => completeScanClean identity startedAt worker.toLeasedWork db now
  | .completeDelete => completeDelete worker.toLeasedWork db now
  | .reject reason => rejectLeased reason worker.toLeasedWork db now
  | .retry => retry config worker.toLeasedWork db now

/-- The run that a finalized worker leaves, if it completed a reading. -/
def Worker.run (worker : Worker) (outcome : EffectOutcome) (now : Nat) : List Run :=
  match outcome, worker.reading with
  | .completeVerification, some reading => [⟨.verify, reading, now⟩]
  | .completeScanClean _, some reading => [⟨.scan, reading, now⟩]
  | _, _ => []

namespace World

variable (identity : Identity) (config : ReconcilerConfig) (w : World)

def commit (result : Except UploadError Db) : World :=
  match result with
  | .ok db => { w with db }
  | .error _ => w

def setWorker (x : Worker) : World :=
  { w with workers := w.workers.map (Rows.patch (fun y => decide (y.token = x.token)) fun _ => x) }

def setCalls (condition : Call → Bool) (change : Call → Call) : World :=
  { w with calls := w.calls.map (Rows.patch condition change) }

def worker (token : Nat) : Option Worker := w.workers.find? fun x => decide (x.token = token)

def object : ObjectKey → Option Object
  | .staging => w.staging
  | .published => w.published

/-- The call whose write may land: the object store may finish a write that its call gave up. -/
def Writing (id : Nat) (call : Call) : Bool := decide (call.id = id) && !call.landed

/-- The call that has not returned yet. -/
def Waiting (id : Nat) (call : Call) : Bool :=
  decide (call.id = id) && !call.failed && call.returned.isNone

/-- The call that may run its fence. -/
def Written (id : Nat) (call : Call) : Bool := call.landed && Waiting id call

def put (object : Object) : World :=
  { w with staging := some { object with lastModified := w.clock } }

/-- Removes an object, and records whose write or copy it undoes. -/
def erase : ObjectKey → World
  | .staging => { w with
      staging := none
      calls := w.calls.map (Rows.patch (·.landed) fun call => { call with removed := true }) }
  | .published => { w with
      published := none
      workers := w.workers.map fun x => { x with overtaken := true } }

/-- Verify workers end with their reading; scan workers go on when it is clean. -/
def readWith (scanner : Scanner) (x : Worker) : Worker :=
  let live := w.db.works.any (x.toLeasedWork.holds w.clock)
  let reading (verdict : Option ScanVerdict) : Option Reading :=
    w.staging.map fun object => ⟨w.clock, object, live, verdict⟩
  if x.kind = .verify then
    { x with phase := .ended (verifyEffect identity w.staging), reading := reading none }
  else match scanEffect identity scanner w.staging with
    | none => { x with phase := .scanned, reading := reading (some .clean) }
    | some outcome => { x with phase := .ended outcome, reading := none }

/-- Copies the staging object over the publication key. -/
def publish (x : Worker) (startedAt : Nat) : World :=
  match w.staging with
  | none => w.setWorker { x with phase := .ended (.reject .missingObject) }
  | some object =>
    { w with published := some { object with lastModified := w.clock } }.setWorker
      { x with phase := .ended (.completeScanClean startedAt), ran := true, overtaken := false }

def claimed (id : Nat) : World :=
  match claim config id w.tokens w.db w.clock with
  | (none, db) => { w with db }
  | (some work, db) =>
    { w with
      db
      tokens := w.tokens + 1
      workers := w.workers ++ [{ work with
        grantedAt := w.clock, startedAt := none, phase := .claimed, ran := false
        overtaken := false, reading := none }] }

/-- A worker is finished whether or not its transaction commits. -/
def finalized (x : Worker) (outcome : EffectOutcome) : World :=
  let after := w.setWorker { x with phase := .finished }
  match x.finalize identity config outcome w.db w.clock with
  | .ok db => { after with db, runs := w.runs ++ x.run outcome w.clock }
  | .error _ => after

/-- A worker's action, in the phase it needs. -/
def withWorker (token : Nat) (enabled : Worker → Bool) (move : Worker → World) : Option World :=
  ((w.worker token).filter enabled).map move

def act : Action → Option World
  | .tick elapsed => some { w with clock := w.clock + elapsed }
  | .initiate request =>
    if request.valid then
      some (w.commit (initiate identity request.draft request.pendingUploadTtl w.db w.clock))
    else none
  | .issueCredential request until_ =>
    -- The provider signs before the deadline is stored, and its clock may be ahead.
    if request.valid && decide (until_ ≤ w.clock + request.credentialLifetime) then
      match persistDirectCredentialExpiry request.credentialLifetime request.pendingUploadTtl w.db
          w.clock with
      | (true, db) => some { w with db, credentials := until_ :: w.credentials }
      | (false, _) => some w
    else none
  | .directPut object =>
    if w.credentials.any (fun until_ => decide (w.clock ≤ until_)) && identity.admits object then
      some (w.put object)
    else none
  | .beginPut =>
    -- A call for a row that is not pending, or not any more, returns its error at once.
    if pendingIsLive w.db w.clock then
      some { w with calls := w.calls ++ [⟨w.calls.length, false, none, false, false⟩] }
    else some w
  | .landPut id object =>
    if w.calls.any (Writing id) && identity.admits object then
      some ((w.put object).setCalls (Writing id) fun call => { call with landed := true })
    else none
  | .fencePut id =>
    if w.calls.any (Written id) then
      match fenceProxiedWrite w.db w.clock with
      | .ok (disposition, db) =>
        some ({ w with db }.setCalls (Written id)
          fun call => { call with returned := some disposition })
      | .error _ => some (w.setCalls (Written id) fun call => { call with failed := true })
    else none
  | .failPut id =>
    -- The write failed, or the transaction of its fence did; the object may be there or not.
    if w.calls.any (Waiting id) then
      some (w.setCalls (Waiting id) fun call => { call with failed := true })
    else none
  | .beginComplete =>
    if w.db.upload.any fun upload => decide (upload.state = .pendingUpload) then
      some { w with completing := w.completing + 1 }
    else some w
  | .complete head =>
    if 0 < w.completing then
      some ({ w with completing := w.completing - 1 }.commit (complete identity head w.db w.clock))
    else none
  | .status => some { w with db := expirePending w.db w.clock }
  | .abandon => some (w.commit (abandon w.db w.clock))
  | .list key =>
    if (w.object key).any fun object => decide (object.lastModified + config.orphanGrace ≤ w.clock)
    then some { w with listed := key :: w.listed }
    else none
  | .repair key =>
    if w.listed.contains key && !objectIsKnown key w.db w.clock then
      some { w with db := scheduleOrphanDelete key w.db w.clock }
    else none
  | .claim id => some (w.claimed config id)
  | .begin_ token =>
    w.withWorker token (fun x => decide (x.phase = .claimed) && decide (x.kind = .scan)
      && x.startedAt.isNone) fun x => match beginPublication config x.toLeasedWork w.db w.clock with
      | .ok db =>
        { w with db }.setWorker { x with grantedAt := w.clock, startedAt := some w.clock }
      | .error _ => w.setWorker { x with phase := .finished }
  | .read token scanner =>
    w.withWorker token (fun x => decide (x.phase = .claimed) && decide (x.kind ≠ .delete)
      && x.prepared identity) fun x => w.setWorker (w.readWith identity scanner x)
  | .copy token =>
    w.withWorker token (fun x => decide (x.phase = .scanned)) fun x =>
      w.publish x (x.startedAt.getD 0)
  | .delete token =>
    w.withWorker token (fun x => decide (x.phase = .claimed) && decide (x.kind = .delete)) fun x =>
      (w.erase x.key).setWorker { x with phase := .ended .completeDelete, ran := true }
  | .fault token =>
    w.withWorker token (fun x => decide (x.phase ≠ .finished)) fun x =>
      w.setWorker { x with phase := .ended .retry }
  | .finalize token =>
    (w.worker token).bind fun x => match x.phase with
      | .ended outcome => some (w.finalized identity config x outcome)
      | _ => none

end World

/-- Before the upload is initiated. -/
def machine (identity : Identity) (config : ReconcilerConfig) : Machine World Action where
  start := ⟨⟨none, []⟩, 0, 0, none, none, [], [], [], 0, [], []⟩
  step w a := w.act identity config a

/-! ## 3. A sample upload -/

def sampleIdentity : Identity := ⟨5, 7, .pdf⟩

def sampleObject : Object := ⟨5, 7, some .pdf, 0⟩

def sampleRequest : InitiateUploadRequest := ⟨sampleIdentity, 10000000, 60000000⟩

def cleanScanner : Scanner := ⟨none, none, none, .clean⟩

/-- Leases of 35 seconds, for effects of 30. -/
def sampleConfig : ReconcilerConfig :=
  ⟨35000000, 30000000, 5000000, 5, 1000, 1000000, 60000000, by decide, by decide, by decide,
    by decide, by decide, by decide⟩

abbrev sample : Machine World Action := machine sampleIdentity sampleConfig

end Omnius.Uploads
