/-
# The transactions of the authorization server

Each function below is one transaction of the store or of the adapter over it: it ends with an
answer and the database it committed, or with an error after which the database is what it was.

The row that decides a rotation, and the one that decides a code exchange, is read `FOR UPDATE`, so
it cannot change before the transaction ends.  The GRANT is read without a lock: another transaction
may revoke it between that reading and the commit.  Such a transaction therefore takes the reading
of the grants as an argument, `load`, which is `Db.loadLiveGrant` of the database the grant was read
in.

Translated from `crates/auth-oauth-server/src/store/token.rs` and `grant.rs`.
-/
import Mathlib.Data.List.Sort
import Omnius.OAuth.Tables

namespace Omnius.OAuth

open Omnius.Lib

/-! ## 1. Reading a grant -/

def Directory.admits (directory : Directory) (userId : Nat) (tenantId : Option Nat) : Bool :=
  directory.activeUsers.contains userId
    && tenantId.all fun tenantId => directory.memberships.contains (userId, tenantId)

namespace Db

variable (db : Db)

/-- The condition every query for a live grant repeats. -/
def liveGrant (grant : Grant) : Bool :=
  grant.revokedAt.isNone && db.directory.activeClients.contains grant.clientId
    && db.directory.admits grant.userId grant.tenantId

def findGrant (grantId : Nat) : Option Grant := db.grants.find? (·.id = grantId)

def findFamily (familyId : Nat) : Option RefreshFamily :=
  db.families.find? (·.id = familyId)

def findToken (digest : Nat) : Option RefreshToken :=
  db.tokens.find? (·.tokenDigest = digest)

def findCode (digest : Nat) : Option AuthorizationCode :=
  db.codes.find? (·.codeDigest = digest)

def loadLiveGrant (grantId : Nat) : Option Grant :=
  (db.findGrant grantId).filter db.liveGrant

end Db

/-! ## 2. Consent and code -/

structure GrantCreate where
  userId : Nat
  publicSubject : List Char
  tenantId : Option Nat
  clientId : Nat
  resources : List Nat
  grantedScopes : List Scope
  authenticatedAt : Nat
  assuranceLevel : AssuranceLevel
  authenticationMethods : List AuthMethod
  consentedAt : Nat

/-- The database form of a list of scopes, if it is canonical. -/
def scopeValues (scopes : List Scope) : Except OAuthStoreError (List Scope) :=
  if maxScopes < scopes.length || !strictlySorted scopes then .error .invalidInput else .ok scopes

def resourceValues (resources : List Nat) : Except OAuthStoreError (List Nat) :=
  if maxResources < resources.length || !strictlySorted resources then .error .invalidInput
  else .ok resources

/-- The methods come in the order of their database names; that they are distinct is what the check
of the row says, and what is kept of the order here. -/
def validateGrantCreate (input : GrantCreate) : Except OAuthStoreError Unit := do
  deny (input.consentedAt < input.authenticatedAt || input.authenticationMethods.isEmpty
    || maxAuthMethods < input.authenticationMethods.length || input.grantedScopes.isEmpty)
    .invalidInput
  let _ ← resourceValues input.resources
  let _ ← scopeValues input.grantedScopes
  deny (!decide input.authenticationMethods.Nodup) .invalidInput

def createGrant (db : Db) (grantId : Nat) (input : GrantCreate) : Except OAuthStoreError Db := do
  validateGrantCreate input
  deny (!db.directory.activeClients.contains input.clientId
    || !db.directory.admits input.userId input.tenantId) .inactive
  db.insertGrant
    { id := grantId, userId := input.userId, publicSubject := input.publicSubject,
      tenantId := input.tenantId, clientId := input.clientId, resources := input.resources,
      grantedScopes := input.grantedScopes, authenticatedAt := input.authenticatedAt,
      assuranceLevel := input.assuranceLevel,
      authenticationMethods := input.authenticationMethods, consentedAt := input.consentedAt,
      createdAt := input.consentedAt, updatedAt := input.consentedAt, revokedAt := none }

structure AuthorizationCodeCreate where
  (codeDigest grantId clientId redirectUri : Nat)
  resourceUris : List Nat
  grantedScopes : List Scope
  pkceCodeChallenge : Nat
  nonce : Option (List Char)
  (issuedAt expiresAt : Nat)

def maxNonceBytes : Nat := 255

/-- Visible ASCII only, so that bytes are characters. -/
def validVisibleText (maximum : Nat) (value : List Char) : Bool :=
  !value.isEmpty && decide (value.length ≤ maximum)
    && value.all fun c => decide (0x21 ≤ c.toNat) && decide (c.toNat ≤ 0x7e)

def validateAuthorizationCode (input : AuthorizationCodeCreate) : Except OAuthStoreError Unit := do
  deny (input.expiresAt ≤ input.issuedAt || input.issuedAt + 10 * minute < input.expiresAt
    || input.nonce.any (fun value => !validVisibleText maxNonceBytes value)
    || input.grantedScopes.isEmpty) .invalidInput
  let _ ← resourceValues input.resourceUris
  let _ ← scopeValues input.grantedScopes

/-- The row an accepted input becomes. -/
def AuthorizationCodeCreate.row (input : AuthorizationCodeCreate) (codeId : Nat) :
    AuthorizationCode :=
  { id := codeId, codeDigest := input.codeDigest, grantId := input.grantId,
    clientId := input.clientId, redirectUri := input.redirectUri,
    resourceUris := input.resourceUris, grantedScopes := input.grantedScopes,
    pkceCodeChallenge := input.pkceCodeChallenge, nonce := input.nonce,
    issuedAt := input.issuedAt, expiresAt := input.expiresAt, consumedAt := none,
    exchangeOutcome := none }

/-- The insertion selects its live, covering grant in the same statement and under a shared lock. -/
def persistAuthorizationCode (db : Db) (codeId : Nat) (input : AuthorizationCodeCreate) :
    Except OAuthStoreError Db := do
  validateAuthorizationCode input
  match db.loadLiveGrant input.grantId with
  | none => .error .inactive
  | some grant =>
    if grant.clientId = input.clientId && input.resourceUris.all grant.resources.contains
        && input.grantedScopes.all grant.grantedScopes.contains then
      db.insertCode (input.row codeId)
    else .error .inactive

/-! ## 3. Exchanging a code -/

structure AuthorizationCodeBinding where
  (clientId redirectUri : Nat)
  resourceUris : List Nat
  pkceVerifier : Nat

inductive AuthorizationCodeRejection where
  | expired | bindingMismatch | storedBindingViolation | inactive

structure ConsumedAuthorizationCode where
  grant : Grant
  redirectUri : Nat
  resourceUris : List Nat
  grantedScopes : List Scope
  nonce : Option (List Char)

inductive AuthorizationCodeExchange where
  | issued (consumed : ConsumedAuthorizationCode)
  | rejected (rejection : AuthorizationCodeRejection)
  | unavailable

/-- Both lists are canonical, and a binary search in a canonical list finds its members. -/
def sortedSubset {α : Type} [DecidableEq α] (candidate allowed : List α) : Bool :=
  candidate.all fun value => allowed.contains value

section Exchange

variable (challenge : Nat → Nat)

/-- Exact equality of everything the code is bound to. -/
def AuthorizationCode.bindingMatches (stored : AuthorizationCode)
    (binding : AuthorizationCodeBinding) : Bool :=
  decide (stored.clientId = binding.clientId) && decide (stored.redirectUri = binding.redirectUri)
    && decide (stored.resourceUris = binding.resourceUris)
    && decide (stored.pkceCodeChallenge = challenge binding.pkceVerifier)

/-- What the row, the grant it names and the reading of the live grant say about an exchange. -/
def AuthorizationCode.rejection (stored : AuthorizationCode) (grant : Grant)
    (binding : AuthorizationCodeBinding) (liveGrant : Option Grant) (now : Nat) :
    Option AuthorizationCodeRejection :=
  if stored.expiresAt ≤ now then some .expired
  else if !(sortedSubset stored.resourceUris grant.resources
      && sortedSubset stored.grantedScopes grant.grantedScopes) then some .storedBindingViolation
  else if !stored.bindingMatches challenge binding then some .bindingMismatch
  else if liveGrant.isNone then some .inactive
  else none

/-- A code that is recognised is consumed, whatever the exchange then says. -/
def consumeAuthorizationCodeWith (load : Nat → Option Grant) (db : Db) (digest : Nat)
    (binding : AuthorizationCodeBinding) (now : Nat) :
    Except OAuthStoreError (AuthorizationCodeExchange × Db) := do
  let _ ← resourceValues binding.resourceUris
  match (db.findCode digest).filter (·.consumedAt.isNone) with
  | none => .ok (.unavailable, db)
  | some stored =>
    match db.findGrant stored.grantId with
    | none => .ok (.unavailable, db)
    | some grant =>
      deny (now < stored.issuedAt) .invalidInput
      let liveGrant := load stored.grantId
      let rejection := stored.rejection challenge grant binding liveGrant now
      let outcome := if rejection.isSome then ExchangeOutcome.rejected else .issued
      let db ← db.updateCodes (·.id = stored.id) fun code =>
        { code with consumedAt := some now, exchangeOutcome := some outcome }
      match rejection, liveGrant with
      | some rejection, _ => .ok (.rejected rejection, db)
      | none, none => .error .corruptData
      | none, some grant =>
        .ok (.issued ⟨grant, stored.redirectUri, stored.resourceUris, stored.grantedScopes,
          stored.nonce⟩, db)

structure RefreshFamilyIssue where
  (grantId clientId resource : Nat)
  grantedScopes : List Scope
  (tokenDigest issuedAt expiresAt : Nat)

def RefreshFamilyIssue.family (input : RefreshFamilyIssue) (familyId : Nat) : RefreshFamily :=
  { id := familyId, grantId := input.grantId, clientId := input.clientId,
    resourceUri := input.resource, grantedScopes := input.grantedScopes,
    createdAt := input.issuedAt, expiresAt := input.expiresAt, revokedAt := none,
    revocationReason := none, reuseDetectedAt := none }

def RefreshFamilyIssue.token (input : RefreshFamilyIssue) (familyId tokenId : Nat) :
    RefreshToken :=
  { id := tokenId, familyId, grantId := input.grantId, tokenDigest := input.tokenDigest,
    rotationSequence := 0, issuedAt := input.issuedAt, expiresAt := input.expiresAt,
    consumedAt := none, replacedById := none, revokedAt := none, reuseDetectedAt := none }

/-- A family with its first token.  The grant is locked, so its reading is the current one. -/
def issueRefreshFamilyWith (db : Db) (familyId tokenId : Nat) (input : RefreshFamilyIssue) :
    Except OAuthStoreError Db := do
  deny (input.expiresAt ≤ input.issuedAt || input.issuedAt + 90 * day < input.expiresAt
    || input.grantedScopes.isEmpty) .invalidInput
  let _ ← scopeValues input.grantedScopes
  match (db.loadLiveGrant input.grantId).filter (·.clientId = input.clientId) with
  | none => .error .inactive
  | some grant =>
    deny (!grant.resources.contains input.resource
      || !sortedSubset input.grantedScopes grant.grantedScopes) .inactive
    let db ← db.insertFamily (input.family familyId)
    db.insertToken (input.token familyId tokenId)

/-- What the service signs its tokens from. -/
structure TokenGrantContext where
  (grantId clientId : Nat)
  publicSubject : List Char
  resource : Nat
  scopes : List Scope
  authTime : Nat
  acr : AssuranceLevel
  amr : List AuthMethod
  (nonce verifiedEmail : Option (List Char))
  refreshAllowed : Bool
deriving DecidableEq

/-- The adapter's operations answer every failure with one error. -/
inductive StateStoreError where
  | unavailable
deriving DecidableEq

def stateStore {α : Type} : Except OAuthStoreError α → Except StateStoreError α
  | .ok value => .ok value
  | .error _ => .error .unavailable

def offlineAccess : Scope := "offline_access".toList

def verifiedEmailWith (db : Db) (userId : Nat) : Option (List Char) :=
  if db.directory.activeUsers.contains userId then
    (db.directory.verifiedEmails.find? (·.1 = userId)).map (·.2)
  else none

def tokenContext (grant : Grant) (resource : Nat) (scopes : List Scope)
    (nonce verifiedEmail : Option (List Char)) (refreshAllowed : Bool) :
    Except StateStoreError TokenGrantContext :=
  if !grant.resources.contains resource || !sortedSubset scopes grant.grantedScopes then
    .error .unavailable
  else
    .ok { grantId := grant.id, clientId := grant.clientId, publicSubject := grant.publicSubject,
          resource, scopes, authTime := grant.authenticatedAt, acr := grant.assuranceLevel,
          amr := grant.authenticationMethods, nonce, verifiedEmail, refreshAllowed }

structure ConsumeAuthorizationCode where
  (codeDigest clientId redirectUri resource pkceVerifier refreshDigest refreshExpiresAt now : Nat)

def ConsumeAuthorizationCode.binding (command : ConsumeAuthorizationCode) :
    AuthorizationCodeBinding :=
  ⟨command.clientId, command.redirectUri, [command.resource], command.pkceVerifier⟩

inductive ConsumeCodeOutcome where
  | consumed (context : TokenGrantContext)
  | unavailable

/-- The family an exchange asks for. -/
def ConsumeAuthorizationCode.issue (command : ConsumeAuthorizationCode)
    (consumed : ConsumedAuthorizationCode) : RefreshFamilyIssue :=
  { grantId := consumed.grant.id, clientId := command.clientId, resource := command.resource,
    grantedScopes := consumed.grantedScopes, tokenDigest := command.refreshDigest,
    issuedAt := command.now, expiresAt := command.refreshExpiresAt }

def startFamily (db : Db) (familyId tokenId : Nat) (command : ConsumeAuthorizationCode)
    (consumed : ConsumedAuthorizationCode) : Except OAuthStoreError Db :=
  if consumed.grantedScopes.contains offlineAccess then
    issueRefreshFamilyWith db familyId tokenId (command.issue consumed)
  else .ok db

/-- The adapter's exchange: consume, start a family, build the context, commit. -/
def consumeAuthorizationCode (load : Nat → Option Grant) (db : Db) (familyId tokenId : Nat)
    (command : ConsumeAuthorizationCode) : Except StateStoreError (ConsumeCodeOutcome × Db) := do
  let (exchange, db) ← stateStore
    (consumeAuthorizationCodeWith challenge load db command.codeDigest command.binding command.now)
  match exchange with
  | .issued consumed =>
    let db ← stateStore (startFamily db familyId tokenId command consumed)
    let context ← tokenContext consumed.grant command.resource consumed.grantedScopes
      consumed.nonce (verifiedEmailWith db consumed.grant.userId)
      (consumed.grantedScopes.contains offlineAccess)
    .ok (.consumed context, db)
  | .rejected _ => .ok (.unavailable, db)
  | .unavailable => .ok (.unavailable, db)

end Exchange

/-! ## 4. Rotating a refresh token -/

def maxSequence : Nat := 2 ^ 63 - 1

structure RotatedRefreshToken where
  grant : Grant
  resource : Nat
  grantedScopes : List Scope
  (familyId tokenId rotationSequence expiresAt : Nat)

inductive RefreshRejection where
  | unknown | expired | clientMismatch | inactive

inductive RefreshRotation where
  | rotated (rotated : RotatedRefreshToken)
  | reuseDetected (familyId grantId : Nat)
  | rejected (rejection : RefreshRejection)

def RefreshToken.successor (token : RefreshToken) (replacementId replacementDigest now expiresAt
    : Nat) : RefreshToken :=
  { id := replacementId, familyId := token.familyId, grantId := token.grantId,
    tokenDigest := replacementDigest, rotationSequence := token.rotationSequence + 1,
    issuedAt := now, expiresAt, consumedAt := none, replacedById := none, revokedAt := none,
    reuseDetectedAt := none }

def RefreshToken.consume (replacementId now : Nat) (token : RefreshToken) : RefreshToken :=
  { token with consumedAt := some now, replacedById := some replacementId }

/-- The successor is inserted before its predecessor is consumed. -/
def persistRefreshReplacement (db : Db) (token : RefreshToken) (family : RefreshFamily)
    (replacementId replacementDigest now requestedExpiresAt : Nat) :
    Except OAuthStoreError Db := do
  let expiresAt := min requestedExpiresAt family.expiresAt
  deny (maxSequence < token.rotationSequence + 1) .corruptData
  let db ← db.insertToken (token.successor replacementId replacementDigest now expiresAt)
  db.updateTokens (·.id = token.id) (RefreshToken.consume replacementId now)

/-- The first statement of a reuse: only a consumed token records it. -/
def recordReuse (db : Db) (presentedTokenId : Nat) (tokenWasConsumed : Bool) (now : Nat) :
    Except OAuthStoreError Db :=
  if tokenWasConsumed then
    db.updateTokens (·.id = presentedTokenId) fun token =>
      { token with reuseDetectedAt := some now }
  else .ok db

/-- Three tables in four statements. -/
def revokeReusedFamily (db : Db) (presentedTokenId familyId grantId : Nat)
    (tokenWasConsumed : Bool) (now : Nat) : Except OAuthStoreError Db := do
  let db ← recordReuse db presentedTokenId tokenWasConsumed now
  let db ← db.updateFamilies (·.id = familyId) fun family =>
    { family with
        revokedAt := some (family.revokedAt.getD now), revocationReason := some .refreshReuse,
        reuseDetectedAt := some now }
  let db ← db.updateTokens
    (fun token => token.familyId = familyId && token.consumedAt.isNone && token.revokedAt.isNone)
    fun token => { token with revokedAt := some now }
  db.updateGrants (·.id = grantId) fun grant =>
    { grant with revokedAt := some (grant.revokedAt.getD now), updatedAt := now }

/-- Consumed, revoked, or of a revoked family. -/
def RefreshToken.spent (token : RefreshToken) (family : RefreshFamily) : Bool :=
  token.consumedAt.isSome || token.revokedAt.isSome || family.revokedAt.isSome

/-- A spent token is a reuse, whoever presents it and however old it is. -/
def rotateRefreshTokenWith (load : Nat → Option Grant) (db : Db)
    (digest clientId replacementId replacementDigest now replacementExpiresAt : Nat) :
    Except OAuthStoreError (RefreshRotation × Db) := do
  deny (replacementExpiresAt ≤ now) .invalidInput
  match db.findToken digest with
  | none => .ok (.rejected .unknown, db)
  | some token =>
    match db.findFamily token.familyId with
    | none => .ok (.rejected .unknown, db)
    | some family =>
      if token.spent family then
        let db ← revokeReusedFamily db token.id token.familyId token.grantId
          token.consumedAt.isSome now
        .ok (.reuseDetected token.familyId token.grantId, db)
      else if family.clientId ≠ clientId then .ok (.rejected .clientMismatch, db)
      else if now < token.issuedAt then .error .invalidInput
      else if token.expiresAt ≤ now || family.expiresAt ≤ now then .ok (.rejected .expired, db)
      else
        match load token.grantId with
        | none => .ok (.rejected .inactive, db)
        | some grant =>
          deny (!sortedSubset family.grantedScopes grant.grantedScopes
            || !grant.resources.contains family.resourceUri) .corruptData
          let db ← persistRefreshReplacement db token family replacementId replacementDigest now
            replacementExpiresAt
          .ok (.rotated
            { grant, resource := family.resourceUri, grantedScopes := family.grantedScopes,
              familyId := token.familyId, tokenId := replacementId,
              rotationSequence := token.rotationSequence + 1,
              expiresAt := min replacementExpiresAt family.expiresAt }, db)

structure RotateRefreshToken where
  (presentedDigest clientId : Nat)
  scopes : Option (List Scope)
  resource : Option Nat
  (replacementDigest replacementExpiresAt now : Nat)

inductive RotateRefreshOutcome where
  | rotated (context : TokenGrantContext)
  | reuseDetected | unavailable
deriving DecidableEq

/-- The checks of the adapter after the rotation; `before` is what a rollback returns to. -/
def finishRotatedRefresh (before db : Db) (command : RotateRefreshToken)
    (rotated : RotatedRefreshToken) : Except StateStoreError (RotateRefreshOutcome × Db) := do
  let scopes := command.scopes.getD rotated.grantedScopes
  if command.resource.any (fun resource => decide (resource ≠ rotated.resource)) then
    .ok (.unavailable, before)
  else if scopes.isEmpty || !sortedSubset scopes rotated.grantedScopes then
    .ok (.unavailable, before)
  else
    let context ← tokenContext rotated.grant rotated.resource scopes none
      (verifiedEmailWith db rotated.grant.userId) true
    .ok (.rotated context, db)

/-- The adapter's rotation.  Its audit record is written in the same transaction. -/
def rotateRefreshToken (load : Nat → Option Grant) (db : Db) (replacementId : Nat)
    (command : RotateRefreshToken) : Except StateStoreError (RotateRefreshOutcome × Db) := do
  let (rotation, after) ← stateStore
    (rotateRefreshTokenWith load db command.presentedDigest command.clientId replacementId
      command.replacementDigest command.now command.replacementExpiresAt)
  match rotation with
  | .reuseDetected _ _ => .ok (.reuseDetected, after)
  | .rejected _ => .ok (.unavailable, after)
  | .rotated rotated => finishRotatedRefresh db after command rotated

/-! ## 5. Revocations -/

/-- Revokes the family of a token of the client, its unused tokens and the grant. -/
def revokeRefreshTokenWith (db : Db) (digest : Nat) (clientId : Option Nat) (now : Nat) :
    Except OAuthStoreError (Bool × Db) := do
  match db.findToken digest with
  | none => .ok (false, db)
  | some token =>
    match (db.findFamily token.familyId).filter fun family =>
        clientId.all fun clientId => decide (family.clientId = clientId) with
    | none => .ok (false, db)
    | some _ =>
      let db ← db.updateFamilies
        (fun family => family.id = token.familyId && family.revokedAt.isNone) fun family =>
          { family with revokedAt := some now, revocationReason := some .tokenRevoked }
      let db ← db.updateTokens
        (fun other =>
          other.familyId = token.familyId && other.consumedAt.isNone && other.revokedAt.isNone)
        fun other => { other with revokedAt := some now }
      let db ← db.updateGrants (·.id = token.grantId) fun grant =>
        { grant with revokedAt := some (grant.revokedAt.getD now), updatedAt := now }
      .ok (true, db)

/-- The grant's own row, unless it was revoked before. -/
def revokeGrantRow (db : Db) (grant : Grant) (now : Nat) : Except OAuthStoreError Db :=
  if grant.revokedAt.isNone then
    db.updateGrants (·.id = grant.id) fun grant =>
      { grant with revokedAt := some now, updatedAt := now }
  else .ok db

def revokeGrantWith (db : Db) (userId grantId now : Nat) : Except OAuthStoreError (Bool × Db) := do
  match (db.findGrant grantId).filter (·.userId = userId) with
  | none => .ok (false, db)
  | some grant =>
    let db ← revokeGrantRow db grant now
    let db ← db.updateFamilies (fun family => family.grantId = grantId && family.revokedAt.isNone)
      fun family => { family with revokedAt := some now, revocationReason := some .grantRevoked }
    .ok (true, db)

def Db.deactivate (db : Db) (clientId : Nat) : Db :=
  { db with directory := { db.directory with
      activeClients := db.directory.activeClients.filter (· ≠ clientId) } }

/-- All that the client was granted is revoked with it. -/
def disableClientWith (db : Db) (clientId now : Nat) : Except OAuthStoreError Db := do
  let db ← (db.deactivate clientId).updateGrants
    (fun grant => grant.clientId = clientId && grant.revokedAt.isNone)
    fun grant => { grant with revokedAt := some now, updatedAt := now }
  db.updateFamilies (fun family => family.clientId = clientId && family.revokedAt.isNone)
    fun family => { family with revokedAt := some now, revocationReason := some .clientDisabled }

/-- One hour, the longest life of an access token. -/
def accessRevocationLife : Nat := 60 * minute

/-- A second revocation of one token changes nothing. -/
def revokeAccessTokenJtiWith (db : Db) (jti grantId clientId now : Nat) : Bool × Db :=
  if (db.findGrant grantId).any (·.clientId = clientId)
      && db.accessRevocations.all (·.jti ≠ jti) then
    (true, { db with accessRevocations := db.accessRevocations ++
      [⟨jti, grantId, clientId, now, now + accessRevocationLife, now⟩] })
  else (false, db)

structure AccessTokenLiveCheck where
  (jti grantId : Nat)
  publicSubject : List Char
  (clientId resource : Nat)
  scopes : List Scope

/-- One statement, so one reading of all tables. -/
def verifyAccessTokenLive (db : Db) (check : AccessTokenLiveCheck) (now : Nat) :
    Except OAuthStoreError (Option Grant) := do
  let scopes ← scopeValues check.scopes
  .ok ((db.loadLiveGrant check.grantId).filter fun grant =>
    grant.publicSubject = check.publicSubject && decide (grant.clientId = check.clientId)
      && grant.resources.contains check.resource && scopes.all grant.grantedScopes.contains
      && db.accessRevocations.all fun revocation =>
        decide (revocation.jti ≠ check.jti) || decide (revocation.expiresAt ≤ now))

/-! ## 6. Cleanup -/

/-- The rows of a batch: the candidates no other transaction holds, earliest expiry first. -/
def batch {ρ : Type} (id expiresAt : ρ → Nat) (limit : Nat) (locked : List Nat)
    (candidates : List ρ) : List Nat :=
  (((candidates.insertionSort fun a b =>
      expiresAt a < expiresAt b ∨ (expiresAt a = expiresAt b ∧ id a ≤ id b)).filter
    fun row => !locked.contains (id row)).take limit).map id

/-- Only an expired token that replaces no stored token is deleted. -/
def cleanupRefreshTombstones (db : Db) (now limit : Nat) (locked : List Nat) : Db :=
  let expired := batch (·.id) (·.expiresAt) limit locked (db.tokens.filter fun token =>
    decide (token.expiresAt ≤ now)
      && !db.tokens.any fun predecessor => predecessor.replacedById = some token.id)
  { db with tokens := db.tokens.filter fun token => !expired.contains token.id }

def cleanupAuthorizationCodes (db : Db) (now limit : Nat) (locked : List Nat) : Db :=
  let expired := batch (·.id) (·.expiresAt) limit locked
    (db.codes.filter fun code => decide (code.expiresAt ≤ now))
  { db with codes := db.codes.filter fun code => !expired.contains code.id }

def cleanupAccessRevocations (db : Db) (now limit : Nat) (locked : List Nat) : Db :=
  let expired := batch (·.jti) (·.expiresAt) limit locked
    (db.accessRevocations.filter fun revocation => decide (revocation.expiresAt ≤ now))
  { db with accessRevocations :=
      db.accessRevocations.filter fun revocation => !expired.contains revocation.jti }

end Omnius.OAuth
