/-
# The protocol tables of the authorization server

A GRANT is what a user consented to; an AUTHORIZATION CODE is bound to it and exchanged once; a
REFRESH FAMILY is started by an exchange and holds the tokens that rotations put one after another.
The rows below have the columns these operations read, and the CHECK constraints of the migration on
them.  A statement that leaves a row that breaks a check is refused with `InvalidInput`, one that
repeats a key with `Conflict`, and the transaction is rolled back.

Instants are whole microseconds since the epoch.  Identifiers, digests, client names, resources and
redirect addresses are only compared, so they are numbers; scopes are texts, because some of them
are known by name.  The version columns, which nothing here reads, are left out.

Translated from `migrations/2026082802_create_oauth_oidc_protocol_state.sql`.
-/
import Mathlib.Data.Char
import Mathlib.Algebra.Ring.Nat
import Omnius.Lib.Rows
import Omnius.Lib.Attempt

namespace Omnius.OAuth

open Omnius.Lib

/-! ## 1. Values -/

abbrev Scope := List Char

/-- The failures of the store that its own logic can produce; the database is available here. -/
inductive OAuthStoreError where
  | invalidInput | conflict | inactive | corruptData

/-- `map_db` on the two ways a statement can be refused. -/
def mapDb : Rows.Violation → OAuthStoreError
  | .check => .invalidInput
  | .key => .conflict

inductive AssuranceLevel where
  | aal1 | aal2 | aal3
deriving DecidableEq

inductive AuthMethod where
  | password | session | jwt | oidc | apiKey | webAuthn | totp
deriving DecidableEq

inductive RevocationReason where
  | clientDisabled | grantRevoked | refreshReuse | tokenRevoked
deriving DecidableEq

inductive ExchangeOutcome where
  | issued | rejected
deriving DecidableEq

def maxScopes : Nat := 128
def maxResources : Nat := 16
def maxAuthMethods : Nat := 16
def minute : Nat := 60 * 1000000
def day : Nat := 24 * 60 * minute

/-- Strictly increasing: `windows(2).all(|pair| pair[0] < pair[1])`. -/
def strictlySorted {α : Type} [LT α] [DecidableLT α] : List α → Bool
  | [] => true
  | [_] => true
  | a :: b :: rest => decide (a < b) && strictlySorted (b :: rest)

/-- `BETWEEN 1 AND 128` scopes in canonical order. -/
def canonicalScopes (scopes : List Scope) : Bool :=
  strictlySorted scopes && !scopes.isEmpty && decide (scopes.length ≤ maxScopes)

/-! ## 2. Rows and their checks -/

/-- A consent; the subject's columns stand beside the grant's own. -/
structure Grant where
  (id userId : Nat)
  publicSubject : List Char
  tenantId : Option Nat
  clientId : Nat
  resources : List Nat
  grantedScopes : List Scope
  authenticatedAt : Nat
  assuranceLevel : AssuranceLevel
  authenticationMethods : List AuthMethod
  (consentedAt createdAt updatedAt : Nat)
  revokedAt : Option Nat
deriving DecidableEq

/-- `oauth_grants_timeline_valid` and the canonical columns. -/
def Grant.check (grant : Grant) : Bool :=
  strictlySorted grant.resources && decide (grant.resources.length ≤ maxResources)
    && canonicalScopes grant.grantedScopes
    && !grant.authenticationMethods.isEmpty
    && decide (grant.authenticationMethods.length ≤ maxAuthMethods)
    && decide grant.authenticationMethods.Nodup
    && decide (grant.authenticatedAt ≤ grant.consentedAt)
    && decide (grant.consentedAt ≤ grant.createdAt)
    && decide (grant.createdAt ≤ grant.updatedAt)
    && grant.revokedAt.all fun at_ =>
      decide (grant.createdAt ≤ at_) && decide (at_ ≤ grant.updatedAt)

structure AuthorizationCode where
  (id codeDigest grantId clientId redirectUri : Nat)
  resourceUris : List Nat
  grantedScopes : List Scope
  pkceCodeChallenge : Nat
  nonce : Option (List Char)
  (issuedAt expiresAt : Nat)
  consumedAt : Option Nat
  exchangeOutcome : Option ExchangeOutcome
deriving DecidableEq

/-- The expiry, the canonical columns and `oauth_authorization_codes_one_use_state`. -/
def AuthorizationCode.check (code : AuthorizationCode) : Bool :=
  strictlySorted code.resourceUris && decide (code.resourceUris.length ≤ maxResources)
    && canonicalScopes code.grantedScopes
    && decide (code.issuedAt < code.expiresAt)
    && decide (code.expiresAt ≤ code.issuedAt + 10 * minute)
    && match code.consumedAt with
      | none => code.exchangeOutcome.isNone
      | some at_ => decide (code.issuedAt ≤ at_) && code.exchangeOutcome.isSome

structure RefreshFamily where
  (id grantId clientId resourceUri : Nat)
  grantedScopes : List Scope
  (createdAt expiresAt : Nat)
  revokedAt : Option Nat
  revocationReason : Option RevocationReason
  reuseDetectedAt : Option Nat
deriving DecidableEq

/-- The scopes, the expiry and `oauth_refresh_token_families_revocation_state`. -/
def RefreshFamily.check (family : RefreshFamily) : Bool :=
  canonicalScopes family.grantedScopes
    && decide (family.createdAt < family.expiresAt)
    && decide (family.expiresAt ≤ family.createdAt + 90 * day)
    && match family.revokedAt with
      | none => family.revocationReason.isNone && family.reuseDetectedAt.isNone
      | some revokedAt =>
        decide (family.createdAt ≤ revokedAt) && match family.revocationReason with
          | none => false
          | some .refreshReuse => family.reuseDetectedAt.any fun at_ => decide (revokedAt ≤ at_)
          | some _ => family.reuseDetectedAt.isNone

structure RefreshToken where
  (id familyId grantId tokenDigest rotationSequence issuedAt expiresAt : Nat)
  (consumedAt replacedById revokedAt reuseDetectedAt : Option Nat)
deriving DecidableEq

/-- `not_self_replaced`, `expiry_valid`, `rotation_state`, `revocation_state`, `reuse_state`. -/
def RefreshToken.check (token : RefreshToken) : Bool :=
  token.replacedById.all (fun id => decide (id ≠ token.id))
    && decide (token.issuedAt < token.expiresAt)
    && (match token.consumedAt with
      | none => token.replacedById.isNone
      | some at_ => decide (token.issuedAt ≤ at_) && token.replacedById.isSome)
    && token.revokedAt.all (fun at_ =>
      decide (token.issuedAt ≤ at_) && token.consumedAt.isNone && token.replacedById.isNone)
    && token.reuseDetectedAt.all fun at_ =>
      token.consumedAt.any fun consumedAt => decide (consumedAt ≤ at_)

structure AccessTokenRevocation where
  (jti grantId clientId issuedAt expiresAt revokedAt : Nat)
deriving DecidableEq

def AccessTokenRevocation.check (revocation : AccessTokenRevocation) : Bool :=
  decide (revocation.issuedAt ≤ revocation.revokedAt)
    && decide (revocation.revokedAt < revocation.expiresAt)

/-- What the other modules keep about people and clients: who is active, and under which address
each user verified themselves. -/
structure Directory where
  activeUsers : List Nat
  /-- A user and an active organization whose active member they are. -/
  memberships : List (Nat × Nat)
  activeClients : List Nat
  verifiedEmails : List (Nat × List Char)
deriving DecidableEq

structure Db where
  grants : List Grant
  codes : List AuthorizationCode
  families : List RefreshFamily
  tokens : List RefreshToken
  accessRevocations : List AccessTokenRevocation
  directory : Directory
deriving DecidableEq

/-! ## 3. Statements -/

/-- A statement on one table, written back. -/
def stored {β : Type} (rows : Except Rows.Violation β) (put : β → Db) : Except OAuthStoreError Db :=
  match rows with
  | .ok rows => .ok (put rows)
  | .error violation => .error (mapDb violation)

theorem stored_eq_ok {β : Type} {rows : Except Rows.Violation β} {put : β → Db} {db' : Db} :
    stored rows put = .ok db' ↔ ∃ rows', rows = .ok rows' ∧ put rows' = db' := by
  unfold stored
  cases rows <;> simp

namespace Db

def updateGrants (db : Db) (condition : Grant → Bool) (change : Grant → Grant) :
    Except OAuthStoreError Db :=
  stored (Rows.update Grant.check condition change db.grants) fun grants => { db with grants }

def updateCodes (db : Db) (condition : AuthorizationCode → Bool)
    (change : AuthorizationCode → AuthorizationCode) : Except OAuthStoreError Db :=
  stored (Rows.update AuthorizationCode.check condition change db.codes)
    fun codes => { db with codes }

def updateFamilies (db : Db) (condition : RefreshFamily → Bool)
    (change : RefreshFamily → RefreshFamily) : Except OAuthStoreError Db :=
  stored (Rows.update RefreshFamily.check condition change db.families)
    fun families => { db with families }

def updateTokens (db : Db) (condition : RefreshToken → Bool)
    (change : RefreshToken → RefreshToken) : Except OAuthStoreError Db :=
  stored (Rows.update RefreshToken.check condition change db.tokens)
    fun tokens => { db with tokens }

def grantClash (new old : Grant) : Bool := decide (old.id = new.id)

def codeClash (new old : AuthorizationCode) : Bool :=
  decide (old.id = new.id) || decide (old.codeDigest = new.codeDigest)

def familyClash (new old : RefreshFamily) : Bool := decide (old.id = new.id)

/-- Three keys: the identifier, the digest, and the sequence number in its family. -/
def tokenClash (new old : RefreshToken) : Bool :=
  decide (old.id = new.id) || decide (old.tokenDigest = new.tokenDigest)
    || (decide (old.familyId = new.familyId)
      && decide (old.rotationSequence = new.rotationSequence))

variable (db : Db)

def insertGrant (grant : Grant) : Except OAuthStoreError Db :=
  stored (Rows.insert Grant.check grantClash grant db.grants) fun grants => { db with grants }

def insertCode (code : AuthorizationCode) : Except OAuthStoreError Db :=
  stored (Rows.insert AuthorizationCode.check codeClash code db.codes)
    fun codes => { db with codes }

def insertFamily (family : RefreshFamily) : Except OAuthStoreError Db :=
  stored (Rows.insert RefreshFamily.check familyClash family db.families)
    fun families => { db with families }

def insertToken (token : RefreshToken) : Except OAuthStoreError Db :=
  stored (Rows.insert RefreshToken.check tokenClash token db.tokens)
    fun tokens => { db with tokens }

end Db

end Omnius.OAuth
