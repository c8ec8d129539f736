/-
# What a refused refresh request costs

The service authenticates the client, lets the adapter ROTATE AND COMMIT, and then checks the
context it was handed once more before it signs.  A request that fails one of these later checks has
already lost its refresh token, and its successor is never delivered.

The later checks that compare the context with the request follow from what the adapter checked
before it committed.  What does not follow is `Deliverable`: the adapter accepts any non-empty
subset of the family's scopes, the signing step insists that the narrowed scopes still contain
`offline_access`; and it validates the subject, the authentication instant and a released address.

The sources are `service/token.rs` and `postgres_adapter.rs` of `crates/auth-oauth-server`.

Storage, signing and entropy do not fail here.  Lifetimes are whole seconds, as `add_std` adds them.
Values that were parsed before (the issuer, resources, client names, scopes) parse again.
-/
import Omnius.Lib.Base64
import Omnius.Lib.Text
import Omnius.OAuth.Runs

namespace Omnius.OAuth

open Omnius.Lib List

variable {token : RefreshToken} {family : RefreshFamily}

/-! ## 1. Clients -/

inductive OAuthErrorCode where
  | invalidClient | invalidGrant | invalidScope | serverError

inductive TokenEndpointAuthMethod where
  | none | clientSecretBasic | privateKeyJwt
deriving DecidableEq

inductive GrantType where
  | authorizationCode | refreshToken
deriving DecidableEq

structure ResolvedClient where
  clientId : Nat
  (displayName displayOrigin : String)
  redirectUris : List Nat
  tokenEndpointAuthMethod : TokenEndpointAuthMethod
  grantTypes : List GrantType
  scopes : List Scope
  resources : List Nat

def ResolvedClient.isWellFormed (client : ResolvedClient) : Bool :=
  !client.displayName.isEmpty && decide (client.displayName.utf8ByteSize ≤ 1024)
    && !client.displayOrigin.isEmpty && decide (client.displayOrigin.utf8ByteSize ≤ 2048)
    && !client.redirectUris.isEmpty && decide (client.scopes.length ≤ maxScopes)
    && strictlySorted client.scopes && strictlySorted client.resources

structure PrivateKeyJwtAssertion where
  (token issuer subject : Nat)
  audience : String
  (issuedAt expiresAt : Nat)

inductive ClientAuthentication where
  | none (clientId : Nat)
  | clientSecretBasic (clientId : Nat) (secret : String)
  | privateKeyJwt (clientId : Nat) (assertion : PrivateKeyJwtAssertion)

def ClientAuthentication.clientId : ClientAuthentication → Nat
  | .none clientId => clientId
  | .clientSecretBasic clientId _ => clientId
  | .privateKeyJwt clientId _ => clientId

/-- Lifetimes within the bounds the configuration accepts, in seconds. -/
structure TokenLifetimes where
  (accessToken idToken refreshToken : Nat)
  accessBounds : 60 ≤ accessToken ∧ accessToken ≤ 3600
  idBounds : 60 ≤ idToken ∧ idToken ≤ 900
  refreshBounds : 24 * 3600 ≤ refreshToken ∧ refreshToken ≤ 2160 * 3600

/-- What the service asks its configuration, its clock and the parts of the store that keep clients
and bearers. -/
structure Server where
  lifetimes : TokenLifetimes
  tokenEndpoint : String
  resolveClient : Nat → Option ResolvedClient
  authenticateClientSecret : Nat → String → Bool
  acceptPrivateKeyAssertion : Nat → PrivateKeyJwtAssertion → Bool
  /-- The digest of a well-formed bearer. -/
  parseBearer : String → Option Nat

def Server.privateAssertionSemantics (server : Server) (clientId : Nat)
    (assertion : PrivateKeyJwtAssertion) (now : Nat) : Bool :=
  decide (assertion.issuer = clientId) && decide (assertion.subject = clientId)
    && decide (assertion.audience = server.tokenEndpoint) && decide (assertion.issuedAt ≤ now)
    && decide (now < assertion.expiresAt)
    && decide (assertion.expiresAt ≤ assertion.issuedAt + 300 * 1000000)

def Server.authenticateClient (server : Server) (authentication : ClientAuthentication)
    (now : Nat) : Except OAuthErrorCode ResolvedClient :=
  match (server.resolveClient authentication.clientId).filter ResolvedClient.isWellFormed with
  | none => .error .invalidClient
  | some client =>
    let method := client.tokenEndpointAuthMethod
    let authenticated : Bool := match authentication with
      | .none _ => decide (method = .none)
      | .clientSecretBasic _ secret => decide (method = .clientSecretBasic)
          && server.authenticateClientSecret client.clientId secret
      | .privateKeyJwt _ assertion => decide (method = .privateKeyJwt)
          && server.privateAssertionSemantics client.clientId assertion now
          && server.acceptPrivateKeyAssertion client.clientId assertion
    if authenticated then .ok client else .error .invalidClient

/-! ## 2. Claims -/

def assuranceName : AssuranceLevel → List Char
  | .aal1 => "aal1".toList
  | .aal2 => "aal2".toList
  | .aal3 => "aal3".toList

def authMethodName : AuthMethod → List Char
  | .password => "pwd".toList
  | .session => "session".toList
  | .jwt => "jwt".toList
  | .oidc => "oidc".toList
  | .apiKey => "api_key".toList
  | .webAuthn => "webauthn".toList
  | .totp => "otp".toList

/-- `windows(2).any(|pair| pair[0] == pair[1])`. -/
def hasRepeat : List (List Char) → Bool
  | [] => false
  | [_] => false
  | a :: b :: rest => decide (a = b) || hasRepeat (b :: rest)

def sortTexts (texts : List (List Char)) : List (List Char) := texts.insertionSort (· ≤ ·)

def validClaimText (maxBytes : Nat) (value : List Char) : Bool :=
  !value.isEmpty && decide (Text.bytes value ≤ maxBytes) && decide (Text.trim value = value)
    && !value.any Text.isControl

def validAcrAmr (acr : List Char) (amr : List (List Char)) : Bool :=
  validClaimText 128 acr && !amr.isEmpty && decide (amr.length ≤ 16)
    && amr.all (validClaimText 64) && strictlySorted amr

/-- Something on both sides of the first at sign. -/
def validEmailClaim (value : List Char) : Bool :=
  validClaimText 320 value
    && !(value.takeWhile (· ≠ '@')).isEmpty && decide (1 < (value.dropWhile (· ≠ '@')).length)

/-- Forty-three characters of the URL alphabet that are the encoding of thirty-two bytes. -/
def validPublicSubject (value : List Char) : Bool :=
  let text := value.flatMap String.utf8EncodeChar
  decide (text.length = 43) && text.all (fun byte => (Base64.value byte).isSome)
    && (Base64.decode text).any fun decoded =>
      decide (decoded.length = 32) && decide (Base64.encode decoded = text)

def unixSeconds (instant : Nat) : Nat := instant / 1000000

def addStd (now seconds : Nat) : Nat := now + seconds * 1000000

structure AccessTokenClaims where
  subject : List Char
  (audience expiresAt issuedAt clientId grantId : Nat)
  scopes : List Scope
  authTime : Nat
  acr : List Char
  amr : List (List Char)

/-- `AccessTokenClaims::new` with its `validate`; `nbf` is `iat`. -/
def accessTokenClaims (context : TokenGrantContext) (now expiresAt : Nat) :
    Option AccessTokenClaims :=
  let scopes := sortTexts context.scopes
  let amr := sortTexts (context.amr.map authMethodName)
  if scopes.isEmpty || maxScopes < scopes.length || hasRepeat scopes || hasRepeat amr then none
  else if unixSeconds now < unixSeconds expiresAt
      && unixSeconds expiresAt - unixSeconds now ≤ 3600
      && unixSeconds context.authTime ≤ unixSeconds now
      && validPublicSubject context.publicSubject && strictlySorted scopes
      && validAcrAmr (assuranceName context.acr) amr then
    some ⟨context.publicSubject, context.resource, unixSeconds expiresAt, unixSeconds now,
      context.clientId, context.grantId, scopes, unixSeconds context.authTime,
      assuranceName context.acr, amr⟩
  else none

structure IdTokenClaims where
  subject : List Char
  (audience expiresAt issuedAt authTime : Nat)
  acr : List Char
  amr : List (List Char)
  (nonce email : Option (List Char))

/-- `IdTokenClaims::new` with its `validate`; an email is released as verified. -/
def idTokenClaims (context : TokenGrantContext) (email : Option (List Char))
    (now expiresAt : Nat) : Option IdTokenClaims :=
  let amr := sortTexts (context.amr.map authMethodName)
  if hasRepeat amr then none
  else if unixSeconds now < unixSeconds expiresAt
      && unixSeconds expiresAt - unixSeconds now ≤ 900
      && unixSeconds context.authTime ≤ unixSeconds now
      && email.all validEmailClaim && validPublicSubject context.publicSubject
      && validAcrAmr (assuranceName context.acr) amr
      && context.nonce.all (validClaimText maxNonceBytes) then
    some ⟨context.publicSubject, context.clientId, unixSeconds expiresAt, unixSeconds now,
      unixSeconds context.authTime, assuranceName context.acr, amr, context.nonce, email⟩
  else none

/-! ## 3. The service -/

def openid : Scope := "openid".toList
def emailScope : Scope := "email".toList

structure TokenResponse where
  accessToken : AccessTokenClaims
  expiresIn : Nat
  scopes : List Scope
  refreshToken : Option String
  idToken : Option IdTokenClaims

def TokenGrantContext.releasedEmail (context : TokenGrantContext) : Option (List Char) :=
  if context.scopes.contains emailScope then context.verifiedEmail else none

def signIdToken (lifetimes : TokenLifetimes) (context : TokenGrantContext) (now : Nat) :
    Except OAuthErrorCode (Option IdTokenClaims) :=
  if context.scopes.contains openid then
    match idTokenClaims context context.releasedEmail now (addStd now lifetimes.idToken) with
    | some claims => .ok (some claims)
    | none => .error .serverError
  else .ok none

def issueTokens (lifetimes : TokenLifetimes) (context : TokenGrantContext)
    (refreshToken : Option String) (now : Nat) : Except OAuthErrorCode TokenResponse := do
  deny (context.scopes.isEmpty || maxScopes < context.scopes.length
    || !strictlySorted context.scopes || refreshToken.isSome != context.refreshAllowed
    || (context.refreshAllowed && !context.scopes.contains offlineAccess)) .serverError
  match accessTokenClaims context now (addStd now lifetimes.accessToken) with
  | none => .error .serverError
  | some accessToken =>
    let idToken ← signIdToken lifetimes context now
    .ok ⟨accessToken, lifetimes.accessToken, context.scopes, refreshToken, idToken⟩

def validateOptionalScopeSubset :
    Option (List Scope) → Except OAuthErrorCode (Option (List Scope))
  | none => .ok none
  | some scopes =>
    let sorted := sortTexts scopes
    if sorted.isEmpty || maxScopes < sorted.length || hasRepeat sorted then .error .invalidScope
    else .ok (some sorted)

structure RefreshTokenRequest where
  clientAuthentication : ClientAuthentication
  refreshToken : String
  scopes : Option (List Scope)
  resource : Option Nat

/-- A replacement bearer drawn for one request. -/
structure Replacement where
  presentation : String
  (digest tokenId : Nat)

/-- The clock readings of one request: at the authentication, before the rotation, at the
signing. -/
structure Readings where
  (authenticated now signed : Nat)

def deliver (server : Server) (client : ResolvedClient) (request : RefreshTokenRequest)
    (scopes : Option (List Scope)) (replacement : Replacement) (context : TokenGrantContext)
    (signed : Nat) : Except OAuthErrorCode TokenResponse := do
  deny (decide (context.clientId ≠ client.clientId)
    || request.resource.any (fun resource => decide (resource ≠ context.resource))
    || scopes.any (fun requested => decide (requested ≠ context.scopes))
    || !context.refreshAllowed) .invalidGrant
  issueTokens server.lifetimes context (some replacement.presentation) signed

/-- What the checks before the rotation leave: the client, its scopes and the digest. -/
def prepare (server : Server) (request : RefreshTokenRequest) (readings : Readings) :
    Except OAuthErrorCode (ResolvedClient × Option (List Scope) × Nat) := do
  let client ← server.authenticateClient request.clientAuthentication readings.authenticated
  deny (!client.grantTypes.contains .refreshToken) .invalidGrant
  let scopes ← validateOptionalScopeSubset request.scopes
  match server.parseBearer request.refreshToken with
  | none => .error .invalidGrant
  | some digest => .ok (client, scopes, digest)

def RefreshTokenRequest.command (request : RefreshTokenRequest) (server : Server)
    (client : ResolvedClient) (scopes : Option (List Scope)) (digest : Nat)
    (replacement : Replacement) (now : Nat) : RotateRefreshToken :=
  { presentedDigest := digest, clientId := client.clientId, scopes, resource := request.resource,
    replacementDigest := replacement.digest
    replacementExpiresAt := addStd now server.lifetimes.refreshToken, now }

/-- The answer to a refresh request, and the database it leaves. -/
def refresh (server : Server) (db : Db) (request : RefreshTokenRequest)
    (replacement : Replacement) (readings : Readings) :
    Except OAuthErrorCode TokenResponse × Db :=
  match prepare server request readings with
  | .error code => (.error code, db)
  | .ok (client, scopes, digest) =>
    match rotateRefreshToken db.loadLiveGrant db replacement.tokenId
        (request.command server client scopes digest replacement readings.now) with
    | .error _ => (.error .serverError, db)
    | .ok (.rotated context, db') =>
      (deliver server client request scopes replacement context readings.signed, db')
    | .ok (_, db') => (.error .invalidGrant, db')

/-! ## 4. Sorted lists -/

section Sorted

variable {texts : List (List Char)}

theorem strictlySorted_of_pairwise (hsrt : texts.Pairwise (· ≤ ·))
    (hrpt : hasRepeat texts = false) : strictlySorted texts = true := by
  induction texts with
  | nil => rfl
  | cons a rest ih =>
    cases rest with
    | nil => rfl
    | cons b rest =>
      obtain ⟨ha, hrest⟩ := pairwise_cons.mp hsrt
      rw [hasRepeat, Bool.or_eq_false_iff, decide_eq_false_iff_not] at hrpt
      rw [strictlySorted, Bool.and_eq_true, decide_eq_true_eq]
      exact ⟨lt_of_le_of_ne (ha b mem_cons_self) hrpt.1, ih hrest hrpt.2⟩

theorem pairwise_of_strictlySorted (h : strictlySorted texts = true) :
    texts.Pairwise (· < ·) := by
  rw [← isChain_iff_pairwise]
  induction texts with
  | nil => exact .nil
  | cons a rest ih =>
    cases rest with
    | nil => exact .singleton a
    | cons b rest =>
      rw [strictlySorted, Bool.and_eq_true, decide_eq_true_eq] at h
      exact .cons_cons h.1 (ih h.2)

theorem hasRepeat_of_nodup (h : texts.Nodup) : hasRepeat texts = false := by
  induction texts with
  | nil => rfl
  | cons a rest ih =>
    cases rest with
    | nil => rfl
    | cons b rest =>
      obtain ⟨ha, hrest⟩ := nodup_cons.mp h
      rw [hasRepeat, Bool.or_eq_false_iff, decide_eq_false_iff_not]
      exact ⟨fun heq => ha (heq ▸ mem_cons_self), ih hrest⟩

theorem pairwise_sortTexts (texts : List (List Char)) : (sortTexts texts).Pairwise (· ≤ ·) :=
  pairwise_insertionSort (· ≤ ·) texts

theorem sortTexts_perm (texts : List (List Char)) : (sortTexts texts).Perm texts :=
  perm_insertionSort (· ≤ ·) texts

theorem strictlySorted_sortTexts (h : texts.Nodup) : hasRepeat (sortTexts texts) = false ∧
    strictlySorted (sortTexts texts) = true := by
  have hrpt := hasRepeat_of_nodup ((sortTexts_perm texts).nodup_iff.mpr h)
  exact ⟨hrpt, strictlySorted_of_pairwise (pairwise_sortTexts texts) hrpt⟩

theorem sortTexts_eq_self (h : strictlySorted texts = true) : sortTexts texts = texts :=
  ((pairwise_of_strictlySorted h).imp fun hlt => le_of_lt hlt).insertionSort_eq

end Sorted

/-! ## 5. What the checks after the commit ask -/

theorem authMethodName_injective : Function.Injective authMethodName := by
  intro a b h
  cases a <;> cases b <;> first | rfl | (revert h; decide)

theorem validClaimText_authMethodName (method : AuthMethod) :
    validClaimText 64 (authMethodName method) = true := by
  cases method <;> decide

theorem validClaimText_assuranceName (level : AssuranceLevel) :
    validClaimText 128 (assuranceName level) = true := by
  cases level <;> decide

variable {grant : Grant}

theorem validAcrAmr_of_check (h : grant.check = true) :
    hasRepeat (sortTexts (grant.authenticationMethods.map authMethodName)) = false ∧
      validAcrAmr (assuranceName grant.assuranceLevel)
        (sortTexts (grant.authenticationMethods.map authMethodName)) = true := by
  simp only [Grant.check, Bool.and_eq_true, decide_eq_true_eq, Bool.not_eq_true',
    isEmpty_eq_false_iff] at h
  obtain ⟨⟨⟨⟨⟨⟨⟨_, hnon⟩, hlen⟩, hnd⟩, _⟩, _⟩, _⟩, _⟩ := h
  have hperm := sortTexts_perm (grant.authenticationMethods.map authMethodName)
  obtain ⟨hrpt, hsrt⟩ := strictlySorted_sortTexts (hnd.map authMethodName_injective)
  have hsize : (sortTexts (grant.authenticationMethods.map authMethodName)).length
      = grant.authenticationMethods.length := by rw [hperm.length_eq, length_map]
  refine ⟨hrpt, ?_⟩
  simp only [validAcrAmr, validClaimText_assuranceName, hsrt, Bool.true_and, Bool.and_true,
    Bool.and_eq_true, Bool.not_eq_true', isEmpty_eq_false_iff, decide_eq_true_eq,
    all_eq_true, ← length_pos_iff, hsize]
  refine ⟨⟨length_pos_iff.mpr hnon, hlen⟩, fun name hname => ?_⟩
  obtain ⟨method, -, rfl⟩ := mem_map.mp (hperm.mem_iff.mp hname)
  exact validClaimText_authMethodName method

variable {requested : Option (List Scope)} {scopes : Option (List Scope)}

theorem validateOptionalScopeSubset_spec (h : validateOptionalScopeSubset requested = .ok scopes) :
    scopes = requested.map sortTexts ∧ ∀ list ∈ scopes, list ≠ [] ∧ list.length ≤ maxScopes ∧
      strictlySorted list = true := by
  cases requested with
  | none =>
    cases h
    exact ⟨rfl, nofun⟩
  | some list =>
    simp only [validateOptionalScopeSubset] at h
    split at h
    · cases h
    rename_i hok
    cases h
    simp only [Bool.or_eq_true, not_or, Bool.not_eq_true, isEmpty_eq_false_iff,
      decide_eq_true_eq, Nat.not_lt] at hok
    refine ⟨rfl, fun other hoth => ?_⟩
    obtain rfl := Option.some.inj hoth
    exact ⟨hok.1.1, hok.1.2, strictlySorted_of_pairwise (pairwise_sortTexts list) hok.2⟩

/-- The lifetimes put the expiry of a token into its allowed window. -/
theorem unixSeconds_addStd (now seconds : Nat) :
    unixSeconds (addStd now seconds) = unixSeconds now + seconds := by
  unfold unixSeconds addStd
  omega

def refreshContext (db : Db) (grant : Grant) (resource : Nat) (scopes : List Scope) :
    TokenGrantContext :=
  { grantId := grant.id, clientId := grant.clientId, publicSubject := grant.publicSubject,
    resource, scopes, authTime := grant.authenticatedAt, acr := grant.assuranceLevel,
    amr := grant.authenticationMethods, nonce := none
    verifiedEmail := verifiedEmailWith db grant.userId, refreshAllowed := true }

/-- What the checks after the commit ask besides what the tables guarantee: offline access among the
scopes, a canonical subject, an authentication that is not in the future, and an address, if one is
released in an ID token, that is an address. -/
structure Deliverable (db : Db) (grant : Grant) (scopes : List Scope) (signed : Nat) : Prop where
  offline : offlineAccess ∈ scopes
  subject : validPublicSubject grant.publicSubject = true
  authenticated : unixSeconds grant.authenticatedAt ≤ unixSeconds signed
  email : openid ∈ scopes → emailScope ∈ scopes → ∀ address,
    verifiedEmailWith db grant.userId = some address → validEmailClaim address = true

section Signing

variable (db : Db) {grant : Grant} (signed resource : Nat) (scopes : List Scope)
  (lifetimes : TokenLifetimes) (hck : grant.check = true)

include hck

theorem accessTokenClaims_refreshContext (hnon : scopes ≠ [])
    (hlen : scopes.length ≤ maxScopes) (hsrt : strictlySorted scopes = true) :
    accessTokenClaims (refreshContext db grant resource scopes) signed
        (addStd signed lifetimes.accessToken) =
      if unixSeconds grant.authenticatedAt ≤ unixSeconds signed ∧
          validPublicSubject grant.publicSubject = true then
        some ⟨grant.publicSubject, resource, unixSeconds signed + lifetimes.accessToken,
          unixSeconds signed, grant.clientId, grant.id, scopes, unixSeconds grant.authenticatedAt,
          assuranceName grant.assuranceLevel,
          sortTexts (grant.authenticationMethods.map authMethodName)⟩
      else none := by
  obtain ⟨hrpt, hamr⟩ := validAcrAmr_of_check hck
  have hdistinct : hasRepeat scopes = false :=
    hasRepeat_of_nodup ((pairwise_of_strictlySorted hsrt).imp fun hlt => ne_of_lt hlt)
  have hbounds := lifetimes.accessBounds
  have hwindow : unixSeconds signed < unixSeconds signed + lifetimes.accessToken ∧
      unixSeconds signed + lifetimes.accessToken - unixSeconds signed ≤ 3600 := by omega
  simp only [accessTokenClaims, refreshContext, sortTexts_eq_self hsrt,
    isEmpty_eq_false_iff.mpr hnon, hdistinct, hrpt, hsrt, hamr, unixSeconds_addStd, hwindow,
    Bool.or_false, Bool.false_or, decide_eq_true_eq, Nat.not_lt.mpr hlen, if_false, Bool.and_true,
    Bool.and_eq_true, decide_true, true_and]
  congr 1
  exact propext (and_congr_left' decide_eq_true_iff)

theorem signIdToken_refreshContext
    (hauth : unixSeconds grant.authenticatedAt ≤ unixSeconds signed)
    (hsubject : validPublicSubject grant.publicSubject = true) :
    (∃ idToken, signIdToken lifetimes (refreshContext db grant resource scopes) signed =
      .ok idToken) ↔
      (openid ∈ scopes → emailScope ∈ scopes → ∀ address,
        verifiedEmailWith db grant.userId = some address → validEmailClaim address = true) := by
  obtain ⟨hrpt, hamr⟩ := validAcrAmr_of_check hck
  have hbounds := lifetimes.idBounds
  have hwindow : unixSeconds signed < unixSeconds signed + lifetimes.idToken ∧
      unixSeconds signed + lifetimes.idToken - unixSeconds signed ≤ 900 := by omega
  have hclaims : ∀ email, (idTokenClaims (refreshContext db grant resource scopes) email signed
      (addStd signed lifetimes.idToken)).isSome = true ↔ email.all validEmailClaim = true := by
    intro email
    simp only [idTokenClaims, refreshContext, hrpt, hamr, hsubject, hauth, unixSeconds_addStd,
      hwindow, Bool.false_eq_true, if_false, Bool.and_true, Option.all_none, Bool.true_and,
      decide_true]
    split <;> simp_all
  have hreleased :
      (refreshContext db grant resource scopes).releasedEmail.all validEmailClaim = true ↔
      (emailScope ∈ scopes → ∀ address, verifiedEmailWith db grant.userId = some address →
        validEmailClaim address = true) := by
    unfold TokenGrantContext.releasedEmail
    by_cases hmem : emailScope ∈ scopes
    · cases hadr : verifiedEmailWith db grant.userId <;> simp [refreshContext, hmem, hadr]
    · simp [refreshContext, hmem]
  rw [← hreleased, ← hclaims]
  unfold signIdToken
  by_cases hopen : openid ∈ scopes
  · rw [if_pos (by simpa [refreshContext] using hopen)]
    cases idTokenClaims (refreshContext db grant resource scopes)
      (refreshContext db grant resource scopes).releasedEmail signed
      (addStd signed lifetimes.idToken) <;> simp [hopen]
  · rw [if_neg (by simpa [refreshContext] using hopen)]
    simp [hopen]

/-- **Signing succeeds for canonical scopes exactly if the grant is deliverable**, and the response
is for these scopes. -/
theorem issueTokens_refreshContext (presentation : String) (hnon : scopes ≠ [])
    (hlen : scopes.length ≤ maxScopes) (hsrt : strictlySorted scopes = true) :
    (Deliverable db grant scopes signed ∧
      ∃ response, issueTokens lifetimes (refreshContext db grant resource scopes)
          (some presentation) signed = .ok response ∧
        response.refreshToken = some presentation ∧ response.scopes = scopes ∧
        response.accessToken.scopes = scopes) ∨
    (¬Deliverable db grant scopes signed ∧
      ∃ code, issueTokens lifetimes (refreshContext db grant resource scopes)
        (some presentation) signed = .error code) := by
  have hclaims := accessTokenClaims_refreshContext db signed resource scopes lifetimes hck hnon hlen
    hsrt
  have hfirst : (scopes.isEmpty || decide (maxScopes < scopes.length) || !strictlySorted scopes ||
      (some presentation).isSome != true || (true && !scopes.contains offlineAccess)) = false ↔
      offlineAccess ∈ scopes := by
    simp [hnon, hsrt, Nat.not_lt.mpr hlen]
  by_cases h : Deliverable db grant scopes signed
  · refine .inl ⟨h, ?_⟩
    obtain ⟨idToken, hidToken⟩ := (signIdToken_refreshContext db signed resource scopes lifetimes
      hck h.authenticated h.subject).mpr h.email
    rw [if_pos ⟨h.authenticated, h.subject⟩] at hclaims
    unfold issueTokens
    rw [hclaims]
    exact ⟨_, check_eq_ok.mpr ⟨deny_eq_ok.mpr (hfirst.mpr h.offline),
      bind_eq_ok.mpr ⟨idToken, hidToken, rfl⟩⟩, rfl, rfl, rfl⟩
  · refine .inr ⟨h, ?_⟩
    cases hissue : issueTokens lifetimes (refreshContext db grant resource scopes)
      (some presentation) signed with
    | error code => exact ⟨code, rfl⟩
    | ok response =>
      -- each check that was passed is one of the conditions
      obtain ⟨hchecks, hissue⟩ := check_eq_ok.mp hissue
      rw [hclaims] at hissue
      split at hissue
      · cases hissue
      rename_i hsome
      obtain ⟨hauth, hsubject⟩ := (Option.ite_none_right_eq_some.mp hsome).1
      obtain ⟨idToken, hidToken, -⟩ := bind_eq_ok.mp hissue
      have hemail := (signIdToken_refreshContext db signed resource scopes lifetimes hck hauth
        hsubject).mp ⟨_, hidToken⟩
      exact absurd ⟨hfirst.mp (deny_eq_ok.mp hchecks), hsubject, hauth, hemail⟩ h

end Signing

/-! ## 6. A request that presents a live token -/

variable {load : Nat → Option Grant} {db' : Db} {replacementId clientId now : Nat} {db : Db}

/-- A rotation that presents an unspent token hands out its context, or changes nothing. -/
theorem rotateRefreshToken_unspent {command : RotateRefreshToken}
    {outcome : RotateRefreshOutcome} (hfd : db.findToken command.presentedDigest = some token)
    (hfam : db.findFamily token.familyId = some family) (hlive : token.spent family = false)
    (h : rotateRefreshToken load db replacementId command = .ok (outcome, db')) :
    (∃ grant, Rotates load db command.presentedDigest command.clientId command.now token
        (token.successor replacementId command.replacementDigest command.now
          (min command.replacementExpiresAt family.expiresAt)) family grant db' ∧
      command.resource.any (fun resource => decide (resource ≠ family.resourceUri)) = false ∧
      outcome = .rotated (refreshContext db grant family.resourceUri
        (command.scopes.getD family.grantedScopes))) ∨
    (outcome = .unavailable ∧ db' = db) := by
  obtain ⟨⟨rotation, after⟩, hrotate, h⟩ := bind_eq_ok.mp h
  obtain ⟨token', family', grant, hrot, rfl⟩ | ⟨⟨token', family', -, hfd', hfam', hspent⟩,
    -⟩ | ⟨⟨_, rfl⟩, rfl⟩ := rotateRefreshTokenWith_spec (stateStore_eq_ok.mp hrotate)
  · obtain rfl : token' = token := Option.some.inj (hrot.found.symm.trans hfd)
    obtain rfl : family' = family := Option.some.inj (hrot.inFamily.symm.trans hfam)
    simp only [finishRotatedRefresh] at h
    split_ifs at h with hrsc hscs
    · cases h
      exact .inr ⟨rfl, rfl⟩
    · cases h
      exact .inr ⟨rfl, rfl⟩
    obtain ⟨context, hctx, ⟨⟩⟩ := bind_eq_ok.mp h
    refine .inl ⟨grant, hrot, Bool.eq_false_iff.mpr hrsc, ?_⟩
    unfold tokenContext at hctx
    split at hctx
    · cases hctx
    cases hctx
    rw [hrot.result]
    rfl
  · obtain rfl : token' = token := Option.some.inj (hfd'.symm.trans hfd)
    obtain rfl : family' = family := Option.some.inj (hfam'.symm.trans hfam)
    rw [hlive] at hspent
    cases hspent
  · cases h
    exact .inr ⟨rfl, rfl⟩

variable {digest : Nat}

theorem prepare_spec {server : Server} {request : RefreshTokenRequest} {readings : Readings}
    {client : ResolvedClient}
    (h : prepare server request readings = .ok (client, scopes, digest)) :
    validateOptionalScopeSubset request.scopes = .ok scopes ∧
      server.parseBearer request.refreshToken = some digest := by
  obtain ⟨_, -, h⟩ := bind_eq_ok.mp h
  obtain ⟨-, h⟩ := check_eq_ok.mp h
  obtain ⟨scopes', hscs, h⟩ := bind_eq_ok.mp h
  cases hbearer : server.parseBearer request.refreshToken with
  | none => simp [hbearer] at h
  | some digest' =>
    simp only [hbearer] at h
    cases h
    exact ⟨hscs, rfl⟩

theorem Sound.client_of_rotates {successor : RefreshToken} (h : Sound db)
    (hr : Rotates db.loadLiveGrant db digest clientId now token successor family grant db') :
    grant ∈ db.grants ∧ grant.clientId = clientId := by
  obtain ⟨hgr, hid, -⟩ := Db.loadLiveGrant_eq_some hr.live
  obtain ⟨hfam, hfid⟩ := Db.findFamily_eq_some hr.inFamily
  obtain ⟨own, hown, hownId, hownGrant, -⟩ := h.familyOf token (Db.findToken_eq_some hr.found).1
  obtain rfl : own = family := Rows.eq_of_key h.familyIds hown hfam (hownId.trans hfid.symm)
  obtain ⟨other, hoth, hotherId, hcli, -⟩ := h.grantOf own hown
  obtain rfl : other = grant :=
    Rows.eq_of_key h.grantIds hoth hgr (by rw [hotherId, hownGrant, hid])
  exact ⟨hgr, hcli.trans hr.ownClient⟩

/-- The scopes asked for, in order, or all of the family's. -/
def RefreshTokenRequest.asked (request : RefreshTokenRequest) (family : RefreshFamily) :
    List Scope :=
  (request.scopes.map sortTexts).getD family.grantedScopes

/-- What a refresh request delivers: the successor, which is live, and tokens for the scopes asked
for. -/
def Delivered (request : RefreshTokenRequest) (replacement : Replacement) (token : RefreshToken)
    (family : RefreshFamily) (response : TokenResponse) (db' : Db) : Prop :=
  response.refreshToken = some replacement.presentation ∧
    response.scopes = request.asked family ∧ response.accessToken.scopes = request.asked family ∧
    db'.findFamily token.familyId = some family ∧
    ∃ successor ∈ db'.tokens, successor.tokenDigest = replacement.digest ∧
      successor.familyId = token.familyId ∧ successor.spent family = false

theorem Rotates.successor_live {replacementDigest expires : Nat}
    (h : Rotates load db digest clientId now token
      (token.successor replacementId replacementDigest now expires) family grant db') :
    ∃ successor ∈ db'.tokens, successor.tokenDigest = replacementDigest ∧
      successor.familyId = token.familyId ∧ successor.spent family = false := by
  have hfam : family.revokedAt.isSome = false := by
    have hunspent := h.unspent
    simp only [RefreshToken.spent, Bool.or_eq_false_iff] at hunspent
    exact hunspent.2
  have hne : replacementId ≠ token.id := fun heq =>
    (Db.tokenClash_eq_false (h.fresh token (Db.findToken_eq_some h.found).1)).1 heq.symm
  refine ⟨token.successor replacementId replacementDigest now expires, ?_, rfl, rfl, ?_⟩
  · rw [h.result]
    refine mem_map.mpr ⟨_, mem_append_right _ mem_cons_self, ?_⟩
    exact if_neg fun hsame => hne (of_decide_eq_true hsame)
  · simp [RefreshToken.spent, RefreshToken.successor, hfam]

/-- The request passes the checks before the rotation, and the rotation is committed. -/
def Commits (server : Server) (db : Db) (request : RefreshTokenRequest)
    (replacement : Replacement) (readings : Readings) : Prop :=
  ∃ client scopes digest context db',
    prepare server request readings = .ok (client, scopes, digest) ∧
    rotateRefreshToken db.loadLiveGrant db replacement.tokenId
      (request.command server client scopes digest replacement readings.now) =
        .ok (.rotated context, db')

/-- The scopes asked for are canonical. -/
theorem asked_canonical {request : RefreshTokenRequest} {familyId : Nat} (hsd : Sound db)
    (hfam : db.findFamily familyId = some family)
    (hval : ∀ list ∈ request.scopes.map sortTexts, list ≠ [] ∧ list.length ≤ maxScopes ∧
      strictlySorted list = true) :
    request.asked family ≠ [] ∧ (request.asked family).length ≤ maxScopes ∧
      strictlySorted (request.asked family) = true := by
  unfold RefreshTokenRequest.asked
  cases hrequested : request.scopes with
  | none =>
    have hck := hsd.checked.families family (Db.findFamily_eq_some hfam).1
    simp only [RefreshFamily.check, canonicalScopes, Bool.and_eq_true, decide_eq_true_eq,
      Bool.not_eq_true', isEmpty_eq_false_iff] at hck
    obtain ⟨⟨⟨⟨⟨hsrt, hnon⟩, hlen⟩, -⟩, -⟩, -⟩ := hck
    exact ⟨hnon, hlen, hsrt⟩
  | some requested => exact hval _ (by rw [hrequested]; rfl)

/-- **What a request that presents an unspent token does**: it is refused before the commit and
changes nothing, or it rotates the token and ends as the signing does. -/
theorem refresh_cases (server : Server) (request : RefreshTokenRequest)
    (replacement : Replacement) (readings : Readings) (hsd : Sound db)
    (hpresented : server.parseBearer request.refreshToken = some digest)
    (hfd : db.findToken digest = some token) (hfam : db.findFamily token.familyId = some family)
    (hlive : token.spent family = false) :
    (¬Commits server db request replacement readings ∧
      ∃ code, refresh server db request replacement readings = (.error code, db)) ∨
    (Commits server db request replacement readings ∧
      (request.asked family ≠ [] ∧ (request.asked family).length ≤ maxScopes ∧
        strictlySorted (request.asked family) = true) ∧
      ∃ clientId grant db', Rotates db.loadLiveGrant db digest clientId readings.now token
          (token.successor replacement.tokenId replacement.digest readings.now
            (min (addStd readings.now server.lifetimes.refreshToken) family.expiresAt))
          family grant db' ∧ grant ∈ db.grants ∧
        refresh server db request replacement readings =
          (issueTokens server.lifetimes (refreshContext db grant family.resourceUri
            (request.asked family)) (some replacement.presentation) readings.signed, db')) := by
  unfold Commits refresh
  cases hprepare : prepare server request readings with
  | error code => exact .inl ⟨by simp, code, rfl⟩
  | ok prepared =>
    obtain ⟨client, scopes, digest'⟩ := prepared
    obtain ⟨hscs, hbearer⟩ := prepare_spec hprepare
    obtain rfl : digest' = digest := Option.some.inj (hbearer.symm.trans hpresented)
    obtain ⟨rfl, hval⟩ := validateOptionalScopeSubset_spec hscs
    -- Over any rotation, so that the kernel has none to evaluate.
    obtain ⟨rotate, hrtt⟩ : ∃ rotate, rotate = rotateRefreshToken := ⟨_, rfl⟩
    rw [← hrtt]
    simp only [Except.ok.injEq, Prod.mk.injEq, exists_and_left, and_assoc, exists_eq_left']
    cases hrotate : rotate db.loadLiveGrant db replacement.tokenId
        (request.command server client (request.scopes.map sortTexts) digest' replacement
          readings.now) with
    | error => exact .inl ⟨by simp, .serverError, rfl⟩
    | ok answer =>
      subst hrtt
      obtain ⟨outcome, db'⟩ := answer
      obtain ⟨grant, hrot, hrsc, rfl⟩ | ⟨rfl, rfl⟩ :=
        rotateRefreshToken_unspent hfd hfam hlive hrotate
      · obtain ⟨hgr, hcli⟩ := hsd.client_of_rotates hrot
        obtain ⟨hnon, hlen, hsrt⟩ := asked_canonical hsd hfam hval
        refine .inr ⟨⟨_, _, rfl⟩, hnon, hlen, hsrt, _, grant, db', hrot, hgr, congrArg (·, db') ?_⟩
        -- what the service asks of the context again is what the adapter put in
        have hrsc : request.resource.any
            (fun resource => decide (resource ≠ family.resourceUri)) = false := hrsc
        have hcli : grant.clientId = client.clientId := hcli
        unfold deliver RefreshTokenRequest.asked
        simp only [RefreshTokenRequest.command, refreshContext, hcli, hrsc]
        cases request.scopes <;> simp [deny] <;> rfl
      · exact .inl ⟨by simp, .invalidGrant, rfl⟩

/-- **A refused refresh request costs nothing, exactly if what is committed can be delivered.**  A
request that presents an unspent token gets its successor and tokens for exactly the scopes asked
for, or fails and leaves the tables as they were, if and only if it is refused before the commit or
its grant is deliverable in these scopes. -/
theorem refused_refresh_costs_nothing (server : Server) {db : Db} (request : RefreshTokenRequest)
    (replacement : Replacement) (readings : Readings) {digest : Nat} {token : RefreshToken}
    {family : RefreshFamily} (hsound : Sound db)
    (hpresented : server.parseBearer request.refreshToken = some digest)
    (hfound : db.findToken digest = some token)
    (hfamily : db.findFamily token.familyId = some family) (hlive : token.spent family = false) :
    ((∃ response db', refresh server db request replacement readings = (.ok response, db') ∧
        Delivered request replacement token family response db') ∨
      ∃ code, refresh server db request replacement readings = (.error code, db)) ↔
    (Commits server db request replacement readings →
      ∀ grant, db.loadLiveGrant token.grantId = some grant →
        Deliverable db grant (request.asked family) readings.signed) := by
  obtain ⟨hnot, hrefused⟩ | ⟨hcommits, ⟨hnon, hlen, hsrt⟩, clientId, grant, db', hrot, hgr, heq⟩ :=
    refresh_cases server request replacement readings hsound hpresented hfound hfamily hlive
  · exact iff_of_true (.inr hrefused) fun hcommits => absurd hcommits hnot
  have hgrant : (Commits server db request replacement readings →
      ∀ grant, db.loadLiveGrant token.grantId = some grant →
        Deliverable db grant (request.asked family) readings.signed) ↔
      Deliverable db grant (request.asked family) readings.signed := by
    simp [hcommits, hrot.live]
  rw [heq, hgrant]
  obtain ⟨hdeliverable, response, hissue, hshape⟩ | ⟨hundeliverable, code, hissue⟩ :=
    issueTokens_refreshContext db readings.signed family.resourceUri (request.asked family)
      server.lifetimes (hsound.checked.grants grant hgr) replacement.presentation hnon hlen hsrt
  · rw [hissue]
    refine iff_of_true (.inl ⟨response, db', rfl, hshape.1, hshape.2.1, hshape.2.2, ?_,
      hrot.successor_live⟩) hdeliverable
    rw [hrot.result]
    exact hfamily
  · rw [hissue]
    refine iff_of_false ?_ hundeliverable
    rintro (⟨response, db'', heq, -⟩ | ⟨code', heq⟩)
    · cases heq
    · -- the tables have one token more
      have hlength := congrArg (·.tokens.length) ((Prod.mk.inj heq).2.symm.trans hrot.result)
      simp [Db.rotated] at hlength

/-- A family for offline access and tools, whose first bearer is digest 101. -/
def toolsFamily : List Action :=
  [.enlist ⟨[1], [], [7], []⟩,
    .createGrant 10 ⟨1, List.replicate 43 'A', none, 7, [5], [offlineAccess, "tools".toList], 0,
      .aal1, [.password], 0⟩,
    .persistCode 20 ⟨100, 10, 7, 3, [5], [offlineAccess, "tools".toList], 9, none, 0, 1000⟩,
    .readGrant 1, .exchange 1 30 40 ⟨100, 7, 3, 5, 9, 101, 5000, 0⟩]

def publicClient : ResolvedClient :=
  ⟨7, "app", "app", [3], .none, [.authorizationCode, .refreshToken], [], [5]⟩

def oneClient : Server where
  lifetimes := ⟨300, 300, 86400, by decide, by decide, by decide⟩
  tokenEndpoint := "token"
  resolveClient _ := some publicClient
  authenticateClientSecret _ _ := false
  acceptPrivateKeyAssertion _ _ := false
  parseBearer _ := some 101

theorem refused_refresh_costs_nothing_unnarrowed : ∃ w token family response db',
    (machine id).run (machine id).start toolsFamily = some w ∧
      refresh oneClient w.db ⟨.none 7, "first", none, none⟩ ⟨"second", 102, 41⟩ ⟨10, 10, 10⟩
        = (.ok response, db') ∧
      Delivered ⟨.none 7, "first", none, none⟩ ⟨"second", 102, 41⟩ token family response db' := by
  obtain ⟨w, hrun, hdelivered, token, hfd, family, hfam, hlive, hoff, grant, hgr,
      hsubject, hemail, hauth⟩ : ∃ w, (machine id).run (machine id).start toolsFamily = some w ∧
      (refresh oneClient w.db ⟨.none 7, "first", none, none⟩ ⟨"second", 102, 41⟩
        ⟨10, 10, 10⟩).1.isOk = true ∧
      ∃ token, w.db.findToken 101 = some token ∧
      ∃ family, w.db.findFamily token.familyId = some family ∧ token.spent family = false ∧
        offlineAccess ∈ family.grantedScopes ∧
      ∃ grant, w.db.loadLiveGrant token.grantId = some grant ∧
        validPublicSubject grant.publicSubject = true ∧
        verifiedEmailWith w.db grant.userId = none ∧
        unixSeconds grant.authenticatedAt ≤ unixSeconds 10 :=
    ⟨_, rfl, rfl, _, rfl, _, rfl, rfl, by decide, _, rfl, by decide, rfl, by decide⟩
  have hdeliverable : ∀ grant, w.db.loadLiveGrant token.grantId = some grant →
      Deliverable w.db grant family.grantedScopes 10 := by
    intro other hoth
    obtain rfl : grant = other := Option.some.inj (hgr.symm.trans hoth)
    exact ⟨hoff, hsubject, hauth, fun _ _ _ hadr => by simp [hemail] at hadr⟩
  obtain ⟨response, db', hresp⟩ | ⟨code, hrfd⟩ := (refused_refresh_costs_nothing oneClient
    ⟨.none 7, "first", none, none⟩ ⟨"second", 102, 41⟩ ⟨10, 10, 10⟩
    (kept_of_reach (Machine.reach_of_run _ hrun)).sound rfl hfd hfam hlive).mpr
    fun _ => hdeliverable
  · exact ⟨w, token, family, response, db', hrun, hresp⟩
  · rw [hrfd] at hdelivered
    cases hdelivered

/-- **A request for less than offline access loses its token.**  The client that holds the live
bearer asks for its tools alone: the rotation commits, the signing step refuses, and the successor
that is now the family's only live token reaches nobody. -/
theorem narrowed_refresh_loses_token : ∃ w db',
    (machine id).run (machine id).start toolsFamily = some w ∧
      (∃ token family, w.db.findToken 101 = some token ∧
        w.db.findFamily token.familyId = some family ∧ token.spent family = false ∧
        family.clientId = publicClient.clientId ∧ "tools".toList ∈ family.grantedScopes) ∧
      refresh oneClient w.db ⟨.none 7, "first", some ["tools".toList], none⟩ ⟨"second", 102, 41⟩
        ⟨10, 10, 10⟩ = (.error .serverError, db') ∧
      (∃ token family, db'.findToken 101 = some token ∧
        db'.findFamily token.familyId = some family ∧ token.spent family = true) ∧
      (∃ successor ∈ db'.tokens, successor.tokenDigest = 102 ∧ successor.consumedAt = none) :=
  ⟨_, _, rfl, ⟨_, _, rfl, rfl, rfl, rfl, by decide⟩, rfl, ⟨_, _, rfl, rfl, rfl⟩,
    _, .tail _ (.head _), rfl, rfl⟩

end Omnius.OAuth
