/-
# What each transaction does to the tables

A transaction of the authorization server does one of a few things to the stored rows: it MARKS
rows (revoked, reused, consumed) without touching what they are bound to, it adds a grant or a code,
it STARTS a family, it ROTATES a token, or it deletes expired rows.  The lemmas here say this once
for each transaction, so that an invariant of the tables is proved about these few changes and not
about the transactions.
-/
import Omnius.OAuth.Store

namespace Omnius.OAuth

open Omnius.Lib Rows

/-! ## 1. Marks -/

/-- The token is the same but for its revocation, which is kept once set and is set to `now`. -/
structure TokenMarked (now : Nat) (token token' : RefreshToken) : Prop where
  same : token' =
    { token with revokedAt := token'.revokedAt, reuseDetectedAt := token'.reuseDetectedAt }
  kept : token.revokedAt.isSome = true → token'.revokedAt.isSome = true
  stamp : ∀ at_, token'.revokedAt = some at_ → token.revokedAt = some at_ ∨ at_ = now

structure FamilyMarked (now : Nat) (family family' : RefreshFamily) : Prop where
  same : family' = { family with
    revokedAt := family'.revokedAt, revocationReason := family'.revocationReason,
    reuseDetectedAt := family'.reuseDetectedAt }
  kept : family.revokedAt.isSome = true → family'.revokedAt.isSome = true
  stamp : ∀ at_, family'.revokedAt = some at_ → family.revokedAt = some at_ ∨ at_ = now

/-- What a grant is bound to never changes, and a revoked grant stays revoked. -/
structure GrantKept (grant grant' : Grant) : Prop where
  same : grant' = { grant with revokedAt := grant'.revokedAt, updatedAt := grant'.updatedAt }
  kept : grant.revokedAt.isSome = true → grant'.revokedAt.isSome = true

structure GrantMarked (now : Nat) (grant grant' : Grant) : Prop
    extends GrantKept grant grant' where
  stamp : grant'.updatedAt = grant.updatedAt ∨ grant'.updatedAt = now

structure CodeMarked (code code' : AuthorizationCode) : Prop where
  same : code' =
    { code with consumedAt := code'.consumedAt, exchangeOutcome := code'.exchangeOutcome }
  kept : code.consumedAt.isSome = true → code'.consumedAt.isSome = true

namespace TokenMarked

variable {now : Nat} {a b c : RefreshToken}

theorem refl (token : RefreshToken) : TokenMarked now token token := ⟨rfl, id, fun _ h => .inl h⟩

variable (h : TokenMarked now a b)

include h

theorem trans (h' : TokenMarked now b c) : TokenMarked now a c where
  same := by rw [h'.same, h.same]
  kept := h'.kept ∘ h.kept
  stamp at_ hat := (h'.stamp at_ hat).elim (h.stamp at_) .inr

theorem id_eq : b.id = a.id := by rw [h.same]
theorem tokenDigest_eq : b.tokenDigest = a.tokenDigest := by rw [h.same]
end TokenMarked

namespace FamilyMarked

variable {now : Nat} {a b c : RefreshFamily}

theorem refl (family : RefreshFamily) : FamilyMarked now family family :=
  ⟨rfl, id, fun _ h => .inl h⟩

theorem trans (h : FamilyMarked now a b) (h' : FamilyMarked now b c) : FamilyMarked now a c where
  same := by rw [h'.same, h.same]
  kept := h'.kept ∘ h.kept
  stamp at_ hat := (h'.stamp at_ hat).elim (h.stamp at_) .inr

theorem id_eq (h : FamilyMarked now a b) : b.id = a.id := by rw [h.same]

end FamilyMarked

namespace GrantKept

variable {a b c : Grant}

theorem refl (grant : Grant) : GrantKept grant grant := ⟨rfl, id⟩

theorem trans (h : GrantKept a b) (h' : GrantKept b c) : GrantKept a c where
  same := by rw [h'.same, h.same]
  kept := h'.kept ∘ h.kept

theorem id_eq (h : GrantKept a b) : b.id = a.id := by rw [h.same]

end GrantKept

namespace GrantMarked

variable {now : Nat} {a b c : Grant}

theorem refl (grant : Grant) : GrantMarked now grant grant := ⟨.refl grant, .inl rfl⟩

theorem trans (h : GrantMarked now a b) (h' : GrantMarked now b c) : GrantMarked now a c :=
  ⟨h.toGrantKept.trans h'.toGrantKept, h'.stamp.elim (fun heq => heq ▸ h.stamp) .inr⟩

end GrantMarked

namespace CodeMarked

variable {a b c : AuthorizationCode}

theorem refl (code : AuthorizationCode) : CodeMarked code code := ⟨rfl, id⟩

theorem trans (h : CodeMarked a b) (h' : CodeMarked b c) : CodeMarked a c where
  same := by rw [h'.same, h.same]
  kept := h'.kept ∘ h.kept

theorem codeDigest_eq (h : CodeMarked a b) : b.codeDigest = a.codeDigest := by rw [h.same]

end CodeMarked

/-- Every row passes the checks of its table. -/
structure Db.Checked (db : Db) : Prop where
  grants : ∀ grant ∈ db.grants, grant.check = true
  families : ∀ family ∈ db.families, family.check = true
  tokens : ∀ token ∈ db.tokens, token.check = true

/-- A transaction that only marks rows. -/
structure Marked (now : Nat) (db db' : Db) : Prop where
  grants : Rows.Mapped (GrantMarked now) db.grants db'.grants
  codes : Rows.Mapped CodeMarked db.codes db'.codes
  families : Rows.Mapped (FamilyMarked now) db.families db'.families
  tokens : Rows.Mapped (TokenMarked now) db.tokens db'.tokens
  checked : db.Checked → db'.Checked

namespace Marked

variable {now : Nat} {db db' db'' : Db}

theorem refl (db : Db) : Marked now db db :=
  ⟨.refl .refl _, .refl .refl _, .refl .refl _, .refl .refl _, id⟩

theorem trans (h : Marked now db db') (h' : Marked now db' db'') : Marked now db db'' :=
  ⟨h.grants.trans .trans h'.grants, h.codes.trans .trans h'.codes,
    h.families.trans .trans h'.families, h.tokens.trans .trans h'.tokens,
    h'.checked ∘ h.checked⟩

theorem of_tables (hgrs : db'.grants = db.grants) (hcodes : db'.codes = db.codes)
    (hfams : db'.families = db.families) (htoks : db'.tokens = db.tokens) :
    Marked now db db' := by
  refine ⟨?_, ?_, ?_, ?_, fun h => ?_⟩
  · exact hgrs ▸ .refl .refl _
  · exact hcodes ▸ .refl .refl _
  · exact hfams ▸ .refl .refl _
  · exact htoks ▸ .refl .refl _
  · exact ⟨hgrs ▸ h.grants, hfams ▸ h.families, htoks ▸ h.tokens⟩

theorem updateGrants {condition : Grant → Bool} {change : Grant → Grant}
    (hch : ∀ grant, condition grant = true → GrantMarked now grant (change grant))
    (h : db.updateGrants condition change = .ok db') : Marked now db db' := by
  obtain ⟨grants, hrows, rfl⟩ := stored_eq_ok.mp h
  exact ⟨.of_update .refl hch hrows, .refl .refl _, .refl .refl _, .refl .refl _,
    fun h => { h with grants := checked_update h.grants hrows }⟩

theorem updateCodes {condition : AuthorizationCode → Bool}
    {change : AuthorizationCode → AuthorizationCode}
    (hch : ∀ code, condition code = true → CodeMarked code (change code))
    (h : db.updateCodes condition change = .ok db') : Marked now db db' := by
  obtain ⟨codes, hrows, rfl⟩ := stored_eq_ok.mp h
  exact ⟨.refl .refl _, .of_update .refl hch hrows, .refl .refl _, .refl .refl _,
    fun h => { h with }⟩

theorem updateFamilies {condition : RefreshFamily → Bool} {change : RefreshFamily → RefreshFamily}
    (hch : ∀ family, condition family = true → FamilyMarked now family (change family))
    (h : db.updateFamilies condition change = .ok db') : Marked now db db' := by
  obtain ⟨families, hrows, rfl⟩ := stored_eq_ok.mp h
  exact ⟨.refl .refl _, .refl .refl _, .of_update .refl hch hrows, .refl .refl _,
    fun h => ⟨h.grants, checked_update h.families hrows, h.tokens⟩⟩

theorem updateTokens {condition : RefreshToken → Bool} {change : RefreshToken → RefreshToken}
    (hch : ∀ token, condition token = true → TokenMarked now token (change token))
    (h : db.updateTokens condition change = .ok db') : Marked now db db' := by
  obtain ⟨tokens, hrows, rfl⟩ := stored_eq_ok.mp h
  exact ⟨.refl .refl _, .refl .refl _, .refl .refl _, .of_update .refl hch hrows,
    fun h => { h with tokens := checked_update h.tokens hrows }⟩

end Marked

/-! ### The marks the code makes -/

section Marks

variable {now : Nat}

theorem tokenMarked_reuse (token : RefreshToken) :
    TokenMarked now token { token with reuseDetectedAt := some now } :=
  ⟨rfl, id, fun _ h => .inl h⟩

theorem tokenMarked_revoke (token : RefreshToken) :
    TokenMarked now token { token with revokedAt := some now } :=
  ⟨rfl, fun _ => rfl, fun _ h => .inr (Option.some.inj h).symm⟩

theorem familyMarked_revoke (reason : RevocationReason) (family : RefreshFamily) :
    FamilyMarked now family
      { family with revokedAt := some now, revocationReason := some reason } :=
  ⟨rfl, fun _ => rfl, fun _ h => .inr (Option.some.inj h).symm⟩

theorem coalesce_eq (old : Option Nat) {at_ : Nat} (h : some (old.getD now) = some at_) :
    old = some at_ ∨ at_ = now := by
  cases old with
  | none => exact .inr (Option.some.inj h).symm
  | some value => exact .inl h

theorem grantMarked_revoke (revokedAt : Nat) (grant : Grant) :
    GrantMarked now grant { grant with revokedAt := some revokedAt, updatedAt := now } :=
  ⟨⟨rfl, fun _ => rfl⟩, .inr rfl⟩

end Marks

/-! ## 2. Revocations only mark -/

section Revocations

variable {db db' : Db} {now grantId : Nat} {changed : Bool}

theorem revokeReusedFamily_marked {presentedTokenId familyId : Nat} {tokenWasConsumed : Bool}
    (h : revokeReusedFamily db presentedTokenId familyId grantId tokenWasConsumed now = .ok db') :
    Marked now db db' := by
  obtain ⟨db₁, h₁, h⟩ := bind_eq_ok.mp h
  obtain ⟨db₂, h₂, h⟩ := bind_eq_ok.mp h
  obtain ⟨db₃, h₃, h⟩ := bind_eq_ok.mp h
  have hfst : Marked now db db₁ := by
    unfold recordReuse at h₁
    split at h₁
    · exact .updateTokens (fun token _ => tokenMarked_reuse token) h₁
    · cases h₁
      exact .refl db
  have hfam : Marked now db₁ db₂ := .updateFamilies (fun family _ =>
    ⟨rfl, fun _ => rfl, fun _ h => coalesce_eq family.revokedAt h⟩) h₂
  have htoks : Marked now db₂ db₃ := .updateTokens (fun token _ => tokenMarked_revoke token) h₃
  have hgr : Marked now db₃ db' := .updateGrants (fun grant _ => grantMarked_revoke _ grant) h
  exact ((hfst.trans hfam).trans htoks).trans hgr

theorem revokeRefreshTokenWith_marked {digest : Nat} {clientId : Option Nat}
    (h : revokeRefreshTokenWith db digest clientId now = .ok (changed, db')) :
    Marked now db db' := by
  unfold revokeRefreshTokenWith at h
  split at h
  · cases h
    exact .refl db
  split at h
  · cases h
    exact .refl db
  obtain ⟨db₁, h₁, h⟩ := bind_eq_ok.mp h
  obtain ⟨db₂, h₂, h⟩ := bind_eq_ok.mp h
  obtain ⟨db₃, h₃, ⟨⟩⟩ := bind_eq_ok.mp h
  have hfam : Marked now db db₁ := .updateFamilies (fun f _ => familyMarked_revoke _ f) h₁
  have htoks : Marked now db₁ db₂ := .updateTokens (fun t _ => tokenMarked_revoke t) h₂
  have hgr : Marked now db₂ db' := .updateGrants (fun g _ => grantMarked_revoke _ g) h₃
  exact (hfam.trans htoks).trans hgr

theorem revokeGrantWith_marked {userId : Nat}
    (h : revokeGrantWith db userId grantId now = .ok (changed, db')) : Marked now db db' := by
  unfold revokeGrantWith at h
  split at h
  · cases h
    exact .refl db
  obtain ⟨db₁, h₁, h⟩ := bind_eq_ok.mp h
  obtain ⟨db₂, h₂, ⟨⟩⟩ := bind_eq_ok.mp h
  have hgr : Marked now db db₁ := by
    unfold revokeGrantRow at h₁
    split at h₁
    · exact .updateGrants (fun g _ => grantMarked_revoke _ g) h₁
    · cases h₁
      exact .refl db
  exact hgr.trans (.updateFamilies (fun f _ => familyMarked_revoke _ f) h₂)

theorem disableClientWith_marked {clientId : Nat}
    (h : disableClientWith db clientId now = .ok db') : Marked now db db' := by
  obtain ⟨db₁, h₁, h⟩ := bind_eq_ok.mp h
  have hgrs := Marked.updateGrants (fun g _ => grantMarked_revoke now g) h₁
  have hfams := Marked.updateFamilies (fun f _ => familyMarked_revoke .clientDisabled f) h
  have hsame : Marked now db (db.deactivate clientId) := .of_tables rfl rfl rfl rfl
  exact hsame.trans (hgrs.trans hfams)

end Revocations

/-! ## 3. Rotations -/

/-- The table of tokens once `successor` has been put after `token`. -/
def Db.rotated (db : Db) (token successor : RefreshToken) : Db :=
  let replaced := Rows.patch (·.id = token.id)
    (RefreshToken.consume successor.id successor.issuedAt)
  { db with tokens := (db.tokens ++ [successor]).map replaced }

/-- Everything a successful rotation of the store read and wrote. -/
structure Rotates (load : Nat → Option Grant) (db : Db) (digest clientId now : Nat)
    (token successor : RefreshToken) (family : RefreshFamily) (grant : Grant) (db' : Db) :
    Prop where
  found : db.findToken digest = some token
  inFamily : db.findFamily token.familyId = some family
  unspent : token.spent family = false
  ownClient : family.clientId = clientId
  issued : token.issuedAt ≤ now
  unexpired : now < token.expiresAt ∧ now < family.expiresAt
  live : load token.grantId = some grant
  within : sortedSubset family.grantedScopes grant.grantedScopes = true ∧
    grant.resources.contains family.resourceUri = true
  fresh : ∀ old ∈ db.tokens, Db.tokenClash successor old = false
  result : db' = db.rotated token successor
  checked : ∀ row ∈ db'.tokens, row ∈ db.tokens ∨ row.check = true

variable {replacementId replacementDigest expires digest : Nat}

theorem persistRefreshReplacement_spec {db db' : Db} {token successor : RefreshToken}
    {family : RefreshFamily} {now : Nat} (hsucc : successor =
      token.successor replacementId replacementDigest now (min expires family.expiresAt))
    (h : persistRefreshReplacement db token family replacementId replacementDigest now expires
      = .ok db') :
    (∀ old ∈ db.tokens, Db.tokenClash successor old = false) ∧ db' = db.rotated token successor ∧
      ∀ row ∈ db'.tokens, row ∈ db.tokens ∨ row.check = true := by
  subst hsucc
  obtain ⟨-, h⟩ := check_eq_ok.mp h
  obtain ⟨db₁, h₁, h₂⟩ := bind_eq_ok.mp h
  obtain ⟨inserted, hinsert, rfl⟩ := stored_eq_ok.mp h₁
  obtain ⟨updated, hupd, rfl⟩ := stored_eq_ok.mp h₂
  obtain ⟨hck, hfr, rfl⟩ := insert_eq_ok.mp hinsert
  obtain ⟨hchk, rfl⟩ := update_eq_ok.mp hupd
  refine ⟨hfr, rfl, forall_patched (fun row hrow hcond => .inr (hchk row hrow hcond)) ?_⟩
  intro row hrow _
  obtain hold | hnew := List.mem_append.mp hrow
  · exact .inl hold
  · exact .inr (List.mem_singleton.mp hnew ▸ hck)

/-- A rotation that commits rotates, only marks rows, or changes nothing. -/
theorem rotateRefreshTokenWith_spec {load : Nat → Option Grant} {db db' : Db} {clientId now : Nat}
    {rotation : RefreshRotation}
    (h : rotateRefreshTokenWith load db digest clientId replacementId replacementDigest now expires
      = .ok (rotation, db')) :
    (∃ token family grant,
      Rotates load db digest clientId now token (token.successor replacementId replacementDigest
        now (min expires family.expiresAt)) family grant db' ∧
      rotation = .rotated
        { grant, resource := family.resourceUri, grantedScopes := family.grantedScopes,
          familyId := token.familyId, tokenId := replacementId,
          rotationSequence := token.rotationSequence + 1,
          expiresAt := min expires family.expiresAt }) ∨
    ((∃ token family, rotation = .reuseDetected token.familyId token.grantId ∧
      db.findToken digest = some token ∧ db.findFamily token.familyId = some family ∧
      token.spent family = true) ∧ Marked now db db') ∨
    ((∃ rejection, rotation = .rejected rejection) ∧ db' = db) := by
  obtain ⟨-, h⟩ := check_eq_ok.mp h
  split at h
  · cases h
    exact .inr (.inr ⟨⟨_, rfl⟩, rfl⟩)
  rename_i token hfd
  split at h
  · cases h
    exact .inr (.inr ⟨⟨_, rfl⟩, rfl⟩)
  rename_i family hfam
  split_ifs at h with hspent hcli hiss hexp
  · obtain ⟨db₁, h₁, ⟨⟩⟩ := bind_eq_ok.mp h
    exact .inr (.inl ⟨⟨token, family, rfl, hfd, hfam, hspent⟩, revokeReusedFamily_marked h₁⟩)
  · cases h
    exact .inr (.inr ⟨⟨_, rfl⟩, rfl⟩)
  · cases h
    exact .inr (.inr ⟨⟨_, rfl⟩, rfl⟩)
  split at h
  · cases h
    exact .inr (.inr ⟨⟨_, rfl⟩, rfl⟩)
  rename_i grant hload
  obtain ⟨hwi, h⟩ := check_eq_ok.mp h
  obtain ⟨db₁, h₁, ⟨⟩⟩ := bind_eq_ok.mp h
  obtain ⟨hfr, hrsl, hchk⟩ := persistRefreshReplacement_spec rfl h₁
  simp only [Bool.or_eq_true, decide_eq_true_eq, not_or, Nat.not_le] at hexp
  refine .inl ⟨token, family, grant, ?_, rfl⟩
  exact
    { found := hfd, inFamily := hfam, unspent := Bool.eq_false_iff.mpr hspent
      ownClient := not_not.mp hcli, issued := Nat.not_lt.mp hiss
      unexpired := hexp, live := hload, within := by simpa using hwi
      fresh := hfr, result := hrsl, checked := hchk }

/-! ## 4. Exchanges -/

/-- The table of codes once `stored` has been exchanged. -/
def Db.consumed (db : Db) (stored : AuthorizationCode) (outcome : ExchangeOutcome) (now : Nat) :
    Db :=
  let consume := Rows.patch (·.id = stored.id) fun code : AuthorizationCode =>
    { code with consumedAt := some now, exchangeOutcome := some outcome }
  { db with codes := db.codes.map consume }

/-- Everything a successful exchange of the store read and wrote. -/
structure Consumes (challenge : Nat → Nat) (load : Nat → Option Grant) (db : Db) (digest : Nat)
    (binding : AuthorizationCodeBinding) (now : Nat) (stored : AuthorizationCode) (live : Grant)
    (db' : Db) : Prop where
  found : db.findCode digest = some stored
  unused : stored.consumedAt = none
  bound : stored.bindingMatches challenge binding = true
  live : load stored.grantId = some live
  result : db' = db.consumed stored .issued now
  marked : Marked now db db'

variable {challenge : Nat → Nat} {load : Nat → Option Grant} {db db' : Db}

/-- A code that was recognised is consumed in every outcome. -/
theorem consumeAuthorizationCodeWith_spec {now : Nat} {binding : AuthorizationCodeBinding}
    {exchange : AuthorizationCodeExchange}
    (h : consumeAuthorizationCodeWith challenge load db digest binding now = .ok (exchange, db')) :
    (∃ stored live, Consumes challenge load db digest binding now stored live db' ∧
      exchange = .issued ⟨live, stored.redirectUri, stored.resourceUris, stored.grantedScopes,
        stored.nonce⟩) ∨
    ((exchange = .unavailable ∨ ∃ rejection, exchange = .rejected rejection) ∧
      Marked now db db') := by
  obtain ⟨_, -, h⟩ := bind_eq_ok.mp h
  split at h
  · cases h
    exact .inr ⟨.inl rfl, .refl db⟩
  rename_i stored hcode
  obtain ⟨hfd, hun⟩ := Option.filter_eq_some_iff.mp hcode
  split at h
  · cases h
    exact .inr ⟨.inl rfl, .refl db⟩
  rename_i grant hgr
  obtain ⟨-, h⟩ := check_eq_ok.mp h
  obtain ⟨db₁, hupd, h⟩ := bind_eq_ok.mp h
  have hmk : Marked now db db₁ := .updateCodes (fun _ _ => ⟨rfl, fun _ => rfl⟩) hupd
  cases hrej : stored.rejection challenge grant binding (load stored.grantId) now with
  | some rejection =>
    simp only [hrej] at h
    cases h
    exact .inr ⟨.inr ⟨_, rfl⟩, hmk⟩
  | none =>
    simp only [hrej] at h
    cases hlive : load stored.grantId with
    | none => simp [hlive] at h
    | some live =>
      simp only [hlive] at h
      cases h
      refine .inl ⟨stored, live, ?_, rfl⟩
      obtain ⟨rows, hrows, rfl⟩ := stored_eq_ok.mp hupd
      obtain ⟨-, rfl⟩ := update_eq_ok.mp hrows
      refine
        { found := hfd, unused := by simpa using hun, bound := ?_, live := hlive
          result := by simp [Db.consumed, hrej], marked := hmk }
      unfold AuthorizationCode.rejection at hrej
      split_ifs at hrej with _ _ hbound _
      simpa using hbound

/-- A new family with its first token, under a live grant that covers it. -/
structure Starts (db : Db) (input : RefreshFamilyIssue) (familyId tokenId : Nat) (grant : Grant)
    (db' : Db) : Prop where
  live : db.loadLiveGrant input.grantId = some grant
  ownClient : grant.clientId = input.clientId
  within : sortedSubset input.grantedScopes grant.grantedScopes = true ∧
    grant.resources.contains input.resource = true
  familyFresh : ∀ old ∈ db.families, old.id ≠ familyId
  tokenFresh : ∀ old ∈ db.tokens, Db.tokenClash (input.token familyId tokenId) old = false
  checked : (input.family familyId).check = true ∧ (input.token familyId tokenId).check = true
  result : db' = { db with
    families := db.families ++ [input.family familyId]
    tokens := db.tokens ++ [input.token familyId tokenId] }

variable {familyId tokenId : Nat}

theorem issueRefreshFamilyWith_spec {input : RefreshFamilyIssue}
    (h : issueRefreshFamilyWith db familyId tokenId input = .ok db') :
    ∃ grant, Starts db input familyId tokenId grant db' := by
  obtain ⟨-, h⟩ := check_eq_ok.mp h
  obtain ⟨_, -, h⟩ := bind_eq_ok.mp h
  split at h
  · cases h
  rename_i grant hgr
  obtain ⟨hlive, hcli⟩ := Option.filter_eq_some_iff.mp hgr
  obtain ⟨hwi, h⟩ := check_eq_ok.mp h
  obtain ⟨db₁, hfam, htok⟩ := bind_eq_ok.mp h
  obtain ⟨_, hfams, rfl⟩ := stored_eq_ok.mp hfam
  obtain ⟨_, htoks, rfl⟩ := stored_eq_ok.mp htok
  obtain ⟨hfamilyCheck, hfamilyFresh, rfl⟩ := insert_eq_ok.mp hfams
  obtain ⟨htokenCheck, htokenFresh, rfl⟩ := insert_eq_ok.mp htoks
  refine ⟨grant, ?_⟩
  exact
    { live := hlive, ownClient := by simpa using hcli
      within := by
        rw [deny_eq_ok, Bool.or_eq_false_iff, Bool.not_eq_false', Bool.not_eq_false'] at hwi
        exact hwi.symm
      familyFresh := fun old hold => of_decide_eq_false (hfamilyFresh old hold)
      tokenFresh := htokenFresh, checked := ⟨hfamilyCheck, htokenCheck⟩, result := rfl }

/-! ## 5. The adapter's answers -/

variable {α : Type} {command : RotateRefreshToken} {outcome : RotateRefreshOutcome}

theorem stateStore_eq_ok {x : Except OAuthStoreError α} {a : α} :
    stateStore x = .ok a ↔ x = .ok a := by
  cases x <;> simp [stateStore]

/-- The tokens signed from a context reach no further than the grant. -/
structure TokenGrantContext.Within (context : TokenGrantContext) (grant : Grant) : Prop where
  grantId : context.grantId = grant.id
  scopes : context.scopes ⊆ grant.grantedScopes
  resource : context.resource ∈ grant.resources

theorem subset_of_sortedSubset [DecidableEq α] {candidate allowed : List α}
    (h : sortedSubset candidate allowed = true) : candidate ⊆ allowed := fun value hvl => by
  simpa using List.all_eq_true.mp h value hvl

theorem tokenContext_within {grant : Grant} {resource : Nat} {scopes : List Scope}
    {nonce verifiedEmail : Option (List Char)} {refreshAllowed : Bool}
    {context : TokenGrantContext}
    (h : tokenContext grant resource scopes nonce verifiedEmail refreshAllowed = .ok context) :
    context.Within grant := by
  unfold tokenContext at h
  split at h
  · cases h
  rename_i hwi
  cases h
  simp only [Bool.or_eq_true, Bool.not_eq_true', not_or, Bool.not_eq_false] at hwi
  exact ⟨rfl, subset_of_sortedSubset hwi.2, by simpa using hwi.1⟩

/-- An exchange that commits without delivering only marks rows; one that delivers consumed its
code, and may have started a family. -/
theorem consumeAuthorizationCode_spec {command : ConsumeAuthorizationCode}
    {outcome : ConsumeCodeOutcome}
    (h : consumeAuthorizationCode challenge load db familyId tokenId command = .ok (outcome, db')) :
    (∃ stored live db₁ context,
      Consumes challenge load db command.codeDigest command.binding command.now stored live db₁ ∧
        outcome = .consumed context ∧ context.Within live ∧
        (db' = db₁ ∨ ∃ input grant, Starts db₁ input familyId tokenId grant db' ∧
          input.tokenDigest = command.refreshDigest ∧ input.issuedAt = command.now)) ∨
    (outcome = .unavailable ∧ Marked command.now db db') := by
  obtain ⟨⟨exchange, db₁⟩, hconsume, h⟩ := bind_eq_ok.mp h
  obtain ⟨stored, live, hcon, rfl⟩ | ⟨hansw, hmk⟩ :=
    consumeAuthorizationCodeWith_spec (stateStore_eq_ok.mp hconsume)
  · obtain ⟨db₂, hstt, h⟩ := bind_eq_ok.mp h
    obtain ⟨context, hctx, ⟨⟩⟩ := bind_eq_ok.mp h
    refine .inl ⟨stored, live, db₁, context, hcon, rfl, tokenContext_within hctx, ?_⟩
    have hstt := stateStore_eq_ok.mp hstt
    unfold startFamily at hstt
    split at hstt
    · obtain ⟨grant, hstarts⟩ := issueRefreshFamilyWith_spec hstt
      exact .inr ⟨_, grant, hstarts, rfl, rfl⟩
    · cases hstt
      exact .inl rfl
  · obtain rfl | ⟨rejection, rfl⟩ := hansw <;> cases h <;> exact .inr ⟨rfl, hmk⟩

theorem finishRotatedRefresh_spec {before : Db} {rotated : RotatedRefreshToken}
    (h : finishRotatedRefresh before db command rotated = .ok (outcome, db')) :
    (∃ context, outcome = .rotated context ∧ context.Within rotated.grant ∧ db' = db) ∨
      (outcome = .unavailable ∧ db' = before) := by
  simp only [finishRotatedRefresh] at h
  split_ifs at h
  · cases h
    exact .inr ⟨rfl, rfl⟩
  · cases h
    exact .inr ⟨rfl, rfl⟩
  · obtain ⟨context, hctx, ⟨⟩⟩ := bind_eq_ok.mp h
    exact .inl ⟨context, rfl, tokenContext_within hctx, rfl⟩

/-- A rotation of the adapter that commits delivers a rotation of the store, or only marks rows. -/
theorem rotateRefreshToken_spec
    (h : rotateRefreshToken load db replacementId command = .ok (outcome, db')) :
    (∃ context token family grant, outcome = .rotated context ∧ context.Within grant ∧
      Rotates load db command.presentedDigest command.clientId command.now token
        (token.successor replacementId command.replacementDigest command.now
          (min command.replacementExpiresAt family.expiresAt)) family grant db') ∨
    ((outcome = .reuseDetected ∨ outcome = .unavailable) ∧ Marked command.now db db') := by
  obtain ⟨⟨rotation, after⟩, hrotate, h⟩ := bind_eq_ok.mp h
  obtain ⟨token, family, grant, hrot, rfl⟩ | ⟨⟨_, _, rfl, -⟩, hmk⟩ | ⟨⟨_, rfl⟩, rfl⟩ :=
    rotateRefreshTokenWith_spec (stateStore_eq_ok.mp hrotate)
  · obtain ⟨context, rfl, hwi, rfl⟩ | ⟨rfl, rfl⟩ := finishRotatedRefresh_spec h
    · exact .inl ⟨context, token, family, grant, rfl, hwi, hrot⟩
    · exact .inr ⟨.inr rfl, .refl _⟩
  · cases h
    exact .inr ⟨.inl rfl, hmk⟩
  · cases h
    exact .inr ⟨.inr rfl, .refl _⟩

end Omnius.OAuth
