/-
# Refresh families stay single chains

The machine of this module interleaves every transaction of the store: consents, codes, exchanges,
rotations, revocations of tokens, grants and clients, and cleanup passes.  Its clock never goes
back, and each request uses a reading of the clock taken at SOME earlier moment.  A transaction
that is rolled back is one that does not take its step.

Row locks are held to the end, so what a transaction decides about the rows it locked it may as well
decide when it commits; the only other thing an exchange or a rotation reads is the live grant, and
that reading is a step of its own, `readGrant`, at which the transaction counts as STARTED.  The
locks rule out some of the interleavings that are allowed here.  Nothing below needs them.

A bearer is thirty-two random bytes and its digest a keyed hash, so a digest is never minted twice.
-/
import Omnius.Lib.Machine
import Omnius.OAuth.Effect

namespace Omnius.OAuth

open Omnius.Lib List

variable {earlier : List RefreshToken} {family : RefreshFamily}

/-! ## 1. The machine -/

/-- What is remembered of a transaction that delivered something. -/
inductive Event where
  | persisted (input : AuthorizationCodeCreate)
  | exchanged (command : ConsumeAuthorizationCode) (context : TokenGrantContext)
  | rotated (token : RefreshToken) (context : TokenGrantContext)
  | reportedLive (grantId : Nat)

/-- A transaction that has read its grant. -/
structure Opening where
  reading : Db
  since : Nat

structure World where
  db : Db
  clock : Nat
  /-- The latest clock reading a committed transaction has used. -/
  latest : Nat
  minted : List Nat
  openings : List (Nat × Opening)
  /-- Each event with the number of the step at which its transaction started, newest first. -/
  log : List (Nat × Event)
  steps : Nat

inductive Action where
  | tick (elapsed : Nat)
  | enlist (directory : Directory)
  | createGrant (grantId : Nat) (input : GrantCreate)
  | persistCode (codeId : Nat) (input : AuthorizationCodeCreate)
  | readGrant (transaction : Nat)
  | exchange (transaction familyId tokenId : Nat) (command : ConsumeAuthorizationCode)
  | rotate (transaction replacementId : Nat) (command : RotateRefreshToken)
  | revokeRefreshToken (digest : Nat) (clientId : Option Nat) (now : Nat)
  | revokeGrant (userId grantId now : Nat)
  | disableClient (clientId now : Nat)
  | revokeAccessToken (jti grantId clientId now : Nat)
  | verifyAccessToken (check : AccessTokenLiveCheck) (now : Nat)
  | cleanupTombstones (now limit : Nat) (locked : List Nat)
  | cleanupCodes (now limit : Nat) (locked : List Nat)
  | cleanupAccessRevocations (now limit : Nat) (locked : List Nat)

namespace World

section

variable (w : World)

def commit (now : Nat) (db : Db) : World := { w with db, latest := max w.latest now }

def mint (digest : Nat) : World := { w with minted := digest :: w.minted }

def note (since : Nat) (event : Event) : World :=
  { w with log := (since, event) :: w.log }

def close (transaction : Nat) : World :=
  { w with openings := w.openings.filter (·.1 ≠ transaction) }

/-- The step's effect if `now` is a reading of the clock. -/
def reading (now : Nat) (effect : World) : Option World :=
  if now ≤ w.clock then some effect else none

end

/-- Commits what a transaction without an answer leaves, if it succeeded. -/
def settle {ε : Type} (w : World) (now : Nat) : Except ε Db → World
  | .ok db => w.commit now db
  | .error _ => w

/-- The effect of an exchange that read its grant in `opening`. -/
def exchanged (challenge : Nat → Nat) (w : World) (opening : Opening) (familyId tokenId : Nat)
    (command : ConsumeAuthorizationCode) : World :=
  match consumeAuthorizationCode challenge opening.reading.loadLiveGrant w.db familyId tokenId
      command with
  | .ok (.consumed context, db) =>
    (w.commit command.now db).note opening.since (.exchanged command context)
  | .ok (.unavailable, db) => w.commit command.now db
  | .error _ => w

/-- The effect of a rotation that read its grant in `opening`. -/
def rotated (w : World) (opening : Opening) (replacementId : Nat) (command : RotateRefreshToken) :
    World :=
  match rotateRefreshToken opening.reading.loadLiveGrant w.db replacementId command,
      w.db.findToken command.presentedDigest with
  | .ok (.rotated context, db), some token =>
    (w.commit command.now db).note opening.since (.rotated token context)
  | .ok (_, db), _ => w.commit command.now db
  | .error _, _ => w

def verified (w : World) (check : AccessTokenLiveCheck) (now : Nat) : World :=
  match verifyAccessTokenLive w.db check now with
  | .ok (some _) => w.note w.steps (.reportedLive check.grantId)
  | _ => w

def opening (w : World) (transaction : Nat) : Option Opening :=
  (w.openings.find? (·.1 = transaction)).map (·.2)

/-- What an action does, and `none` when it cannot be taken. -/
def act (challenge : Nat → Nat) (w : World) : Action → Option World
  | .tick elapsed => some { w with clock := w.clock + elapsed }
  | .enlist directory => some (w.commit 0 { w.db with directory })
  | .createGrant grantId input =>
    w.reading input.consentedAt (w.settle input.consentedAt (createGrant w.db grantId input))
  | .persistCode codeId input =>
    if input.codeDigest ∈ w.minted then none
    else w.reading input.issuedAt
      (match persistAuthorizationCode w.db codeId input with
        | .ok db => ((w.mint input.codeDigest).note w.steps (.persisted input)).commit
            input.issuedAt db
        | .error _ => w.mint input.codeDigest)
  | .readGrant transaction =>
    some { w with openings := (transaction, ⟨w.db, w.steps⟩) :: w.openings }
  | .exchange transaction familyId tokenId command =>
    (w.opening transaction).bind fun opening =>
      if command.refreshDigest ∈ w.minted then none
      else w.reading command.now (((w.mint command.refreshDigest).close transaction).exchanged
        challenge opening familyId tokenId command)
  | .rotate transaction replacementId command =>
    (w.opening transaction).bind fun opening =>
      if command.replacementDigest ∈ w.minted then none
      else w.reading command.now (((w.mint command.replacementDigest).close transaction).rotated
        opening replacementId command)
  | .revokeRefreshToken digest clientId now =>
    w.reading now (w.settle now ((revokeRefreshTokenWith w.db digest clientId now).map (·.2)))
  | .revokeGrant userId grantId now =>
    w.reading now (w.settle now ((revokeGrantWith w.db userId grantId now).map (·.2)))
  | .disableClient clientId now =>
    w.reading now (w.settle now (disableClientWith w.db clientId now))
  | .revokeAccessToken jti grantId clientId now =>
    w.reading now (w.commit now (revokeAccessTokenJtiWith w.db jti grantId clientId now).2)
  | .verifyAccessToken check now => w.reading now (w.verified check now)
  | .cleanupTombstones now limit locked =>
    w.reading now (w.commit now (cleanupRefreshTombstones w.db now limit locked))
  | .cleanupCodes now limit locked =>
    w.reading now (w.commit now (cleanupAuthorizationCodes w.db now limit locked))
  | .cleanupAccessRevocations now limit locked =>
    w.reading now (w.commit now (cleanupAccessRevocations w.db now limit locked))

def next (challenge : Nat → Nat) (w : World) (action : Action) : Option World :=
  (w.act challenge action).map fun w' => { w' with steps := w.steps + 1 }

end World

def emptyDb : Db := ⟨[], [], [], [], [], ⟨[], [], [], []⟩⟩

/-- Every interleaving of transactions on a store that starts empty. -/
def machine (challenge : Nat → Nat) : Machine World Action where
  start := ⟨emptyDb, 0, 0, [], [], [], 0⟩
  step := World.next challenge

/-! ## 2. What holds of the tables -/

/-- `b` is the successor of `a`. -/
structure Succeeds (a b : RefreshToken) : Prop where
  linked : a.replacedById = some b.id
  consumed : a.consumedAt.isSome = true
  consecutive : b.rotationSequence = a.rotationSequence + 1

/-- One chain: each token but the last was consumed by the next one. -/
structure Chained (tokens : List RefreshToken) : Prop where
  linked : tokens.IsChain Succeeds
  ended : ∀ token ∈ tokens.getLast?, token.consumedAt = none ∧ token.replacedById = none

/-- The stored tokens of a family, oldest first. -/
def Db.tokensOf (db : Db) (familyId : Nat) : List RefreshToken :=
  db.tokens.filter fun token => token.familyId = familyId

/-- The keys, the references between the tables, and the chains. -/
structure Sound (db : Db) : Prop where
  grantIds : (db.grants.map (·.id)).Nodup
  codeDigests : (db.codes.map (·.codeDigest)).Nodup
  familyIds : (db.families.map (·.id)).Nodup
  tokenIds : (db.tokens.map (·.id)).Nodup
  tokenDigests : (db.tokens.map (·.tokenDigest)).Nodup
  /-- A token belongs to a family of its grant and does not outlive it. -/
  familyOf : ∀ token ∈ db.tokens, ∃ family ∈ db.families,
    family.id = token.familyId ∧ family.grantId = token.grantId ∧
      token.expiresAt ≤ family.expiresAt
  /-- A family reaches no further than its grant. -/
  grantOf : ∀ family ∈ db.families, ∃ grant ∈ db.grants,
    grant.id = family.grantId ∧ grant.clientId = family.clientId ∧
      family.grantedScopes ⊆ grant.grantedScopes ∧ family.resourceUri ∈ grant.resources
  chains : ∀ familyId, Chained (db.tokensOf familyId)
  checked : db.Checked

/-! ### Chains -/

namespace Chained

variable {tokens : List RefreshToken} {token : RefreshToken}

theorem nil : Chained [] := ⟨.nil, fun _ h => by simp at h⟩

/-- The first token of a family is a chain. -/
theorem single (hcsd : token.consumedAt = none) (hrep : token.replacedById = none) :
    Chained [token] := by
  refine ⟨.singleton token, fun last hlast => ?_⟩
  obtain rfl : token = last := by simpa using hlast
  exact ⟨hcsd, hrep⟩

theorem last_of_unconsumed (h : Chained tokens) (hmem : token ∈ tokens)
    (hunc : token.consumedAt = none) : ∃ earlier, tokens = earlier ++ [token] := by
  obtain ⟨earlier, later, rfl⟩ := append_of_mem hmem
  cases later with
  | nil => exact ⟨earlier, rfl⟩
  | cons next rest =>
    have hnext : Succeeds token next := (isChain_append_cons_cons.mp h.linked).2.1
    have := hnext.consumed
    simp [hunc] at this

/-- Every token before the last one has a successor, so it was consumed. -/
theorem earlier_consumed (h : Chained (earlier ++ [token])) :
    ∀ other ∈ earlier, other.consumedAt.isSome = true := by
  intro other hoth
  obtain ⟨before, after, rfl⟩ := append_of_mem hoth
  cases after with
  | nil =>
    have hlink : (before ++ other :: token :: []).IsChain Succeeds := by simpa using h.linked
    exact (isChain_append_cons_cons.mp hlink).2.1.consumed
  | cons next rest =>
    have hlink : (before ++ other :: next :: (rest ++ [token])).IsChain Succeeds := by
      simpa using h.linked
    exact (isChain_append_cons_cons.mp hlink).2.1.consumed

/-- So at most one token is unconsumed, and all the more at most one is live. -/
theorem live_le_one (h : Chained tokens) :
    (tokens.filter fun token => token.consumedAt.isNone && token.revokedAt.isNone).length ≤ 1 := by
  cases hsome : tokens.filter fun token => token.consumedAt.isNone && token.revokedAt.isNone with
  | nil => exact Nat.zero_le 1
  | cons first rest =>
    have hfst : first ∈ tokens.filter fun token =>
        token.consumedAt.isNone && token.revokedAt.isNone := hsome ▸ mem_cons_self
    obtain ⟨hmem, hlive⟩ := mem_filter.mp hfst
    rw [Bool.and_eq_true, Option.isNone_iff_eq_none] at hlive
    obtain ⟨earlier, rfl⟩ := h.last_of_unconsumed hmem hlive.1
    have hear : (earlier.filter fun token =>
        token.consumedAt.isNone && token.revokedAt.isNone) = [] := by
      rw [filter_eq_nil_iff]
      intro other hoth
      have := h.earlier_consumed other hoth
      cases hcsd : other.consumedAt <;> simp_all
    rw [filter_append, hear, nil_append] at hsome
    rw [← hsome]
    exact length_filter_le _ [first]

theorem marked {now : Nat} {tokens' : List RefreshToken} (h : Chained tokens)
    (hm : Rows.Mapped (TokenMarked now) tokens tokens') : Chained tokens' := by
  obtain ⟨f, hf, rfl⟩ := hm
  refine ⟨?_, fun last hlast => ?_⟩
  · refine isChain_map_of_isChain f (fun a b hab => ?_) h.linked
    rw [(hf a).same, (hf b).same]
    exact { hab with }
  · rw [List.getLast?_map] at hlast
    obtain ⟨token, htok, rfl⟩ := Option.map_eq_some_iff.mp hlast
    rw [(hf token).same]
    exact h.ended token htok

/-- The token a rotation consumes is the last one, and its successor comes after it. -/
theorem rotate {successor : RefreshToken} {now : Nat} (h : Chained (earlier ++ [token]))
    (hcsd : successor.consumedAt = none) (hrep : successor.replacedById = none)
    (hseq : successor.rotationSequence = token.rotationSequence + 1) :
    Chained (earlier ++ [token.consume successor.id now] ++ [successor]) := by
  have hlinked := isChain_append.mp h.linked
  refine ⟨?_, fun last hlast => ?_⟩
  · rw [append_assoc, isChain_append]
    refine ⟨hlinked.1, ?_, fun a ha b hb => ?_⟩
    · exact .cons_cons ⟨rfl, rfl, hseq⟩ (.singleton _)
    · obtain rfl : token.consume successor.id now = b := by simpa using hb
      have hab := hlinked.2.2 a ha token (by simp)
      exact { hab with }
  · obtain rfl : successor = last := by simpa using hlast
    exact ⟨hcsd, hrep⟩

theorem predecessor {first : RefreshToken} {rest : List RefreshToken}
    (h : (first :: rest).IsChain Succeeds) :
    ∀ token ∈ rest, ∃ earlier ∈ first :: rest, earlier.replacedById = some token.id := by
  induction rest generalizing first with
  | nil => exact nofun
  | cons second rest ih =>
    intro token hmem
    obtain ⟨hlink, hrest⟩ := isChain_cons_cons.mp h
    obtain rfl | hmem := mem_cons.mp hmem
    · exact ⟨first, mem_cons_self, hlink.linked⟩
    · obtain ⟨earlier, hear, heq⟩ := ih hrest token hmem
      exact ⟨earlier, mem_cons_of_mem _ hear, heq⟩

/-- Deleting tokens that replace no stored one takes at most the first. -/
theorem sweep (h : Chained tokens) {p : RefreshToken → Bool}
    (hp : ∀ token ∈ tokens, p token = false →
      ∀ earlier ∈ tokens, earlier.replacedById ≠ some token.id) :
    Chained (tokens.filter p) := by
  cases tokens with
  | nil => exact nil
  | cons first rest =>
    have hrest : rest.filter p = rest := by
      rw [filter_eq_self]
      intro token hmem
      by_contra hno
      obtain ⟨earlier, hear, heq⟩ := predecessor h.linked token hmem
      exact hp token (mem_cons_of_mem _ hmem) (Bool.eq_false_iff.mpr hno) earlier hear heq
    rw [filter_cons, hrest]
    split
    · exact h
    · refine ⟨h.linked.tail, fun last hlast => h.ended last ?_⟩
      cases rest with
      | nil => simp at hlast
      | cons second rest => simpa using hlast

end Chained

/-! ## 3. The changes, and that they keep the tables sound -/

/-- What one transaction can do to the tables; `fresh` is the digest it stores, if any. -/
inductive Change (now : Nat) : Option Nat → Db → Db → Prop
  | marked {db db' : Db} : Marked now db db' → Change now none db db'
  | granted {db : Db} (grant : Grant) : grant.check = true →
    (∀ old ∈ db.grants, old.id ≠ grant.id) → grant.updatedAt ≤ now →
    Change now none db { db with grants := db.grants ++ [grant] }
  | coded {db : Db} (code : AuthorizationCode) :
    (∀ old ∈ db.codes, old.codeDigest ≠ code.codeDigest) →
    Change now (some code.codeDigest) db { db with codes := db.codes ++ [code] }
  | started {db db' : Db} {input : RefreshFamilyIssue} {familyId tokenId : Nat} {grant : Grant} :
    Starts db input familyId tokenId grant db' → input.issuedAt ≤ now →
    Change now (some input.tokenDigest) db db'
  | rotated {db db' : Db} {load : Nat → Option Grant} {digest clientId replacementId : Nat}
    {replacementDigest expires : Nat} {token : RefreshToken} {family : RefreshFamily}
    {grant : Grant} :
    Rotates load db digest clientId now token (token.successor replacementId replacementDigest now
      (min expires family.expiresAt)) family grant db' →
    Change now (some replacementDigest) db db'
  | sweptTokens {db : Db} (p : RefreshToken → Bool) :
    (∀ token ∈ db.tokens, p token = false →
      ∀ earlier ∈ db.tokens, earlier.replacedById ≠ some token.id) →
    Change now none db { db with tokens := db.tokens.filter p }
  | sweptCodes {db : Db} (p : AuthorizationCode → Bool) :
    Change now none db { db with codes := db.codes.filter p }

variable {grant : Grant}

theorem Db.loadLiveGrant_eq_some {db : Db} {grantId : Nat}
    (h : db.loadLiveGrant grantId = some grant) :
    grant ∈ db.grants ∧ grant.id = grantId ∧ grant.revokedAt = none := by
  obtain ⟨hfd, hlive⟩ := Option.filter_eq_some_iff.mp h
  have hid : grant.id = grantId := by simpa using List.find?_some hfd
  simp only [Db.liveGrant, Bool.and_eq_true, Option.isNone_iff_eq_none] at hlive
  exact ⟨mem_of_find?_eq_some hfd, hid, hlive.1.1⟩

variable {token : RefreshToken}

theorem Db.findToken_eq_some {db : Db} {digest : Nat}
    (h : db.findToken digest = some token) : token ∈ db.tokens ∧ token.tokenDigest = digest :=
  ⟨mem_of_find?_eq_some h, by simpa using List.find?_some h⟩

variable {familyId : Nat}

theorem Db.findFamily_eq_some {db : Db}
    (h : db.findFamily familyId = some family) : family ∈ db.families ∧ family.id = familyId :=
  ⟨mem_of_find?_eq_some h, by simpa using List.find?_some h⟩

theorem Db.tokenClash_eq_false {new old : RefreshToken} (h : Db.tokenClash new old = false) :
    old.id ≠ new.id ∧ old.tokenDigest ≠ new.tokenDigest := by
  simp only [Db.tokenClash, Bool.or_eq_false_iff, decide_eq_false_iff_not] at h
  exact h.1

theorem RefreshToken.spent_eq_false (h : token.spent family = false) :
    token.consumedAt = none ∧ token.revokedAt = none ∧ family.revokedAt = none := by
  simpa [RefreshToken.spent, and_assoc] using h

theorem map_consume_eq_self {tokens : List RefreshToken} {id replacementId now : Nat}
    (h : ∀ token ∈ tokens, token.id ≠ id) :
    tokens.map (Rows.patch (·.id = id) (RefreshToken.consume replacementId now)) = tokens := by
  rw [map_congr_left (g := fun token => token), map_id']
  intro token htok
  simp [Rows.patch, h token htok]

namespace Sound

variable {db db' : Db} {now : Nat}

section

variable (h : Sound db)

include h

theorem marked (hm : Marked now db db') : Sound db' where
  grantIds := hm.grants.map_eq (·.id) (fun _ _ hab => hab.id_eq) ▸ h.grantIds
  codeDigests := hm.codes.map_eq (·.codeDigest) (fun _ _ hab => hab.codeDigest_eq) ▸ h.codeDigests
  familyIds := hm.families.map_eq (·.id) (fun _ _ hab => hab.id_eq) ▸ h.familyIds
  tokenIds := hm.tokens.map_eq (·.id) (fun _ _ hab => hab.id_eq) ▸ h.tokenIds
  tokenDigests :=
    hm.tokens.map_eq (·.tokenDigest) (fun _ _ hab => hab.tokenDigest_eq) ▸ h.tokenDigests
  familyOf token' htok' := by
    obtain ⟨token, htok, hsame⟩ := hm.tokens.from_mem htok'
    obtain ⟨family, hfam, hid, hgr, hexps⟩ := h.familyOf token htok
    obtain ⟨family', hfam', hkept⟩ := hm.families.to_mem hfam
    refine ⟨family', hfam', ?_⟩
    rw [hsame.same, hkept.same]
    exact ⟨hid, hgr, hexps⟩
  grantOf family' hfam' := by
    obtain ⟨family, hfam, hsame⟩ := hm.families.from_mem hfam'
    obtain ⟨grant, hgr, hwi⟩ := h.grantOf family hfam
    obtain ⟨grant', hgr', hkept⟩ := hm.grants.to_mem hgr
    refine ⟨grant', hgr', ?_⟩
    rw [hsame.same, hkept.same]
    exact hwi
  chains familyId :=
    (h.chains familyId).marked (hm.tokens.filter _ fun a b hab => by rw [hab.same])
  checked := hm.checked h.checked

theorem granted (hck : grant.check = true) (hfr : ∀ old ∈ db.grants, old.id ≠ grant.id) :
    Sound { db with grants := db.grants ++ [grant] } :=
  { h with
    grantIds := Rows.nodup_append h.grantIds hfr
    grantOf := fun family hfam => by
      obtain ⟨grant, hgr, hwi⟩ := h.grantOf family hfam
      exact ⟨grant, mem_append_left _ hgr, hwi⟩
    checked := ⟨forall_mem_append.mpr
      ⟨h.checked.grants, forall_mem_singleton.mpr hck⟩, h.checked.families,
      h.checked.tokens⟩ }

theorem coded {code : AuthorizationCode}
    (hfr : ∀ old ∈ db.codes, old.codeDigest ≠ code.codeDigest) :
    Sound { db with codes := db.codes ++ [code] } :=
  { h with codeDigests := Rows.nodup_append h.codeDigests hfr
           checked := { h.checked with } }

theorem sweptCodes (p : AuthorizationCode → Bool) :
    Sound { db with codes := db.codes.filter p } :=
  { h with codeDigests := Rows.nodup_filter h.codeDigests p
           checked := { h.checked with } }

theorem sweptTokens {p : RefreshToken → Bool}
    (hp : ∀ token ∈ db.tokens, p token = false →
      ∀ earlier ∈ db.tokens, earlier.replacedById ≠ some token.id) :
    Sound { db with tokens := db.tokens.filter p } :=
  { h with
    tokenIds := Rows.nodup_filter h.tokenIds p
    tokenDigests := Rows.nodup_filter h.tokenDigests p
    familyOf := fun token htok => h.familyOf token (mem_filter.mp htok).1
    chains := fun familyId => by
      have hsub : ∀ {token}, token ∈ db.tokensOf familyId → token ∈ db.tokens :=
        fun hmem => (mem_filter.mp hmem).1
      have hswept := (h.chains familyId).sweep fun token htok hno earlier hear =>
        hp token (hsub htok) hno earlier (hsub hear)
      unfold Db.tokensOf at hswept ⊢
      rw [filter_comm]
      exact hswept
    checked := { h.checked with
      tokens := fun token htok => h.checked.tokens token (mem_filter.mp htok).1 } }

theorem started {input : RefreshFamilyIssue} {tokenId : Nat}
    (hs : Starts db input familyId tokenId grant db') : Sound db' := by
  obtain ⟨hgr, hgid, -⟩ := Db.loadLiveGrant_eq_some hs.live
  have hclash := fun old hold => Db.tokenClash_eq_false (hs.tokenFresh old hold)
  -- a token of the new family would need the family before it existed
  have hnone : db.tokensOf familyId = [] := by
    refine filter_eq_nil_iff.mpr fun token htok => ?_
    obtain ⟨family, hfam, hid, -⟩ := h.familyOf token htok
    simpa using fun heq : token.familyId = familyId => hs.familyFresh family hfam (hid.trans heq)
  rw [hs.result]
  refine { h with
    familyIds := Rows.nodup_append h.familyIds hs.familyFresh
    tokenIds := Rows.nodup_append h.tokenIds fun old hold => (hclash old hold).1
    tokenDigests := Rows.nodup_append h.tokenDigests fun old hold => (hclash old hold).2
    familyOf := forall_mem_append.mpr ⟨fun token htok => ?_, forall_mem_singleton.mpr ?_⟩
    grantOf := forall_mem_append.mpr ⟨h.grantOf, forall_mem_singleton.mpr ?_⟩
    chains := fun other => ?_, checked := ?_ }
  · obtain ⟨family, hfam, hof⟩ := h.familyOf token htok
    exact ⟨family, mem_append_left _ hfam, hof⟩
  · exact ⟨_, mem_append_right _ (mem_singleton_self _), rfl, rfl, le_rfl⟩
  · exact ⟨grant, hgr, hgid, hs.ownClient, subset_of_sortedSubset hs.within.1,
      contains_iff_mem.mp hs.within.2⟩
  · change Chained ((db.tokens ++ [input.token familyId tokenId]).filter _)
    rw [filter_append]
    by_cases heq : familyId = other
    · subst heq
      rw [show db.tokens.filter _ = [] from hnone]
      have hsingle : Chained [input.token familyId tokenId] := .single rfl rfl
      simpa [RefreshFamilyIssue.token] using hsingle
    · simpa [RefreshFamilyIssue.token, Db.tokensOf, heq] using h.chains other
  · exact ⟨h.checked.grants,
      forall_mem_append.mpr ⟨h.checked.families, forall_mem_singleton.mpr hs.checked.1⟩,
      forall_mem_append.mpr ⟨h.checked.tokens, forall_mem_singleton.mpr hs.checked.2⟩⟩

end

theorem tokensOf_rotated_eq (token successor : RefreshToken) (familyId : Nat) :
    (db.rotated token successor).tokensOf familyId =
      ((db.tokens ++ [successor]).filter fun row => row.familyId = familyId).map
        (Rows.patch (·.id = token.id) (RefreshToken.consume successor.id successor.issuedAt)) := by
  have hpatch : ∀ row, (Rows.patch (·.id = token.id)
      (RefreshToken.consume successor.id successor.issuedAt) row).familyId = row.familyId :=
    Rows.key_patch RefreshToken.familyId fun _ => rfl
  simp only [Db.tokensOf, Db.rotated, filter_map, Function.comp_def, hpatch]

variable (h : Sound db)

include h

theorem tokensOf_rotated (token successor : RefreshToken)
    (hchain : db.tokensOf token.familyId = earlier ++ [token])
    (hfam : successor.familyId = token.familyId) (hid : token.id ≠ successor.id) :
    (db.rotated token successor).tokensOf token.familyId =
      earlier ++ [token.consume successor.id successor.issuedAt] ++ [successor] := by
  have hsub : (earlier ++ [token]).Sublist db.tokens := hchain ▸ filter_sublist
  have hids : ((earlier ++ [token]).map (·.id)).Nodup := h.tokenIds.sublist (hsub.map _)
  have hear : ∀ other ∈ earlier, other.id ≠ token.id := by
    rw [map_append, nodup_append] at hids
    exact fun other hoth =>
      hids.2.2 other.id (mem_map_of_mem hoth) token.id (by simp)
  have hold : (db.tokens.filter fun row => row.familyId = token.familyId)
      = earlier ++ [token] := hchain
  have hnew : ([successor].filter fun row => row.familyId = token.familyId) = [successor] := by
    simp [hfam]
  rw [tokensOf_rotated_eq, filter_append, hold, hnew, map_append, map_append,
    map_consume_eq_self hear]
  simp [Rows.patch, hid.symm]

theorem tokensOf_rotated_of_ne (token successor : RefreshToken)
    (htok : token ∈ db.tokens) (hfam : successor.familyId = token.familyId)
    (hne : token.familyId ≠ familyId) :
    (db.rotated token successor).tokensOf familyId = db.tokensOf familyId := by
  have hoths : ∀ other ∈ db.tokensOf familyId, other.id ≠ token.id := by
    intro other hoth hid
    obtain ⟨hmem, hoth⟩ := mem_filter.mp hoth
    obtain rfl := Rows.eq_of_key h.tokenIds hmem htok hid
    exact hne (by simpa using hoth)
  have hnew : ([successor].filter fun row => row.familyId = familyId) = [] := by
    simp [hfam, hne]
  rw [tokensOf_rotated_eq, filter_append, hnew, append_nil]
  exact map_consume_eq_self hoths

theorem rotated {load : Nat → Option Grant}
    {digest clientId replacementId replacementDigest expires : Nat}
    (hr : Rotates load db digest clientId now token (token.successor replacementId
      replacementDigest now (min expires family.expiresAt)) family grant db') : Sound db' := by
  obtain ⟨htok, -⟩ := Db.findToken_eq_some hr.found
  obtain ⟨hfam, hfid⟩ := Db.findFamily_eq_some hr.inFamily
  obtain ⟨hunc, -, -⟩ := RefreshToken.spent_eq_false hr.unspent
  have hclash := fun old hold => Db.tokenClash_eq_false (hr.fresh old hold)
  have hkeys : ∀ {κ : Type} (key : RefreshToken → κ),
      (∀ row, key (row.consume replacementId now) = key row) →
      db'.tokens.map key = (db.tokens ++ [token.successor replacementId replacementDigest now
        (min expires family.expiresAt)]).map key := by
    intro κ key hkey
    rw [hr.result]
    simp only [Db.rotated, map_map]
    exact map_congr_left fun row _ => Rows.key_patch key hkey row
  have hfams : db'.families = db.families := by rw [hr.result]; rfl
  have hgrs : db'.grants = db.grants := by rw [hr.result]; rfl
  refine
    { grantIds := hgrs ▸ h.grantIds
      codeDigests := by rw [hr.result]; exact h.codeDigests
      familyIds := hfams ▸ h.familyIds
      tokenIds := ?_, tokenDigests := ?_, familyOf := fun row hrow => ?_
      grantOf := by rw [hfams, hgrs]; exact h.grantOf
      chains := fun familyId => ?_, checked := ?_ }
  · rw [hkeys _ fun _ => rfl]
    exact Rows.nodup_append h.tokenIds fun old hold => (hclash old hold).1
  · rw [hkeys _ fun _ => rfl]
    exact Rows.nodup_append h.tokenDigests fun old hold => (hclash old hold).2
  · have hcols : (row.familyId, row.grantId, row.expiresAt) ∈
        db'.tokens.map fun row => (row.familyId, row.grantId, row.expiresAt) :=
      mem_map_of_mem hrow
    rw [hkeys _ fun _ => rfl] at hcols
    obtain ⟨old, hold, heq⟩ := mem_map.mp hcols
    simp only [Prod.mk.injEq] at heq
    rw [hfams, ← heq.1, ← heq.2.1, ← heq.2.2]
    obtain hold | hold := mem_append.mp hold
    · exact h.familyOf old hold
    · rw [mem_singleton.mp hold]
      obtain ⟨other, hoth, hid, hgid, -⟩ := h.familyOf token htok
      obtain rfl := Rows.eq_of_key h.familyIds hoth hfam (hid.trans hfid.symm)
      exact ⟨other, hoth, hid, hgid, Nat.min_le_right _ _⟩
  · have hsame : (token.successor replacementId replacementDigest now
        (min expires family.expiresAt)).familyId = token.familyId := rfl
    rw [hr.result]
    by_cases heq : token.familyId = familyId
    · subst heq
      have hmem : token ∈ db.tokensOf token.familyId := mem_filter.mpr ⟨htok, by simp⟩
      obtain ⟨earlier, hchain⟩ := (h.chains token.familyId).last_of_unconsumed hmem hunc
      rw [h.tokensOf_rotated token _ hchain hsame (hclash token htok).1]
      exact (hchain ▸ h.chains token.familyId).rotate rfl rfl rfl
    · rw [h.tokensOf_rotated_of_ne token _ htok hsame heq]
      exact h.chains familyId
  · refine ⟨hgrs ▸ h.checked.grants, hfams ▸ h.checked.families, fun row hrow => ?_⟩
    exact (hr.checked row hrow).elim (h.checked.tokens row) id

/-- **Every transaction keeps the tables sound.** -/
theorem change {fresh : Option Nat} (hc : Change now fresh db db') : Sound db' := by
  cases hc with
  | marked hm => exact h.marked hm
  | granted grant hck hfr _ => exact h.granted hck hfr
  | coded code hfr => exact h.coded hfr
  | started hs _ => exact h.started hs
  | rotated hr => exact h.rotated hr
  | sweptTokens p hp => exact h.sweptTokens hp
  | sweptCodes p => exact h.sweptCodes p

end Sound

end Omnius.OAuth
