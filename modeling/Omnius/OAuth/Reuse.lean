/-
# When a reuse is punished

A request that presents a spent refresh token writes ITS OWN clock reading into four rows: the
presented token, its family, the live tokens of the family and the grant.  The checks of these
tables compare that reading with the instants already stored, and a request that read the clock
before the one that consumed the token fails such a check.  Its transaction is then rolled back, and
the reuse leaves no trace.

A reuse is punished exactly when the reading is not before the instants of these four rows
(`Timely`).  They were written by transactions that committed earlier; so it is enough that no
earlier transaction used a later reading.
-/
import Omnius.OAuth.Runs

namespace Omnius.OAuth

open Omnius.Lib Rows

variable {token : RefreshToken}

/-! ## 1. Stored instants -/

/-- No instant that a revocation is compared with lies after `bound`. -/
structure Stamped (bound : Nat) (db : Db) : Prop where
  grants : ∀ grant ∈ db.grants, grant.updatedAt ≤ bound
  families : ∀ family ∈ db.families, family.createdAt ≤ bound ∧
    ∀ at_, family.revokedAt = some at_ → at_ ≤ bound
  tokens : ∀ token ∈ db.tokens, token.issuedAt ≤ bound ∧
    ∀ at_, token.consumedAt = some at_ → at_ ≤ bound

namespace Stamped

variable {bound now : Nat} {db db' : Db}

theorem mono {bound' : Nat} (h : Stamped bound db) (hle : bound ≤ bound') : Stamped bound' db where
  grants grant hgr := (h.grants grant hgr).trans hle
  families family hfam := ⟨(h.families family hfam).1.trans hle,
    fun at_ hat => ((h.families family hfam).2 at_ hat).trans hle⟩
  tokens token htok := ⟨(h.tokens token htok).1.trans hle,
    fun at_ hat => ((h.tokens token htok).2 at_ hat).trans hle⟩

theorem marked (h : Stamped bound db) (hnow : now ≤ bound) (hm : Marked now db db') :
    Stamped bound db' where
  grants grant' hgr' := by
    obtain ⟨grant, hgr, hmk⟩ := hm.grants.from_mem hgr'
    obtain hsame | hstamp := hmk.stamp
    · exact hsame ▸ h.grants grant hgr
    · exact hstamp ▸ hnow
  families family' hfam' := by
    obtain ⟨family, hfam, hmk⟩ := hm.families.from_mem hfam'
    refine ⟨?_, fun at_ hat => ?_⟩
    · rw [hmk.same]
      exact (h.families family hfam).1
    · obtain hold | rfl := hmk.stamp at_ hat
      · exact (h.families family hfam).2 at_ hold
      · exact hnow
  tokens token' htok' := by
    obtain ⟨token, htok, hmk⟩ := hm.tokens.from_mem htok'
    rw [hmk.same]
    exact h.tokens token htok

theorem change {fresh : Option Nat} (h : Stamped bound db) (hnow : now ≤ bound)
    (hc : Change now fresh db db') : Stamped bound db' := by
  cases hc with
  | marked hm => exact h.marked hnow hm
  | granted grant _ _ hupdd =>
    exact ⟨List.forall_mem_append.mpr
      ⟨h.grants, List.forall_mem_singleton.mpr (hupdd.trans hnow)⟩, h.families, h.tokens⟩
  | coded code _ | sweptCodes p => exact { h with }
  | started hs hiss =>
    rw [hs.result]
    have hnew := hiss.trans hnow
    exact ⟨h.grants,
      List.forall_mem_append.mpr ⟨h.families, List.forall_mem_singleton.mpr ⟨hnew, nofun⟩⟩,
      List.forall_mem_append.mpr ⟨h.tokens, List.forall_mem_singleton.mpr ⟨hnew, nofun⟩⟩⟩
  | rotated hr =>
    rw [hr.result]
    refine { h with tokens := forall_patched (fun row hrow _ => ⟨?_, ?_⟩) ?_ }
    · obtain hold | rfl := mem_append_single hrow
      · exact (h.tokens row hold).1
      · exact hnow
    · exact fun at_ hat => Option.some.inj hat ▸ hnow
    · intro row hrow _
      obtain hold | rfl := mem_append_single hrow
      · exact h.tokens row hold
      · exact ⟨hnow, nofun⟩
  | sweptTokens p _ =>
    exact { h with tokens := fun row hrow => h.tokens row (List.mem_filter.mp hrow).1 }

theorem commit {w : World} {fresh : Option Nat} (h : Stamped w.latest w.db)
    (hc : Change now fresh w.db db') : Stamped (w.commit now db').latest (w.commit now db').db :=
  (h.mono (Nat.le_max_left _ _)).change (Nat.le_max_right _ _) hc

end Stamped

theorem Move.stamped {challenge : Nat → Nat} {w w' : World} (hm : Move challenge w w')
    (h : Stamped w.latest w.db) : Stamped w'.latest w'.db := by
  cases hm with
  | ticked elapsed | read transaction | idle | reported _ | minted _ | closed _ _ => exact h
  | committed hch _ => exact h.commit hch
  | @persisted input codeId db' _ _ hnew hdb =>
    subst hdb
    exact h.commit (.coded (input.row codeId) hnew)
  | refused _ _ _ hmk => exact h.commit (.marked hmk)
  | @exchanged transaction _ _ _ command _ _ db₁ db' _ _ _ _ hcon _ hstt =>
    have hmk : Stamped (w.commit command.now db₁).latest db₁ :=
      h.commit (.marked hcon.marked)
    obtain rfl | ⟨issue, owner, hstarts, -, hiss⟩ := hstt
    · exact hmk
    · exact hmk.change (Nat.le_max_right _ _) (.started hstarts hiss.le)
  | rotated _ _ _ hrot _ => exact h.commit (.rotated hrot)

theorem stamped_of_reach {challenge : Nat → Nat} {w : World}
    (h : (machine challenge).Reach (machine challenge).start w) : Stamped w.latest w.db := by
  have hboth : Kept challenge w.steps w ∧ Stamped w.latest w.db := by
    refine Machine.ReachIf.invariant (I := fun w => Kept challenge w.steps w ∧
      Stamped w.latest w.db) h ⟨kept_start, ?_⟩ ?_
    · exact ⟨nofun, nofun, nofun⟩
    · rintro u action v ⟨hu, hstm⟩ - hstep
      refine ⟨hu.next hstep, ?_⟩
      obtain ⟨u₁, hact, rfl⟩ := Option.map_eq_some_iff.mp hstep
      have hmove := World.act_move hu.sound.tokenIds hact
      exact hmove.stamped hstm
  exact hboth.2

/-! ## 2. The four statements -/

/-- The reading is not before what the presented token, its family, the live tokens of the family
and the grant have stored. -/
structure Timely (db : Db) (token : RefreshToken) (now : Nat) : Prop where
  presented : ∀ at_ ∈ token.consumedAt, at_ ≤ now
  family : ∀ family ∈ db.families, family.id = token.familyId →
    family.createdAt ≤ now ∧ ∀ at_ ∈ family.revokedAt, at_ ≤ now
  live : ∀ other ∈ db.tokens, other.familyId = token.familyId → other.consumedAt = none →
    other.revokedAt = none → other.issuedAt ≤ now
  grant : ∀ grant ∈ db.grants, grant.id = token.grantId →
    grant.createdAt ≤ now ∧ ∀ at_ ∈ grant.revokedAt, at_ ≤ now

instance (db : Db) (token : RefreshToken) (now : Nat) : Decidable (Timely db token now) :=
  decidable_of_iff (_ ∧ _ ∧ _ ∧ _)
    ⟨fun ⟨presented, family, live, grant⟩ => ⟨presented, family, live, grant⟩,
      fun h => ⟨h.presented, h.family, h.live, h.grant⟩⟩

section Checks

variable {now : Nat}

/-- A consumed token may record a reuse that was not read before its consumption. -/
theorem RefreshToken.check_reuse {at_ : Nat} (h : token.check = true)
    (hcsd : token.consumedAt = some at_) :
    { token with reuseDetectedAt := some now }.check = true ↔ at_ ≤ now := by
  simp only [RefreshToken.check, Bool.and_eq_true] at h ⊢
  simp only [h.1.1.1.1, h.1.1.1.2, h.1.1.2, h.1.2, true_and]
  simp [hcsd]

theorem RefreshToken.check_revoke (h : token.check = true) (hcsd : token.consumedAt = none) :
    { token with revokedAt := some now }.check = true ↔ token.issuedAt ≤ now := by
  simp only [RefreshToken.check, Bool.and_eq_true] at h ⊢
  have hrep : token.replacedById.isNone = true := by simpa [hcsd] using h.1.1.2
  simp only [h.1.1.1.1, h.1.1.1.2, h.1.1.2, h.2, true_and, and_true]
  simp [hcsd, hrep]

theorem RefreshFamily.check_reuse {family : RefreshFamily} (h : family.check = true) :
    { family with
        revokedAt := some (family.revokedAt.getD now), revocationReason := some .refreshReuse,
        reuseDetectedAt := some now }.check = true ↔
      family.createdAt ≤ now ∧ ∀ at_, family.revokedAt = some at_ → at_ ≤ now := by
  simp only [RefreshFamily.check, Bool.and_eq_true] at h ⊢
  simp only [h.1, true_and]
  cases hat : family.revokedAt with
  | none => simp
  | some at_ =>
    rw [hat] at h
    simp only [Bool.and_eq_true, decide_eq_true_eq] at h
    have hcrt := h.2.1
    simp
    omega

theorem Grant.check_revoke {grant : Grant} (h : grant.check = true) :
    { grant with revokedAt := some (grant.revokedAt.getD now), updatedAt := now }.check = true ↔
      grant.createdAt ≤ now ∧ ∀ at_, grant.revokedAt = some at_ → at_ ≤ now := by
  simp only [Grant.check, Bool.and_eq_true, decide_eq_true_eq] at h ⊢
  obtain ⟨⟨⟨hcols, hconsented⟩, -⟩, hrev⟩ := h
  simp only [hcols, hconsented, true_and]
  cases hat : grant.revokedAt with
  | none => simp
  | some at_ =>
    simp only [hat, Option.all_some, Bool.and_eq_true, decide_eq_true_eq] at hrev
    simp [hrev.1]

end Checks

/-- The family, its unused tokens and the grant are revoked. -/
structure Punished (token : RefreshToken) (db : Db) : Prop where
  family : ∀ family ∈ db.families, family.id = token.familyId → family.revokedAt.isSome = true
  tokens : ∀ other ∈ db.tokens, other.familyId = token.familyId → other.consumedAt = none →
    other.revokedAt.isSome = true
  grant : ∀ grant ∈ db.grants, grant.id = token.grantId → grant.revokedAt.isSome = true

theorem stored_update_eq_ok {ρ : Type} {check condition : ρ → Bool} {change : ρ → ρ} {rows : List ρ}
    {put : List ρ → Db} {db' : Db} :
    stored (Rows.update check condition change rows) put = .ok db' ↔
      (∀ row ∈ rows, condition row = true → check (change row) = true) ∧
        put (rows.map (Rows.patch condition change)) = db' := by
  simp only [stored_eq_ok, Rows.update_eq_ok]
  constructor
  · rintro ⟨_, ⟨hck, rfl⟩, hput⟩
    exact ⟨hck, hput⟩
  · rintro ⟨hck, hput⟩
    exact ⟨_, ⟨hck, rfl⟩, hput⟩

/-- The table of tokens once the presented one has recorded the reuse. -/
def Db.reuseRecorded (db : Db) (token : RefreshToken) (now : Nat) : List RefreshToken :=
  if token.consumedAt.isSome then
    db.tokens.map (Rows.patch (·.id = token.id) fun token =>
      { token with reuseDetectedAt := some now })
  else db.tokens

section Reuse

variable {db db' : Db} {now : Nat}

theorem recordReuse_eq_ok (hsd : Sound db) (htok : token ∈ db.tokens) :
    recordReuse db token.id token.consumedAt.isSome now = .ok db' ↔
      (∀ at_, token.consumedAt = some at_ → at_ ≤ now) ∧
        { db with tokens := db.reuseRecorded token now } = db' := by
  unfold Db.reuseRecorded
  cases hcsd : token.consumedAt with
  | none => simp [recordReuse]
  | some at_ =>
    have hck : (∀ row ∈ db.tokens, decide (row.id = token.id) = true →
        { row with reuseDetectedAt := some now }.check = true) ↔ at_ ≤ now := by
      rw [← RefreshToken.check_reuse (hsd.checked.tokens token htok) hcsd]
      refine ⟨fun h => h token htok (decide_eq_true rfl), fun h row hrow hid => ?_⟩
      obtain rfl := eq_of_key hsd.tokenIds hrow htok (of_decide_eq_true hid)
      exact h
    simp only [recordReuse, Option.isSome_some, if_true, Db.updateTokens, stored_update_eq_ok, hck,
      Option.some.injEq, forall_eq']

/-- The tokens that recording a reuse leaves unconsumed are the old ones: the row it changes is a
consumed one. -/
theorem mem_reuseRecorded {row : RefreshToken} (hsd : Sound db) (htok : token ∈ db.tokens)
    (hcsd : row.consumedAt = none) : row ∈ db.reuseRecorded token now ↔ row ∈ db.tokens := by
  unfold Db.reuseRecorded
  split
  · next hspent =>
    have hne {old : RefreshToken} (hold : old ∈ db.tokens) (hnone : old.consumedAt = none) :
        ¬ decide (old.id = token.id) = true := fun hid => by
      obtain rfl := eq_of_key hsd.tokenIds hold htok (of_decide_eq_true hid)
      simp [hnone] at hspent
    constructor
    · intro hrow
      obtain ⟨old, hold, rfl⟩ := List.mem_map.mp hrow
      have hnone : old.consumedAt = none := by
        rw [← hcsd]
        unfold Rows.patch
        split <;> rfl
      rw [Rows.patch, if_neg (hne hold hnone)]
      exact hold
    · exact fun hrow => List.mem_map.mpr ⟨row, hrow, if_neg (hne hrow hcsd)⟩
  · rfl

/-- The four statements are refused together when one of the four rows is. -/
theorem timely_of_revokeReusedFamily (hsd : Sound db) (htok : token ∈ db.tokens)
    (h : revokeReusedFamily db token.id token.familyId token.grantId token.consumedAt.isSome now
      = .ok db') : Timely db token now := by
  obtain ⟨db₁, h₁, h⟩ := bind_eq_ok.mp h
  obtain ⟨db₂, h₂, h⟩ := bind_eq_ok.mp h
  obtain ⟨db₃, h₃, h⟩ := bind_eq_ok.mp h
  obtain ⟨hpresented, rfl⟩ := (recordReuse_eq_ok hsd htok).mp h₁
  obtain ⟨hfamily, rfl⟩ := stored_update_eq_ok.mp h₂
  obtain ⟨hlive, rfl⟩ := stored_update_eq_ok.mp h₃
  obtain ⟨hgrant, -⟩ := stored_update_eq_ok.mp h
  refine ⟨hpresented, fun family h hid => ?_, fun other h hid hcsd hrev => ?_,
    fun grant h hid => ?_⟩
  · exact (RefreshFamily.check_reuse (hsd.checked.families family h)).mp
      (hfamily family h (decide_eq_true hid))
  · refine (RefreshToken.check_revoke (hsd.checked.tokens other h) hcsd).mp
      (hlive other ((mem_reuseRecorded hsd htok hcsd).mpr h) ?_)
    simp [hid, hcsd, hrev]
  · exact (Grant.check_revoke (hsd.checked.grants grant h)).mp
      (hgrant grant h (decide_eq_true hid))

/-- **A timely reuse is punished.** -/
theorem revokeReusedFamily_punishes (hsd : Sound db) (htok : token ∈ db.tokens)
    (h : Timely db token now) :
    ∃ db', revokeReusedFamily db token.id token.familyId token.grantId token.consumedAt.isSome now
      = .ok db' ∧ Punished token db' := by
  refine ⟨_, bind_eq_ok.mpr ⟨_, (recordReuse_eq_ok hsd htok).mpr ⟨h.presented, rfl⟩,
    bind_eq_ok.mpr ⟨_, stored_update_eq_ok.mpr ⟨fun family hfam hid => ?_, rfl⟩,
    bind_eq_ok.mpr ⟨_, stored_update_eq_ok.mpr ⟨fun row hrow hcond => ?_, rfl⟩,
    stored_update_eq_ok.mpr ⟨fun grant hgr hid => ?_, rfl⟩⟩⟩⟩, ?_⟩
  · exact (RefreshFamily.check_reuse (hsd.checked.families family hfam)).mpr
      (h.family family hfam (of_decide_eq_true hid))
  · simp only [Bool.and_eq_true, decide_eq_true_eq, Option.isNone_iff_eq_none] at hcond
    have hold := (mem_reuseRecorded hsd htok hcond.1.2).mp hrow
    exact (RefreshToken.check_revoke (hsd.checked.tokens row hold) hcond.1.2).mpr
      (h.live row hold hcond.1.1 hcond.1.2 hcond.2)
  · exact (Grant.check_revoke (hsd.checked.grants grant hgr)).mpr
      (h.grant grant hgr (of_decide_eq_true hid))
  · refine ⟨forall_patched (fun _ _ _ _ => rfl) ?_,
      forall_patched (fun _ _ _ _ _ => rfl) ?_, forall_patched (fun _ _ _ _ => rfl) ?_⟩
    · exact fun family _ hne hid => absurd hid (of_decide_eq_false hne)
    · intro other _ hne hid hcsd
      by_contra hrev
      simp [hid, hcsd, Option.not_isSome_iff_eq_none.mp hrev] at hne
    · exact fun grant _ hne hid => absurd hid (of_decide_eq_false hne)

/-- No stored instant follows the reading, so none of the four rows holds one. -/
theorem Stamped.timely (hsd : Sound db) (h : Stamped now db) (htok : token ∈ db.tokens) :
    Timely db token now where
  presented := (h.tokens token htok).2
  family family hfam _ := h.families family hfam
  live other hother _ _ _ := (h.tokens other hother).1
  grant grant hgr _ := by
    have hck := hsd.checked.grants grant hgr
    have hupd := h.grants grant hgr
    simp only [Grant.check, Bool.and_eq_true, decide_eq_true_eq] at hck
    refine ⟨hck.1.2.trans hupd, fun at_ hat => ?_⟩
    have hrev := hck.2
    rw [Option.mem_def.mp hat] at hrev
    simp only [Option.all_some, Bool.and_eq_true, decide_eq_true_eq] at hrev
    exact hrev.2.trans hupd

end Reuse

/-- A spent token that is presented: the answer is the one of the revocation. -/
theorem rotateRefreshToken_spent {db : Db} {family : RefreshFamily} (hsd : Sound db)
    (load : Nat → Option Grant) (replacementId : Nat) {command : RotateRefreshToken}
    (htok : token ∈ db.tokens) (hfam : family ∈ db.families)
    (hdigest : token.tokenDigest = command.presentedDigest) (hid : family.id = token.familyId)
    (hspent : token.spent family = true) (hexpires : command.now < command.replacementExpiresAt) :
    rotateRefreshToken load db replacementId command =
      (stateStore (revokeReusedFamily db token.id token.familyId token.grantId
        token.consumedAt.isSome command.now)).map fun db' => (.reuseDetected, db') := by
  have hfd : db.findToken command.presentedDigest = some token :=
    hdigest ▸ find_key hsd.tokenDigests htok
  have hof : db.findFamily token.familyId = some family := hid ▸ find_key hsd.familyIds hfam
  have hdn : decide (command.replacementExpiresAt ≤ command.now) = false := by simpa using hexpires
  unfold rotateRefreshToken rotateRefreshTokenWith
  simp only [hdn, hfd, hof, hspent, if_true]
  cases revokeReusedFamily db token.id token.familyId token.grantId token.consumedAt.isSome
    command.now <;> rfl

/-! ## 3. Every run -/

/-- **Refresh reuse is punished exactly when it is timely.**  In every reachable world, whatever
else is in flight, a request that presents a consumed or revoked stored token, or one of a revoked
family, commits with the family, its unused tokens and the grant revoked when its reading is not
before the instants of their rows, and fails otherwise.  It is timely whenever no earlier
transaction used a later reading. -/
theorem reuse_is_punished (challenge : Nat → Nat) {w : World}
    (h : (machine challenge).Reach (machine challenge).start w) (load : Nat → Option Grant)
    (replacementId : Nat) (command : RotateRefreshToken) {token : RefreshToken}
    {family : RefreshFamily} (htoken : token ∈ w.db.tokens) (hfamily : family ∈ w.db.families)
    (hdigest : token.tokenDigest = command.presentedDigest) (hid : family.id = token.familyId)
    (hspent : token.spent family = true)
    (hexpires : command.now < command.replacementExpiresAt) :
    (Timely w.db token command.now →
      ∃ db', rotateRefreshToken load w.db replacementId command = .ok (.reuseDetected, db') ∧
        Punished token db') ∧
    (¬ Timely w.db token command.now →
      ∃ e, rotateRefreshToken load w.db replacementId command = .error e) ∧
    (w.latest ≤ command.now → Timely w.db token command.now) := by
  have hsd := (kept_of_reach h).sound
  rw [rotateRefreshToken_spent hsd load replacementId htoken hfamily hdigest hid hspent hexpires]
  refine ⟨fun htm => ?_, fun htm => ?_, fun hlatest => ?_⟩
  · obtain ⟨db', hok, hpunished⟩ := revokeReusedFamily_punishes hsd htoken htm
    exact ⟨db', by rw [hok]; rfl, hpunished⟩
  · cases hrev : revokeReusedFamily w.db token.id token.familyId token.grantId
      token.consumedAt.isSome command.now with
    | ok db' => exact absurd (timely_of_revokeReusedFamily hsd htoken hrev) htm
    | error e => exact ⟨_, rfl⟩
  · exact ((stamped_of_reach h).mono hlatest).timely hsd htoken

/-- Two requests present one token; the clock stands at ten. -/
def presentedTwice : List Action :=
  [.enlist ⟨[1], [], [7], []⟩,
    .createGrant 10 ⟨1, [], none, 7, [5], [offlineAccess], 0, .aal1, [.password], 0⟩,
    .persistCode 20 ⟨100, 10, 7, 3, [5], [offlineAccess], 9, none, 0, 1000⟩,
    .readGrant 1, .exchange 1 30 40 ⟨100, 7, 3, 5, 9, 101, 5000, 0⟩, .tick 10,
    .readGrant 2, .rotate 2 41 ⟨101, 7, none, none, 102, 6000, 10⟩]

/-- A transaction for another client has used a later reading; the reuse is punished all the
same. -/
theorem reuse_is_punished_presentedTwice : ∃ w token db',
    (machine id).Reach (machine id).start w ∧ 10 < w.latest ∧ token ∈ w.db.tokens ∧
      rotateRefreshToken w.db.loadLiveGrant w.db 42 ⟨101, 7, none, none, 103, 6000, 10⟩
        = .ok (.reuseDetected, db') ∧ Punished token db' := by
  obtain ⟨w, hrun, hlater, token, htok, family, hfam, hdig, hid, hspent, htm⟩ : ∃ w,
      (machine id).run (machine id).start (presentedTwice ++
        [.tick 1, .enlist ⟨[1], [], [7, 8], []⟩, .createGrant 11
          ⟨1, [], none, 8, [5], [offlineAccess], 0, .aal1, [.password], 11⟩]) = some w ∧
        10 < w.latest ∧ ∃ token ∈ w.db.tokens, ∃ family ∈ w.db.families,
          token.tokenDigest = 101 ∧ family.id = token.familyId ∧ token.spent family = true ∧
          Timely w.db token 10 :=
    ⟨_, rfl, by decide⟩
  have hre := Machine.reach_of_run _ hrun
  obtain ⟨db', hpunished⟩ := (reuse_is_punished id hre w.db.loadLiveGrant 42
    ⟨101, 7, none, none, 103, 6000, 10⟩ htok hfam hdig hid hspent (by decide)).1 htm
  exact ⟨w, token, db', hre, hlater, htok, hpunished⟩

/-- **The later of two presentations goes unpunished** when it read the clock first.  It fails the
check that a reuse does not come before the consumption, its transaction is rolled back, and the
successor of the token it presented can be rotated again. -/
theorem early_reading_unpunished : ∃ w,
    (machine id).run (machine id).start presentedTwice = some w ∧ 9 ≤ w.clock ∧
      (w.db.findToken 101).any (·.consumedAt.isSome) = true ∧
      rotateRefreshToken w.db.loadLiveGrant w.db 42 ⟨101, 7, none, none, 103, 6000, 9⟩
        = .error .unavailable ∧
      (w.db.families.all (·.revokedAt.isNone) && w.db.grants.all (·.revokedAt.isNone)) = true ∧
      ((rotateRefreshToken w.db.loadLiveGrant w.db 43 ⟨102, 7, none, none, 104, 6000, 10⟩).map
        fun answer => answer.1 matches .rotated _) = .ok true :=
  ⟨_, rfl, by decide⟩

end Omnius.OAuth
