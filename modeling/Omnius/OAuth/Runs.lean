/-
# What holds in every run of the authorization server

A step of the machine is one of a few MOVES: time passes, a transaction reads its grant, a
transaction commits, or a bearer is minted for a request that then fails or delivers.  What a run
keeps is proved move by move, in two parts.  `Kept` is what holds of every reachable world: the
tables are sound, and the log tells a consistent story about them.  `Later origin` is what holds of
every world AFTER a given one: what was revoked there is still revoked, and nothing that started
since has used it.
-/
import Omnius.OAuth.Families

namespace Omnius.OAuth

open Omnius.Lib List Rows

variable {fresh : Option Nat} {db db' : Db} {context : TokenGrantContext} {grant : Grant}
  {command : ConsumeAuthorizationCode} {input : AuthorizationCodeCreate} {opening : Opening}

/-! ## 1. What a change does to the rows that were there -/

/-- Grants and families live on, tokens and codes are old ones or carry the fresh digest. -/
structure Evolves (fresh : Option Nat) (db db' : Db) : Prop where
  grants : ∀ grant ∈ db.grants, ∃ grant' ∈ db'.grants, GrantKept grant grant'
  families : ∀ family ∈ db.families, ∃ family' ∈ db'.families, family'.id = family.id ∧
    (family.revokedAt.isSome = true → family'.revokedAt.isSome = true)
  tokens : ∀ token' ∈ db'.tokens, fresh = some token'.tokenDigest ∨ ∃ token ∈ db.tokens,
    token'.tokenDigest = token.tokenDigest ∧
      (token.consumedAt.isSome = true → token'.consumedAt.isSome = true)
  codes : ∀ code' ∈ db'.codes, fresh = some code'.codeDigest ∨
    ∃ code ∈ db.codes, CodeMarked code code'

theorem Evolves.refl (db : Db) : Evolves fresh db db where
  grants grant hgr := ⟨grant, hgr, .refl grant⟩
  families family hfam := ⟨family, hfam, rfl, id⟩
  tokens token htok := .inr ⟨token, htok, rfl, id⟩
  codes code hcode := .inr ⟨code, hcode, .refl code⟩

theorem mem_append_single {ρ : Type} {rows : List ρ} {row new : ρ} (h : row ∈ rows ++ [new]) :
    row ∈ rows ∨ row = new :=
  (mem_append.mp h).imp_right mem_singleton.mp

variable {now : Nat}

theorem Change.evolves (h : Change now fresh db db') : Evolves fresh db db' := by
  cases h with
  | marked hm =>
    refine ⟨fun grant hgr => ?_, fun family hfam => ?_, fun token' htok' => ?_,
      fun code' hcode' => .inr (hm.codes.from_mem hcode')⟩
    · obtain ⟨grant', hgr', hkept⟩ := hm.grants.to_mem hgr
      exact ⟨grant', hgr', hkept.toGrantKept⟩
    · obtain ⟨family', hfam', hkept⟩ := hm.families.to_mem hfam
      exact ⟨family', hfam', hkept.id_eq, hkept.kept⟩
    · obtain ⟨token, htok, hsame⟩ := hm.tokens.from_mem htok'
      exact .inr ⟨token, htok, hsame.tokenDigest_eq, fun h => by rwa [hsame.same]⟩
  | granted grant =>
    exact { Evolves.refl db with
      grants := fun old hold => ⟨old, mem_append_left _ hold, .refl old⟩ }
  | coded code =>
    refine { Evolves.refl db with codes := fun code' hcode' => ?_ }
    obtain hold | rfl := mem_append_single hcode'
    · exact .inr ⟨code', hold, .refl code'⟩
    · exact .inl rfl
  | started hs =>
    rw [hs.result]
    refine { Evolves.refl db with
      families := fun family hfam => ?_, tokens := fun token htok => ?_ }
    · exact ⟨family, mem_append_left _ hfam, rfl, id⟩
    · obtain hold | rfl := mem_append_single htok
      · exact .inr ⟨token, hold, rfl, id⟩
      · exact .inl rfl
  | rotated hr =>
    rw [hr.result]
    refine { Evolves.refl db with
      tokens := forall_patched (fun row hrow _ => ?_) fun row hrow _ => ?_ }
    · exact (mem_append_single hrow).symm.imp (fun h => by rw [h]; rfl)
        fun h => ⟨row, h, rfl, fun _ => rfl⟩
    · exact (mem_append_single hrow).symm.imp (fun h => by rw [h]; rfl) fun h => ⟨row, h, rfl, id⟩
  | sweptTokens p =>
    exact { Evolves.refl db with
      tokens := fun token htok => .inr ⟨token, (mem_filter.mp htok).1, rfl, id⟩ }
  | sweptCodes p =>
    exact { Evolves.refl db with
      codes := fun code hcode => .inr ⟨code, (mem_filter.mp hcode).1, .refl code⟩ }

/-! ## 2. The story the log tells -/

def rotatedDigest : Nat × Event → Option Nat
  | (_, .rotated token _) => some token.tokenDigest
  | _ => none

def exchangedDigest : Nat × Event → Option Nat
  | (_, .exchanged command _) => some command.codeDigest
  | _ => none

/-- What the tokens an event delivered were signed from. -/
def contextOf : Nat × Event → Option TokenGrantContext
  | (_, .exchanged _ context) => some context
  | (_, .rotated _ context) => some context
  | _ => none

/-- The code was issued for exactly this client, redirect, resource and verifier. -/
structure AuthorizationCodeCreate.BoundTo (challenge : Nat → Nat)
    (input : AuthorizationCodeCreate) (command : ConsumeAuthorizationCode) : Prop where
  codeDigest : input.codeDigest = command.codeDigest
  clientId : input.clientId = command.clientId
  redirectUri : input.redirectUri = command.redirectUri
  resource : input.resourceUris = [command.resource]
  verifier : input.pkceCodeChallenge = challenge command.pkceVerifier

def Recorded (log : List (Nat × Event)) (code : AuthorizationCode) : Prop :=
  ∃ input since, (since, .persisted input) ∈ log ∧ CodeMarked (input.row code.id) code

structure Story (challenge : Nat → Nat) (w : World) : Prop where
  tokensMinted : ∀ token ∈ w.db.tokens, token.tokenDigest ∈ w.minted
  codesMinted : ∀ code ∈ w.db.codes, code.codeDigest ∈ w.minted
  rotatedOnce : (w.log.filterMap rotatedDigest).Nodup
  rotatedSpent : ∀ digest ∈ w.log.filterMap rotatedDigest, digest ∈ w.minted ∧
    ∀ token ∈ w.db.tokens, token.tokenDigest = digest → token.consumedAt.isSome = true
  exchangedOnce : (w.log.filterMap exchangedDigest).Nodup
  exchangedSpent : ∀ digest ∈ w.log.filterMap exchangedDigest, digest ∈ w.minted ∧
    ∀ code ∈ w.db.codes, code.codeDigest = digest → code.consumedAt.isSome = true
  recorded : ∀ code ∈ w.db.codes, Recorded w.log code
  bound : ∀ since command context, (since, .exchanged command context) ∈ w.log →
    ∃ input since', (since', .persisted input) ∈ w.log ∧ input.BoundTo challenge command
  issued : ∀ context ∈ w.log.filterMap contextOf, ∃ grant ∈ w.db.grants, context.Within grant

section Notes

variable {α β : Type} {f : α → Option β} {entry : α} {log : List α}

theorem forall_mem_filterMap_cons {P : β → Prop} (hnew : ∀ b, f entry = some b → P b)
    (h : ∀ b ∈ log.filterMap f, P b) : ∀ b ∈ (entry :: log).filterMap f, P b := by
  intro b hb
  obtain ⟨noted, hnoted, hf⟩ := mem_filterMap.mp hb
  obtain rfl | hold := mem_cons.mp hnoted
  · exact hnew b hf
  · exact h b (mem_filterMap.mpr ⟨noted, hold, hf⟩)

theorem nodup_filterMap_cons (hnew : ∀ b, f entry = some b → b ∉ log.filterMap f)
    (h : (log.filterMap f).Nodup) : ((entry :: log).filterMap f).Nodup := by
  cases hf : f entry with
  | none => rwa [filterMap_cons_none hf]
  | some b =>
    rw [filterMap_cons_some hf]
    exact nodup_cons.mpr ⟨hnew b hf, h⟩

end Notes

/-- A digest that has been minted but names nothing that was rotated or exchanged. -/
structure World.Unused (w : World) (digest : Nat) : Prop where
  minted : digest ∈ w.minted
  unrotated : digest ∉ w.log.filterMap rotatedDigest
  unexchanged : digest ∉ w.log.filterMap exchangedDigest

namespace Story

variable {challenge : Nat → Nat} {w : World} (h : Story challenge w)

include h

theorem mint (digest : Nat) : Story challenge (w.mint digest) :=
  { h with
    tokensMinted := fun token htok => mem_cons_of_mem _ (h.tokensMinted token htok)
    codesMinted := fun code hcode => mem_cons_of_mem _ (h.codesMinted code hcode)
    rotatedSpent := fun d hd => ⟨mem_cons_of_mem _ (h.rotatedSpent d hd).1, (h.rotatedSpent d hd).2⟩
    exchangedSpent := fun d hd => ⟨mem_cons_of_mem _ (h.exchangedSpent d hd).1,
      (h.exchangedSpent d hd).2⟩ }

/-- What is minted now was not used before. -/
theorem unused_mint {digest : Nat} (hfr : digest ∉ w.minted) : (w.mint digest).Unused digest :=
  ⟨mem_cons_self, fun hd => hfr (h.rotatedSpent digest hd).1,
    fun hd => hfr (h.exchangedSpent digest hd).1⟩

theorem commit (hc : Evolves fresh w.db db') (hfr : ∀ digest, fresh = some digest → w.Unused digest)
    (hcodes : ∀ code ∈ db'.codes, fresh = some code.codeDigest → Recorded w.log code) :
    Story challenge (w.commit now db') where
  __ := h
  tokensMinted token' htok' := by
    obtain hnew | ⟨token, htok, hdig, -⟩ := hc.tokens token' htok'
    · exact (hfr _ hnew).minted
    · exact hdig ▸ h.tokensMinted token htok
  codesMinted code' hcode' := by
    obtain hnew | ⟨code, hcode, hmk⟩ := hc.codes code' hcode'
    · exact (hfr _ hnew).minted
    · exact hmk.codeDigest_eq ▸ h.codesMinted code hcode
  rotatedSpent digest hdig := by
    refine ⟨(h.rotatedSpent digest hdig).1, fun token' htok' heq => ?_⟩
    obtain hnew | ⟨token, htok, hsame, hcsd⟩ := hc.tokens token' htok'
    · exact absurd (heq ▸ hdig) (hfr _ hnew).unrotated
    · exact hcsd ((h.rotatedSpent digest hdig).2 token htok (hsame.symm.trans heq))
  exchangedSpent digest hdig := by
    refine ⟨(h.exchangedSpent digest hdig).1, fun code' hcode' heq => ?_⟩
    obtain hnew | ⟨code, hcode, hmk⟩ := hc.codes code' hcode'
    · exact absurd (heq ▸ hdig) (hfr _ hnew).unexchanged
    · exact hmk.kept
        ((h.exchangedSpent digest hdig).2 code hcode (hmk.codeDigest_eq.symm.trans heq))
  recorded code' hcode' := by
    obtain hnew | ⟨code, hcode, hmk⟩ := hc.codes code' hcode'
    · exact hcodes code' hcode' hnew
    · obtain ⟨input, since, hmem, hrow⟩ := h.recorded code hcode
      have hid : code'.id = code.id := by rw [hmk.same]
      exact ⟨input, since, hmem, hid ▸ hrow.trans hmk⟩
  issued context hctx := by
    obtain ⟨grant, hgr, hwi⟩ := h.issued context hctx
    obtain ⟨grant', hgr', hkept⟩ := hc.grants grant hgr
    refine ⟨grant', hgr', ?_⟩
    rw [hkept.same]
    exact { hwi with }

variable {since : Nat}

/-- A note of an event that used nothing twice, and delivered nothing beyond a grant. -/
theorem note {event : Event}
    (hrotated : ∀ digest, rotatedDigest (since, event) = some digest →
      digest ∉ w.log.filterMap rotatedDigest ∧ digest ∈ w.minted ∧
        ∀ token ∈ w.db.tokens, token.tokenDigest = digest → token.consumedAt.isSome = true)
    (hexchanged : ∀ digest, exchangedDigest (since, event) = some digest →
      digest ∉ w.log.filterMap exchangedDigest ∧ digest ∈ w.minted ∧
        ∀ code ∈ w.db.codes, code.codeDigest = digest → code.consumedAt.isSome = true)
    (hbound : ∀ command context, event = .exchanged command context →
      ∃ input since', (since', .persisted input) ∈ w.log ∧ input.BoundTo challenge command)
    (hctx : ∀ context, contextOf (since, event) = some context →
      ∃ grant ∈ w.db.grants, context.Within grant) : Story challenge (w.note since event) where
  __ := h
  rotatedOnce := nodup_filterMap_cons (fun digest hd => (hrotated digest hd).1) h.rotatedOnce
  rotatedSpent := forall_mem_filterMap_cons (fun digest hd => (hrotated digest hd).2) h.rotatedSpent
  exchangedOnce := nodup_filterMap_cons (fun digest hd => (hexchanged digest hd).1) h.exchangedOnce
  exchangedSpent :=
    forall_mem_filterMap_cons (fun digest hd => (hexchanged digest hd).2) h.exchangedSpent
  recorded code hcode := by
    obtain ⟨input, since', hmem, hrow⟩ := h.recorded code hcode
    exact ⟨input, since', mem_cons_of_mem _ hmem, hrow⟩
  bound since' command context hmem := by
    obtain ⟨input, since'', hold, hinput⟩ : ∃ input since'', (since'', .persisted input) ∈ w.log ∧
        input.BoundTo challenge command := by
      obtain heq | hmem := mem_cons.mp hmem
      · cases heq
        exact hbound command context rfl
      · exact h.bound since' command context hmem
    exact ⟨input, since'', mem_cons_of_mem _ hold, hinput⟩
  issued := forall_mem_filterMap_cons hctx h.issued

end Story

/-! ## 3. Moves -/

/-- What one action does to the world. -/
inductive Move (challenge : Nat → Nat) (w : World) : World → Prop
  | ticked (elapsed : Nat) : Move challenge w { w with clock := w.clock + elapsed }
  | read (transaction : Nat) :
    Move challenge w { w with openings := (transaction, ⟨w.db, w.steps⟩) :: w.openings }
  | idle : Move challenge w w
  | committed {now : Nat} {db' : Db} : Change now none w.db db' → now ≤ w.clock →
    Move challenge w (w.commit now db')
  | reported {check : AccessTokenLiveCheck} {grant : Grant} :
    w.db.loadLiveGrant check.grantId = some grant →
    Move challenge w (w.note w.steps (.reportedLive check.grantId))
  | minted {digest : Nat} : digest ∉ w.minted → Move challenge w (w.mint digest)
  | persisted {input : AuthorizationCodeCreate} {codeId : Nat} {db' : Db} :
    input.codeDigest ∉ w.minted → input.issuedAt ≤ w.clock →
    (∀ old ∈ w.db.codes, old.codeDigest ≠ input.codeDigest) →
    db' = { w.db with codes := w.db.codes ++ [input.row codeId] } →
    Move challenge w (((w.mint input.codeDigest).note w.steps (.persisted input)).commit
      input.issuedAt db')
  | closed {digest : Nat} (transaction : Nat) : digest ∉ w.minted →
    Move challenge w ((w.mint digest).close transaction)
  | refused {digest now : Nat} {db' : Db} (transaction : Nat) : digest ∉ w.minted →
    now ≤ w.clock → Marked now w.db db' →
    Move challenge w (((w.mint digest).close transaction).commit now db')
  | exchanged {transaction : Nat} {opening : Opening} {familyId tokenId : Nat}
    {command : ConsumeAuthorizationCode} {stored : AuthorizationCode} {live : Grant}
    {db₁ db' : Db} {context : TokenGrantContext} :
    command.refreshDigest ∉ w.minted → command.now ≤ w.clock →
    (transaction, opening) ∈ w.openings →
    Consumes challenge opening.reading.loadLiveGrant w.db command.codeDigest command.binding
      command.now stored live db₁ →
    context.Within live →
    (db' = db₁ ∨ ∃ input grant, Starts db₁ input familyId tokenId grant db' ∧
      input.tokenDigest = command.refreshDigest ∧ input.issuedAt = command.now) →
    Move challenge w ((((w.mint command.refreshDigest).close transaction).commit command.now
      db').note opening.since (.exchanged command context))
  | rotated {transaction : Nat} {opening : Opening} {replacementId : Nat}
    {command : RotateRefreshToken} {token : RefreshToken} {family : RefreshFamily} {grant : Grant}
    {db' : Db} {context : TokenGrantContext} :
    command.replacementDigest ∉ w.minted → command.now ≤ w.clock →
    (transaction, opening) ∈ w.openings →
    Rotates opening.reading.loadLiveGrant w.db command.presentedDigest command.clientId
      command.now token (token.successor replacementId command.replacementDigest command.now
        (min command.replacementExpiresAt family.expiresAt)) family grant db' →
    context.Within grant →
    Move challenge w ((((w.mint command.replacementDigest).close transaction).commit command.now
      db').note opening.since (.rotated token context))

namespace World

variable {challenge : Nat → Nat} {w w' effect : World} {now : Nat}

theorem reading_eq_some (h : w.reading now effect = some w') : now ≤ w.clock ∧ w' = effect := by
  unfold reading at h
  split at h
  · next hnow =>
    cases h
    exact ⟨hnow, rfl⟩
  · cases h

/-- A transaction without an answer: it commits a change, or nothing happens. -/
theorem settle_move {ε : Type} {result : Except ε Db} (hnow : now ≤ w.clock)
    (hch : ∀ db', result = .ok db' → Change now none w.db db') :
    Move challenge w (w.settle now result) := by
  cases result with
  | ok db => exact .committed (hch db rfl) hnow
  | error e => exact .idle

variable {transaction limit : Nat} {locked : List Nat}

theorem opening_mem (h : w.opening transaction = some opening) :
    (transaction, opening) ∈ w.openings := by
  obtain ⟨⟨key, value⟩, hfd, rfl⟩ := Option.map_eq_some_iff.mp h
  obtain rfl : key = transaction := by simpa using List.find?_some hfd
  exact mem_of_find?_eq_some hfd

theorem createGrant_change {grantId : Nat} {input : GrantCreate}
    (h : createGrant db grantId input = .ok db') : Change input.consentedAt none db db' := by
  obtain ⟨-, h⟩ := check_eq_ok.mp h
  obtain ⟨-, h⟩ := check_eq_ok.mp h
  obtain ⟨_, hrows, rfl⟩ := stored_eq_ok.mp h
  obtain ⟨hck, hfr, rfl⟩ := insert_eq_ok.mp hrows
  exact .granted _ hck (fun old hold => of_decide_eq_false (hfr old hold)) le_rfl

theorem persistAuthorizationCode_spec {codeId : Nat}
    (h : persistAuthorizationCode db codeId input = .ok db') :
    (∀ old ∈ db.codes, old.codeDigest ≠ input.codeDigest) ∧
      db' = { db with codes := db.codes ++ [input.row codeId] } := by
  obtain ⟨-, h⟩ := check_eq_ok.mp h
  split at h
  · cases h
  split at h
  · obtain ⟨_, hrows, rfl⟩ := stored_eq_ok.mp h
    obtain ⟨-, hfr, rfl⟩ := insert_eq_ok.mp hrows
    refine ⟨fun old hold => ?_, rfl⟩
    have := hfr old hold
    simp only [Db.codeClash, Bool.or_eq_false_iff, decide_eq_false_iff_not] at this
    exact this.2
  · cases h

theorem mem_of_batch {ρ : Type} {id expiresAt : ρ → Nat} {candidates : List ρ} {key : Nat}
    (h : key ∈ batch id expiresAt limit locked candidates) : ∃ row ∈ candidates, id row = key := by
  obtain ⟨row, hrow, hkey⟩ := mem_map.mp h
  have hmem := (mem_filter.mp (mem_of_mem_take hrow)).1
  exact ⟨row, (mem_insertionSort _).mp hmem, hkey⟩

theorem cleanupRefreshTombstones_change (hids : (db.tokens.map (·.id)).Nodup) :
    Change now none db (cleanupRefreshTombstones db now limit locked) := by
  refine .sweptTokens _ fun token htok hswept earlier hear => ?_
  have hbatch : token.id ∈ batch (·.id) (·.expiresAt) limit locked (db.tokens.filter fun token =>
      decide (token.expiresAt ≤ now)
        && !db.tokens.any fun predecessor => predecessor.replacedById = some token.id) := by
    simpa using hswept
  obtain ⟨row, hrow, hid⟩ := mem_of_batch hbatch
  obtain ⟨hmem, hroot⟩ := mem_filter.mp hrow
  obtain rfl := eq_of_key hids hmem htok hid
  simp only [Bool.and_eq_true, Bool.not_eq_true', any_eq_false, decide_eq_true_eq] at hroot
  exact hroot.2 earlier hear

theorem exchanged_move {familyId tokenId : Nat} (hfr : command.refreshDigest ∉ w.minted)
    (hnow : command.now ≤ w.clock) (hopg : (transaction, opening) ∈ w.openings) :
    Move challenge w (((w.mint command.refreshDigest).close transaction).exchanged challenge
      opening familyId tokenId command) := by
  unfold exchanged
  cases hrsl : consumeAuthorizationCode challenge opening.reading.loadLiveGrant
      ((w.mint command.refreshDigest).close transaction).db familyId tokenId command with
  | error e => exact .closed transaction hfr
  | ok answer =>
    obtain ⟨outcome, db'⟩ := answer
    obtain ⟨stored, live, db₁, context, hcon, rfl, hwi, hstt⟩ | ⟨rfl, hmk⟩ :=
      consumeAuthorizationCode_spec hrsl
    · exact .exchanged hfr hnow hopg hcon hwi hstt
    · exact .refused transaction hfr hnow hmk

theorem rotated_move {replacementId : Nat} {command : RotateRefreshToken}
    (hfr : command.replacementDigest ∉ w.minted) (hnow : command.now ≤ w.clock)
    (hopg : (transaction, opening) ∈ w.openings) :
    Move challenge w (((w.mint command.replacementDigest).close transaction).rotated opening
      replacementId command) := by
  unfold rotated
  cases hrsl : rotateRefreshToken opening.reading.loadLiveGrant
      ((w.mint command.replacementDigest).close transaction).db replacementId command with
  | error e => exact .closed transaction hfr
  | ok answer =>
    obtain ⟨outcome, db'⟩ := answer
    obtain ⟨context, token, family, grant, rfl, hwi, hrot⟩ | ⟨hout, hmk⟩ :=
      rotateRefreshToken_spec hrsl
    · rw [hrot.found]
      exact .rotated hfr hnow hopg hrot hwi
    · have hrfd : Move challenge w _ := .refused transaction hfr hnow hmk
      obtain rfl | rfl := hout
      · exact hrfd
      · exact hrfd

/-- **Every action is a move.** -/
theorem act_move (hids : (w.db.tokens.map (·.id)).Nodup) {action : Action}
    (h : w.act challenge action = some w') : Move challenge w w' := by
  cases action with
  | tick elapsed =>
    cases h
    exact .ticked elapsed
  | enlist directory =>
    cases h
    exact .committed (.marked (.of_tables rfl rfl rfl rfl)) (Nat.zero_le _)
  | createGrant grantId input =>
    obtain ⟨hnow, rfl⟩ := reading_eq_some h
    exact settle_move hnow fun db' hok => createGrant_change hok
  | persistCode codeId input =>
    simp only [act] at h
    split at h
    · cases h
    rename_i hfr
    obtain ⟨hnow, rfl⟩ := reading_eq_some h
    split
    · next db' hok =>
      obtain ⟨hnew, hdb⟩ := persistAuthorizationCode_spec hok
      exact .persisted hfr hnow hnew hdb
    · exact .minted hfr
  | readGrant transaction =>
    cases h
    exact .read transaction
  | exchange transaction familyId tokenId command =>
    obtain ⟨opening, hopg, h⟩ := Option.bind_eq_some_iff.mp h
    split at h
    · cases h
    rename_i hfr
    obtain ⟨hnow, rfl⟩ := reading_eq_some h
    exact exchanged_move hfr hnow (opening_mem hopg)
  | rotate transaction replacementId command =>
    obtain ⟨opening, hopg, h⟩ := Option.bind_eq_some_iff.mp h
    split at h
    · cases h
    rename_i hfr
    obtain ⟨hnow, rfl⟩ := reading_eq_some h
    exact rotated_move hfr hnow (opening_mem hopg)
  | revokeRefreshToken digest clientId now =>
    obtain ⟨hnow, rfl⟩ := reading_eq_some h
    refine settle_move hnow fun db' hok => ?_
    obtain ⟨⟨changed, _⟩, hrev, rfl⟩ := map_eq_ok.mp hok
    exact .marked (revokeRefreshTokenWith_marked hrev)
  | revokeGrant userId grantId now =>
    obtain ⟨hnow, rfl⟩ := reading_eq_some h
    refine settle_move hnow fun db' hok => ?_
    obtain ⟨⟨changed, _⟩, hrev, rfl⟩ := map_eq_ok.mp hok
    exact .marked (revokeGrantWith_marked hrev)
  | disableClient clientId now =>
    obtain ⟨hnow, rfl⟩ := reading_eq_some h
    exact settle_move hnow fun db' hok => .marked (disableClientWith_marked hok)
  | revokeAccessToken jti grantId clientId now =>
    obtain ⟨hnow, rfl⟩ := reading_eq_some h
    refine .committed (.marked ?_) hnow
    unfold revokeAccessTokenJtiWith
    split <;> exact .of_tables rfl rfl rfl rfl
  | verifyAccessToken check now =>
    obtain ⟨hnow, rfl⟩ := reading_eq_some h
    unfold verified
    split
    · next grant hok =>
      obtain ⟨scopes, -, hok⟩ := bind_eq_ok.mp hok
      obtain ⟨hlive, -⟩ := Option.filter_eq_some_iff.mp (Except.ok.inj hok)
      exact .reported hlive
    · exact .idle
  | cleanupTombstones now limit locked =>
    obtain ⟨hnow, rfl⟩ := reading_eq_some h
    exact .committed (cleanupRefreshTombstones_change hids) hnow
  | cleanupCodes now limit locked =>
    obtain ⟨hnow, rfl⟩ := reading_eq_some h
    exact .committed (.sweptCodes _) hnow
  | cleanupAccessRevocations now limit locked =>
    obtain ⟨hnow, rfl⟩ := reading_eq_some h
    exact .committed (.marked (.of_tables rfl rfl rfl rfl)) hnow

end World

/-! ## 4. What every reachable world keeps -/

/-- The grants of an earlier database live on in a later one. -/
def GrantsKept (db db' : Db) : Prop :=
  ∀ grant ∈ db.grants, ∃ grant' ∈ db'.grants, GrantKept grant grant'

theorem GrantsKept.trans {a b c : Db} (h : GrantsKept a b) (h' : GrantsKept b c) :
    GrantsKept a c := fun grant hgr => by
  obtain ⟨grant', hgr', hkept⟩ := h grant hgr
  obtain ⟨grant'', hgr'', hkept'⟩ := h' grant' hgr'
  exact ⟨grant'', hgr'', hkept.trans hkept'⟩

theorem GrantsKept.refl (db : Db) : GrantsKept db db :=
  fun grant hgr => ⟨grant, hgr, .refl grant⟩

/-- Everything that holds of a reachable world; `bound` is the number of its steps. -/
structure Kept (challenge : Nat → Nat) (bound : Nat) (w : World) : Prop where
  sound : Sound w.db
  story : Story challenge w
  readings : ∀ entry ∈ w.openings, Sound entry.2.reading ∧ GrantsKept entry.2.reading w.db ∧
    entry.2.since < bound
  logged : ∀ entry ∈ w.log, entry.1 < bound

namespace Kept

variable {challenge : Nat → Nat} {bound : Nat} {w : World} (h : Kept challenge bound w)

include h

theorem mono {bound' : Nat} (hle : bound ≤ bound') : Kept challenge bound' w :=
  { h with
    readings := fun entry hent =>
      ⟨(h.readings entry hent).1, (h.readings entry hent).2.1,
        Nat.lt_of_lt_of_le (h.readings entry hent).2.2 hle⟩
    logged := fun entry hent => Nat.lt_of_lt_of_le (h.logged entry hent) hle }

theorem mint (digest : Nat) : Kept challenge bound (w.mint digest) :=
  { h with story := h.story.mint digest }

theorem close (transaction : Nat) : Kept challenge bound (w.close transaction) :=
  ⟨h.sound, { h.story with }, fun entry hent => h.readings entry (mem_filter.mp hent).1, h.logged⟩

theorem commit (hc : Change now fresh w.db db')
    (hfr : ∀ digest, fresh = some digest → w.Unused digest)
    (hcodes : ∀ code ∈ db'.codes, fresh = some code.codeDigest → Recorded w.log code) :
    Kept challenge bound (w.commit now db') where
  __ := h
  sound := h.sound.change hc
  story := h.story.commit hc.evolves hfr hcodes
  readings entry hent :=
    ⟨(h.readings entry hent).1, (h.readings entry hent).2.1.trans hc.evolves.grants,
      (h.readings entry hent).2.2⟩

theorem commit_quiet (hc : Change now none w.db db') :
    Kept challenge bound (w.commit now db') :=
  h.commit hc (fun _ hnone => by cases hnone) fun _ _ hnone => by cases hnone

theorem note {since : Nat} {event : Event} (hsty : Story challenge (w.note since event))
    (hsince : since < bound) : Kept challenge bound (w.note since event) :=
  { h with story := hsty, logged := forall_mem_cons.mpr ⟨hsince, h.logged⟩ }

/-- A grant that a transaction read is still there when it commits. -/
theorem grant_of_reading {transaction : Nat} {grantId : Nat}
    (hopg : (transaction, opening) ∈ w.openings)
    (hlive : opening.reading.loadLiveGrant grantId = some grant) :
    ∃ grant' ∈ w.db.grants, GrantKept grant grant' :=
  (h.readings _ hopg).2.1 grant (Db.loadLiveGrant_eq_some hlive).1

end Kept

theorem TokenGrantContext.Within.kept {grant' : Grant} (h : context.Within grant)
    (hkept : GrantKept grant grant') : context.Within grant' := by
  rw [hkept.same]
  exact { h with }

variable {stored : AuthorizationCode} {load : Nat → Option Grant} {digest : Nat}
  {challenge : Nat → Nat}

theorem boundTo_of_bindingMatches (hrow : CodeMarked (input.row stored.id) stored)
    (hdig : stored.codeDigest = command.codeDigest)
    (hbound : stored.bindingMatches challenge command.binding = true) :
    input.BoundTo challenge command := by
  simp only [AuthorizationCode.bindingMatches, Bool.and_eq_true] at hbound
  rw [hrow.same] at hbound hdig
  exact ⟨hdig, of_decide_eq_true hbound.1.1.1, of_decide_eq_true hbound.1.1.2,
    of_decide_eq_true hbound.1.2, of_decide_eq_true hbound.2⟩

theorem Rotates.spent {clientId : Nat} {token successor : RefreshToken} {family : RefreshFamily}
    (hr : Rotates load db digest clientId now token successor family grant db')
    (hdigests : (db.tokens.map (·.tokenDigest)).Nodup) :
    ∀ row ∈ db'.tokens, row.tokenDigest = token.tokenDigest → row.consumedAt.isSome = true := by
  obtain ⟨htok, -⟩ := Db.findToken_eq_some hr.found
  rw [hr.result]
  refine forall_patched (fun _ _ _ _ => rfl) fun row hrow hoth hdig => ?_
  obtain hold | rfl := mem_append_single hrow
  · obtain rfl := eq_of_key hdigests hold htok hdig
    simp at hoth
  · exact absurd hdig.symm (Db.tokenClash_eq_false (hr.fresh token htok)).2

theorem Consumes.spent {binding : AuthorizationCodeBinding}
    {live : Grant} (hcon : Consumes challenge load db digest binding now stored live db')
    (hdigests : (db.codes.map (·.codeDigest)).Nodup) :
    ∀ row ∈ db'.codes, row.codeDigest = digest → row.consumedAt.isSome = true := by
  have hsto : stored ∈ db.codes := mem_of_find?_eq_some hcon.found
  have hdig : stored.codeDigest = digest := by simpa using List.find?_some hcon.found
  rw [hcon.result]
  refine forall_patched (fun _ _ _ _ => rfl) fun row hrow hoth hrowDigest => ?_
  obtain rfl := eq_of_key hdigests hrow hsto (hrowDigest.trans hdig.symm)
  simp at hoth

/-- **A move keeps it all.** -/
theorem Kept.move {w w' : World} (h : Kept challenge w.steps w)
    (hm : Move challenge w w') : Kept challenge (w.steps + 1) w' := by
  have hlat := h.mono (Nat.le_succ w.steps)
  cases hm with
  | ticked elapsed => exact { hlat with story := { hlat.story with } }
  | idle => exact hlat
  | read transaction =>
    refine ⟨hlat.sound, { hlat.story with }, forall_mem_cons.mpr ⟨?_, hlat.readings⟩, hlat.logged⟩
    exact ⟨h.sound, .refl _, Nat.lt_succ_self _⟩
  | committed hch _ => exact hlat.commit_quiet hch
  | reported _ => exact hlat.note (hlat.story.note nofun nofun nofun nofun) (Nat.lt_succ_self _)
  | minted _ => exact hlat.mint _
  | @persisted input codeId db' hfr _ hnew hdb =>
    have hminted := hlat.mint input.codeDigest
    have hquiet : Story challenge
        ((w.mint input.codeDigest).note w.steps (.persisted input)) :=
      hminted.story.note nofun nofun nofun nofun
    have hnoted := hminted.note hquiet (Nat.lt_succ_self _)
    subst hdb
    have hun := hlat.story.unused_mint hfr
    refine hnoted.commit (.coded (input.row codeId) hnew) (fun digest hdig => ?_)
      fun code hcode hdig => ?_
    · cases hdig
      exact { hun with }
    · -- the only row with the fresh digest is the new one
      obtain hold | rfl := mem_append_single hcode
      · exact absurd (Option.some.inj hdig).symm (hnew code hold)
      · exact ⟨input, w.steps, mem_cons_self, .refl _⟩
  | closed transaction _ => exact (hlat.mint _).close transaction
  | refused transaction _ _ hmk =>
    exact ((hlat.mint _).close transaction).commit_quiet (.marked hmk)
  | @exchanged transaction opening familyId tokenId command stored live db₁ db' context hfr _
      hopg hcon hwi hstt =>
    have hminted := (hlat.mint command.refreshDigest).close transaction
    have hun := hlat.story.unused_mint hfr
    have hmem : stored ∈ w.db.codes := mem_of_find?_eq_some hcon.found
    have hdig : stored.codeDigest = command.codeDigest := by
      simpa using List.find?_some hcon.found
    -- the code was not consumed before, so the log has no exchange of it
    have hnew : command.codeDigest ∉ w.log.filterMap exchangedDigest := fun hd => by
      have := (h.story.exchangedSpent _ hd).2 stored hmem hdig
      simp [hcon.unused] at this
    obtain ⟨grant, hgr, hkept⟩ := h.grant_of_reading hopg hcon.live
    obtain ⟨input, issuedAt, hper, hrow⟩ := h.story.recorded stored hmem
    have hbound := boundTo_of_bindingMatches hrow hdig hcon.bound
    -- the codes and grants are those the consumption left
    have hmk := hminted.commit_quiet (.marked hcon.marked)
    have hcmt : Kept challenge (w.steps + 1)
        (((w.mint command.refreshDigest).close transaction).commit command.now db') ∧
        db'.codes = db₁.codes ∧ db'.grants = db₁.grants := by
      obtain rfl | ⟨issue, owner, hstarts, hissue, hiss⟩ := hstt
      · exact ⟨hmk, rfl, rfl⟩
      have hcodes : db'.codes = db₁.codes := by rw [hstarts.result]
      have hgrs : db'.grants = db₁.grants := by rw [hstarts.result]
      have hch : Change command.now _ db₁ db' := .started hstarts hiss.le
      refine ⟨?_, hcodes, hgrs⟩
      have hagain := hmk.commit hch (fun digest heq => ?_) fun code hcode heq => ?_
      · exact { hagain with story := { hagain.story with } }
      · obtain rfl : command.refreshDigest = digest := by
          rw [← hissue]
          exact Option.some.inj heq
        exact { hun with }
      · exact hmk.story.recorded code (hcodes ▸ hcode)
    obtain ⟨hcmt, hcodes, hgrs⟩ := hcmt
    obtain ⟨grant', hgr', hkept'⟩ : ∃ grant' ∈ db'.grants, GrantKept grant grant' := by
      rw [hgrs]
      exact (Change.evolves (.marked hcon.marked)).grants grant hgr
    refine hcmt.note (hcmt.story.note nofun ?_ ?_ ?_) (hlat.readings _ hopg).2.2
    · rintro _ ⟨⟩
      refine ⟨hnew, mem_cons_of_mem _ (hdig ▸ h.story.codesMinted stored hmem), ?_⟩
      exact fun row hrow' => hcon.spent h.sound.codeDigests row (hcodes ▸ hrow')
    · rintro _ _ ⟨⟩
      exact ⟨input, issuedAt, hper, hbound⟩
    · rintro _ ⟨⟩
      exact ⟨grant', hgr', hwi.kept (hkept.trans hkept')⟩
  | @rotated transaction opening replacementId command token family grant db' context hfr _
      hopg hrot hwi =>
    have hminted := (hlat.mint command.replacementDigest).close transaction
    have hun := hlat.story.unused_mint hfr
    obtain ⟨hmem, -⟩ := Db.findToken_eq_some hrot.found
    obtain ⟨hunc, -, -⟩ := RefreshToken.spent_eq_false hrot.unspent
    -- the token was not consumed before, so the log has no rotation of it
    have hnew : token.tokenDigest ∉ w.log.filterMap rotatedDigest := fun hd => by
      have := (h.story.rotatedSpent _ hd).2 token hmem rfl
      simp [hunc] at this
    have hcmt := hminted.commit (.rotated hrot)
      (fun digest heq => by
        cases heq
        exact { hun with })
      fun code hcode _ => hminted.story.recorded code (by
        rw [hrot.result] at hcode
        exact hcode)
    obtain ⟨grant', hgr', hkept⟩ := h.grant_of_reading hopg hrot.live
    have hgrs : db'.grants = w.db.grants := by rw [hrot.result]; rfl
    refine hcmt.note (hcmt.story.note ?_ nofun nofun ?_) (hlat.readings _ hopg).2.2
    · rintro _ ⟨⟩
      exact ⟨hnew, mem_cons_of_mem _ (h.story.tokensMinted token hmem),
        hrot.spent h.sound.tokenDigests⟩
    · rintro _ ⟨⟩
      exact ⟨grant', hgrs ▸ hgr', hwi.kept hkept⟩

/-! ## 5. What is revoked stays revoked -/

/-- The event used nothing that `db` has as revoked. -/
def Respects (db : Db) : Event → Prop
  | .rotated token _ =>
    (∀ family ∈ db.families, family.id = token.familyId → family.revokedAt = none) ∧
      ∀ grant ∈ db.grants, grant.id = token.grantId → grant.revokedAt = none
  | .reportedLive grantId => ∀ grant ∈ db.grants, grant.id = grantId → grant.revokedAt = none
  | _ => True

/-- `w` comes after `origin`. -/
structure Later (origin w : World) : Prop where
  steps : origin.steps ≤ w.steps
  families : ∀ family ∈ origin.db.families, ∃ family' ∈ w.db.families, family'.id = family.id ∧
    (family.revokedAt.isSome = true → family'.revokedAt.isSome = true)
  grants : GrantsKept origin.db w.db
  readings : ∀ entry ∈ w.openings, origin.steps ≤ entry.2.since →
    GrantsKept origin.db entry.2.reading
  logged : ∀ entry ∈ w.log, origin.steps ≤ entry.1 → Respects origin.db entry.2

theorem GrantsKept.unrevoked {origin : Db} (h : GrantsKept origin db)
    (hids : (db.grants.map (·.id)).Nodup) {grantId : Nat}
    (hlive : db.loadLiveGrant grantId = some grant) :
    ∀ old ∈ origin.grants, old.id = grantId → old.revokedAt = none := by
  intro old hold hid
  obtain ⟨hmem, hgid, hunr⟩ := Db.loadLiveGrant_eq_some hlive
  obtain ⟨kept, hkeptMem, hkept⟩ := h old hold
  obtain rfl := eq_of_key hids hkeptMem hmem (hkept.id_eq.trans (hid.trans hgid.symm))
  by_contra hrev
  have := hkept.kept (Option.isSome_iff_ne_none.mpr hrev)
  simp [hunr] at this

namespace Later

variable {origin w : World}

theorem refl (h : Kept challenge origin.steps origin) :
    Later origin origin where
  steps := le_rfl
  families family hfam := ⟨family, hfam, rfl, id⟩
  grants := .refl _
  readings entry hent hsince := absurd (h.readings entry hent).2.2 (Nat.not_lt.mpr hsince)
  logged entry hent hsince := absurd (h.logged entry hent) (Nat.not_lt.mpr hsince)

variable (h : Later origin w)

include h

theorem mint (digest : Nat) : Later origin (w.mint digest) := { h with }

theorem close (transaction : Nat) : Later origin (w.close transaction) :=
  { h with readings := fun entry hent => h.readings entry (mem_filter.mp hent).1 }

theorem commit (now : Nat) (hc : Evolves fresh w.db db') : Later origin (w.commit now db') :=
  { h with
    families := fun family hfam => by
      obtain ⟨family', hfam', hid, hkept⟩ := h.families family hfam
      obtain ⟨family'', hfam'', hid', hkept'⟩ := hc.families family' hfam'
      exact ⟨family'', hfam'', hid'.trans hid, hkept' ∘ hkept⟩
    grants := h.grants.trans hc.grants }

theorem note {since : Nat} {event : Event} (hrespects : origin.steps ≤ since →
    Respects origin.db event) : Later origin (w.note since event) :=
  { h with logged := forall_mem_cons.mpr ⟨hrespects, h.logged⟩ }

theorem unrevoked (hids : (w.db.families.map (·.id)).Nodup) {family : RefreshFamily}
    (hfam : family ∈ w.db.families) (hunr : family.revokedAt = none) :
    ∀ old ∈ origin.db.families, old.id = family.id → old.revokedAt = none := by
  intro old hold hid
  obtain ⟨kept, hkeptMem, hkeptId, hkept⟩ := h.families old hold
  obtain rfl := eq_of_key hids hkeptMem hfam (hkeptId.trans hid)
  by_contra hrev
  have := hkept (Option.isSome_iff_ne_none.mpr hrev)
  simp [hunr] at this

/-- **A move after `origin` uses nothing revoked there.** -/
theorem move {w' : World} (hkept : Kept challenge w.steps w)
    (hm : Move challenge w w') : Later origin w' := by
  cases hm with
  | ticked elapsed => exact { h with }
  | idle => exact h
  | read transaction =>
    exact { h with readings := forall_mem_cons.mpr ⟨fun _ => h.grants, h.readings⟩ }
  | committed hch _ => exact h.commit _ hch.evolves
  | reported hlive => exact h.note fun _ => h.grants.unrevoked hkept.sound.grantIds hlive
  | minted _ => exact h.mint _
  | @persisted input codeId db' _ _ hnew hdb =>
    subst hdb
    have hch : Change input.issuedAt _ w.db
        { w.db with codes := w.db.codes ++ [input.row codeId] } := .coded (input.row codeId) hnew
    have hnoted : Later origin ((w.mint input.codeDigest).note w.steps (.persisted input)) :=
      (h.mint _).note fun _ => trivial
    exact hnoted.commit _ hch.evolves
  | closed transaction _ => exact (h.mint _).close transaction
  | @refused _ now db' transaction _ _ hmk =>
    have hch : Change now none w.db db' := .marked hmk
    exact ((h.mint _).close transaction).commit _ hch.evolves
  | @exchanged transaction _ _ _ command _ _ db₁ db' _ _ _ _ hcon _ hstt =>
    have hcsd : Change command.now none w.db db₁ := .marked hcon.marked
    have hmk := ((h.mint command.refreshDigest).close transaction).commit command.now hcsd.evolves
    obtain rfl | ⟨issue, owner, hstarts, -, hiss⟩ := hstt
    · exact hmk.note fun _ => trivial
    have hch : Change command.now _ db₁ db' := .started hstarts hiss.le
    have hagain := hmk.commit command.now hch.evolves
    have hcmt : Later origin (((w.mint command.refreshDigest).close transaction).commit
        command.now db') := { hagain with }
    exact hcmt.note fun _ => trivial
  | @rotated transaction opening _ command token family grant db' _ _ _ hopg hrot _ =>
    obtain ⟨hfam, hfid⟩ := Db.findFamily_eq_some hrot.inFamily
    obtain ⟨-, -, hunr⟩ := RefreshToken.spent_eq_false hrot.unspent
    have hch : Change command.now _ w.db db' := .rotated hrot
    refine (((h.mint _).close transaction).commit _ hch.evolves).note fun hsince => ⟨?_, ?_⟩
    · exact hfid ▸ h.unrevoked hkept.sound.familyIds hfam hunr
    · exact (h.readings _ hopg hsince).unrevoked (hkept.readings _ hopg).1.grantIds hrot.live

end Later

/-! ## 6. Whole runs -/

section Runs

variable {challenge : Nat → Nat} {w w' : World} {action : Action}

theorem Kept.next (h : Kept challenge w.steps w) (hstep : w.next challenge action = some w') :
    Kept challenge w'.steps w' := by
  obtain ⟨w₁, hact, rfl⟩ := Option.map_eq_some_iff.mp hstep
  have hkept := h.move (World.act_move h.sound.tokenIds hact)
  exact { hkept with story := { hkept.story with } }

theorem sound_emptyDb : Sound emptyDb where
  grantIds := .nil
  codeDigests := .nil
  familyIds := .nil
  tokenIds := .nil
  tokenDigests := .nil
  familyOf := nofun
  grantOf := nofun
  chains _ := Chained.nil
  checked := ⟨nofun, nofun, nofun⟩

theorem kept_start : Kept challenge 0 (machine challenge).start where
  sound := sound_emptyDb
  story :=
    { tokensMinted := nofun
      codesMinted := nofun
      rotatedOnce := .nil
      rotatedSpent := nofun
      exchangedOnce := .nil
      exchangedSpent := nofun
      recorded := nofun
      bound := nofun
      issued := nofun }
  readings := nofun
  logged := nofun

theorem kept_of_reach (h : (machine challenge).Reach (machine challenge).start w) :
    Kept challenge w.steps w := by
  refine Machine.ReachIf.invariant (I := fun w => Kept challenge w.steps w) h kept_start ?_
  exact fun u action v hu _ hstep => hu.next hstep

theorem later_of_reach (hkept : Kept challenge w.steps w)
    (h : (machine challenge).Reach w w') : Later w w' := by
  have hboth : Kept challenge w'.steps w' ∧ Later w w' := by
    refine Machine.ReachIf.invariant (I := fun v => Kept challenge v.steps v ∧ Later w v) h
      ⟨hkept, .refl hkept⟩ ?_
    rintro u action v ⟨hu, hlat⟩ - hstep
    refine ⟨hu.next hstep, ?_⟩
    obtain ⟨u₁, hact, rfl⟩ := Option.map_eq_some_iff.mp hstep
    have hmoved := hlat.move hu (World.act_move hu.sound.tokenIds hact)
    exact { hmoved with steps := Nat.le_succ_of_le hlat.steps }
  exact hboth.2

/-- What the tables and the log of a world say about refresh families and codes. -/
structure Lawful (challenge : Nat → Nat) (w : World) : Prop where
  chained : ∀ family ∈ w.db.families, Chained (w.db.tokensOf family.id)
  oneLive : ∀ family ∈ w.db.families, ((w.db.tokensOf family.id).filter fun token =>
    token.consumedAt.isNone && token.revokedAt.isNone).length ≤ 1
  unexpired : ∀ family ∈ w.db.families, ∀ token ∈ w.db.tokensOf family.id,
    token.expiresAt ≤ family.expiresAt
  within : ∀ family ∈ w.db.families, ∃ grant ∈ w.db.grants, grant.id = family.grantId ∧
    family.grantedScopes ⊆ grant.grantedScopes ∧ family.resourceUri ∈ grant.resources
  rotatedOnce : (w.log.filterMap rotatedDigest).Nodup
  exchangedOnce : (w.log.filterMap exchangedDigest).Nodup
  bound : ∀ since command context, (since, .exchanged command context) ∈ w.log →
    ∃ input since', (since', .persisted input) ∈ w.log ∧ input.BoundTo challenge command
  issued : ∀ context ∈ w.log.filterMap contextOf, ∃ grant ∈ w.db.grants, context.Within grant

theorem Kept.lawful {bound : Nat} (h : Kept challenge bound w) : Lawful challenge w where
  chained family _ := h.sound.chains family.id
  oneLive family _ := (h.sound.chains family.id).live_le_one
  unexpired family hfam token htok := by
    obtain ⟨hmem, hid⟩ := mem_filter.mp htok
    obtain ⟨other, hoth, hotherId, -, hexps⟩ := h.sound.familyOf token hmem
    have hsame : other.id = family.id := hotherId.trans (of_decide_eq_true hid)
    obtain rfl := eq_of_key h.sound.familyIds hoth hfam hsame
    exact hexps
  within family hfam := by
    obtain ⟨grant, hgr, hid, -, hwi⟩ := h.sound.grantOf family hfam
    exact ⟨grant, hgr, hid, hwi⟩
  __ := h.story

end Runs

/-- A user consents, the code is exchanged and the refresh token rotated once. -/
def delivery : List Action :=
  [.enlist ⟨[1], [], [7], []⟩,
    .createGrant 10 ⟨1, [], none, 7, [5], [offlineAccess], 0, .aal1, [.password], 0⟩,
    .persistCode 20 ⟨100, 10, 7, 3, [5], [offlineAccess], 9, none, 0, 1000⟩,
    .readGrant 1, .exchange 1 30 40 ⟨100, 7, 3, 5, 9, 101, 5000, 0⟩,
    .readGrant 2, .rotate 2 41 ⟨101, 7, none, none, 102, 6000, 0⟩]

/-- The grant is revoked, and the client presents its last token. -/
def withdrawal : List Action :=
  [.revokeGrant 1 10 0, .readGrant 3, .rotate 3 42 ⟨102, 7, none, none, 103, 6000, 0⟩]

end Omnius.OAuth
