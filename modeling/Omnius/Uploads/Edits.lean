/-
# Uploads: what a transaction can do

Every transaction is a chain of EDITS of a few kinds: rows are postponed, revoked, fenced, released,
leased or refreshed, a row is inserted, the upload moves.  A rejection and the delete it schedules
are one edit, because no transaction separates them.  An invariant that each edit keeps is kept by
every transaction.
-/
import Omnius.Uploads.World

namespace Omnius.Uploads

open Omnius.Lib List

variable {old : Option Upload} {identity : Identity} {works' : List Work}

/-! ## 1. Edits -/

/-- Neither rejected, deleted nor available. -/
def Db.young (db : Db) : Bool :=
  db.upload.all fun upload =>
    decide (upload.state = .pendingUpload) || decide (upload.state = .quarantined)

def Db.state (db : Db) : Option UploadState := db.upload.map (·.state)

/-- What a transaction at the instant of `w` does to one row. -/
inductive RowEdit (config : ReconcilerConfig) (w : World) (old new : Work) : Prop
  | kept (h : new =
      { old with availableAt := new.availableAt, attemptCount := new.attemptCount })
  | revoked (hkind : old.kind ≠ .delete) (h : new = old.finish w.clock)
  | fenced (hkey : old.key = .published) (hkind : old.kind = .delete)
      (hlive : old.leaseLive w.clock = false) (h : new = old.finish w.clock)
  | released (token : Nat) (hheld : old.heldBy token = true) (hunfinished : old.unfinished = true)
      (hfinished : ∀ x ∈ w.workers, x.token = token → x.phase = .finished)
      (hran : old.kind = .delete → new.unfinished = true ∨
        ∃ x ∈ w.workers, x.token = token ∧ x.key = old.key ∧ x.kind = .delete ∧ x.ran = true)
      (h : new = { old with
        lease := none, availableAt := new.availableAt, completedAt := new.completedAt })
  | leased (token : Nat) (hfresh : ∀ x ∈ w.workers, x.token ≠ token)
      (hunfinished : old.unfinished = true) (hlive : old.leaseLive w.clock = false)
      (h : new = { old with
        lease := some ⟨token, w.clock + config.leaseDuration⟩, attemptCount := new.attemptCount })
  | refreshed (work : LeasedWork) (hkind : old.kind = .scan)
      (hholds : work.holds w.clock old = true)
      (h : new = { old with lease := some ⟨work.token, w.clock + config.leaseDuration⟩ })

/-- An edit in the world `w`; a publication needs what `P` says. -/
inductive Edit (config : ReconcilerConfig) (w : World) (P : Prop) (db : Db) : Db → Prop
  | rows (f : Work → Work) (hf : ∀ row ∈ db.works, RowEdit config w row (f row)) :
      Edit config w P db { db with works := db.works.map f }
  | insert (referenced : Bool) (key : ObjectKey) (kind : WorkKind) (ready : Bool)
      (hstaging : kind = .delete → key = .staging → db.young = false)
      (hpublished : kind = .delete → key = .published → db.state ≠ some .available)
      (hscan : kind = .scan → ∃ run ∈ w.runs, run.kind = .verify) :
      Edit config w P db
        { db with works := insertWork referenced key kind ready w.clock db.works }
  | moved (upload : Upload) (hold : db.young = true)
      (hnew : upload.state = .pendingUpload ∨ upload.state = .quarantined)
      (hverified : upload.verifiedAt = db.upload.bind (·.verifiedAt)) :
      Edit config w P db { db with upload := some upload }
  | verified (upload : Upload) (hupload : db.upload = some upload)
      (hstate : upload.state = .quarantined) (hrun : ∃ run ∈ w.runs, run.kind = .verify)
      (detectedMime : Option DeclaredMime) :
      Edit config w P db
        { db with upload := some { upload with detectedMime, verifiedAt := some w.clock } }
  | published (upload : Upload) (hupload : db.upload = some upload)
      (hstate : upload.state = .quarantined)
      (hclosed : ∀ row ∈ db.works, row.key = .published → row.kind = .delete →
        row.unfinished = false)
      (hrun : ∃ run ∈ w.runs, run.kind = .scan) (hP : P) :
      Edit config w P db { db with upload := some { upload with state := .available } }
  | deleted (upload : Upload) (hupload : db.upload = some upload)
      (hstate : upload.state = .rejected ∨ upload.state = .deleted) :
      Edit config w P db { db with upload := some { upload with state := .deleted } }
  | rejected (upload : Upload) (hupload : db.upload = some upload)
      (hstate : upload.state = .pendingUpload ∨ upload.state = .quarantined)
      (reason : RejectionReason) :
      Edit config w P db
        ⟨some (upload.reject reason), insertWork true .staging .delete true w.clock db.works⟩

/-- What a whole transaction does. -/
def Edits (config : ReconcilerConfig) (w : World) (P : Prop) : Db → Db → Prop :=
  Relation.ReflTransGen (Edit config w P)

variable {config : ReconcilerConfig}

theorem RowEdit.same {w : World} {old new : Work}
    (h : RowEdit config w old new) : new.key = old.key ∧ new.kind = old.kind := by
  cases h with
  | kept h | revoked _ h | fenced _ _ _ h | released _ _ _ _ _ h | leased _ _ _ _ h
  | refreshed _ _ _ h => rw [h]; exact ⟨rfl, rfl⟩

/-- **Transactions keep what every edit keeps.** -/
theorem Edits.invariant {w : World} {P : Prop} {I : Db → Prop}
    {db db' : Db} (h : Edits config w P db db') (hdb : I db)
    (hedit : ∀ a b, I a → Edit config w P a b → I b) : I db' := by
  induction h with
  | refl => exact hdb
  | tail _ hstep ih => exact hedit _ _ ih hstep

/-- An unfinished row of the key and kind is there after an insertion: an old one, or a new one that
nobody holds. -/
theorem exists_mem_insertWork (referenced : Bool) (key : ObjectKey) (kind : WorkKind)
    (ready : Bool) (now : Nat) (works : List Work) :
    ∃ row ∈ insertWork referenced key kind ready now works, row.key = key ∧ row.kind = kind ∧
      row.unfinished = true ∧ (row ∈ works ∨ row.lease = none) := by
  unfold insertWork
  split
  · next h =>
    obtain ⟨row, hrow, hmt⟩ := any_eq_true.mp h
    simp only [Bool.and_eq_true, decide_eq_true_eq] at hmt
    exact ⟨row, hrow, hmt.1.1, hmt.1.2, hmt.2, .inl hrow⟩
  · exact ⟨_, mem_append_right _ mem_cons_self, rfl, rfl, rfl, .inr rfl⟩

variable {referenced ready : Bool} {key : ObjectKey} {kind : WorkKind} {now : Nat} {row : Work}

/-- Insertions keep the rows that were there and add at most one, which nobody holds. -/
theorem mem_insertWork {works : List Work}
    (h : row ∈ insertWork referenced key kind ready now works) :
    row ∈ works ∨ (row.key = key ∧ row.kind = kind ∧ row.lease = none) := by
  unfold insertWork at h
  split at h
  · exact .inl h
  · obtain h | h := mem_append.mp h
    · exact .inl h
    · rw [mem_singleton.mp h]
      exact .inr ⟨rfl, rfl, rfl⟩

theorem mem_insertWork_of_mem {works : List Work} (h : row ∈ works) :
    row ∈ insertWork referenced key kind ready now works := by
  unfold insertWork
  split
  · exact h
  · exact mem_append_left _ h

/-! ## 2. The transactions of the workflow -/

section Transactions

variable {config : ReconcilerConfig} {w : World} {P : Prop} {db db' : Db} {change : Work → Work}

theorem Edits.patched {condition : Work → Bool}
    (h : ∀ row ∈ db.works, condition row = true → RowEdit config w row (change row)) :
    Edits config w P db { db with works := db.works.map (Rows.patch condition change) } := by
  refine .single (.rows _ fun row hrow => ?_)
  unfold Rows.patch
  split
  · next hsel => exact h row hrow hsel
  · exact .kept rfl

theorem Edits.keep (change : Work → Work) (condition : Work → Bool)
    (h : ∀ row, ∃ availableAt attemptCount, change row = { row with availableAt, attemptCount }) :
    Edits config w P db { db with works := db.works.map (Rows.patch condition change) } := by
  refine .patched fun row _ _ => .kept ?_
  obtain ⟨availableAt, attemptCount, hch⟩ := h row
  rw [hch]

theorem Edits.renew (now notBefore : Nat) (condition : Work → Bool) :
    Edits config w P db
      { db with works := db.works.map (Rows.patch condition (Work.renew now notBefore)) } :=
  .keep _ _ fun _ => ⟨_, _, rfl⟩

theorem Edits.postpone (now notBefore : Nat) (condition : Work → Bool) :
    Edits config w P db
      { db with works := db.works.map (Rows.patch condition (Work.postpone now notBefore)) } :=
  .keep _ _ fun _ => ⟨_, _, rfl⟩

theorem Edits.revoke (condition : Work → Bool) (h : ∀ row, condition row = true →
    row.kind ≠ .delete) :
    Edits config w P db { db with works := revokeWork condition w.clock db.works } :=
  .patched fun row _ hrow => .revoked (h row ((Bool.and_eq_true _ _).mp hrow).1) rfl

theorem ensureReferencedDeleteWork_edits (upload : Upload) (h : db.young = false) :
    Edits config w P db
      { db with works := ensureReferencedDeleteWork upload w.clock db.works } :=
  .head (.insert true .staging .delete true (fun _ _ => h) (nomatch ·, ·) (nomatch ·))
    (Edits.renew _ _ _)

theorem ensureOrphanDeleteWork_edits (key : ObjectKey) (hstg : key = .staging →
    db.young = false) (hpub : key = .published → db.state ≠ some .available) :
    Edits config w P db { db with works := ensureOrphanDeleteWork key w.clock db.works } :=
  .head (.insert false key .delete true (fun _ => hstg) (fun _ => hpub) (nomatch ·))
    (Edits.renew _ _ _)

variable {upload : Upload} {works : List Work}

theorem rejectExpiredPending_edits (hst : upload.state = .pendingUpload) :
    Edits config w P ⟨some upload, works⟩ (rejectExpiredPending upload works w.clock) := by
  have hrvk : Edits config w P ⟨some upload, works⟩ _ :=
    .revoke (fun work => decide (work.kind = .verify)) fun row hrow => by
      rw [of_decide_eq_true hrow]
      decide
  exact (hrvk.tail (.rejected upload rfl (.inl hst) .pendingExpired)).trans (Edits.renew _ _ _)

theorem expirePending_edits : Edits config w P db (expirePending db w.clock) := by
  rcases db with ⟨_ | upload, works⟩
  · exact .refl
  · simp only [expirePending]
    split
    · next h => exact rejectExpiredPending_edits (of_decide_eq_true ((Bool.and_eq_true _ _).mp h).1)
    · exact .refl

theorem young_of_state (hst : upload.state = .pendingUpload ∨ upload.state = .quarantined) :
    (⟨some upload, works⟩ : Db).young = true := by simpa [Db.young] using hst

variable {ttl : Nat}

theorem initiate_edits {draft : Identity} (h : initiate identity draft ttl db w.clock = .ok db') :
    Edits config w P db db' := by
  have hdormant (db : Db) : Edits config w P db
      { db with works := insertWork true .staging .verify false w.clock db.works } :=
    .single (.insert true .staging .verify false (nomatch ·, ·) (nomatch ·, ·) (nomatch ·))
  rcases db with ⟨_ | upload, works⟩
  · cases h
    exact .head (.moved _ rfl (.inl rfl) rfl) (hdormant _)
  simp only [initiate] at h
  split_ifs at h with hdraft hst hexp
  · cases h
    exact .refl
  · cases h
    exact rejectExpiredPending_edits (not_not.mp hst)
  cases h
  have hst := not_not.mp hst
  have hmoved : Edits config w P ⟨some upload, works⟩ ⟨some { upload with
      pendingExpiresAt := max upload.pendingExpiresAt (w.clock + ttl) }, works⟩ :=
    .single (.moved _ (young_of_state (.inl hst)) (.inl hst) rfl)
  exact hmoved.trans (hdormant _)

theorem persistDirectCredentialExpiry_edits {lifetime : Nat} {persisted : Bool}
    (h : persistDirectCredentialExpiry lifetime ttl db w.clock = (persisted, db')) :
    Edits config w P db db' := by
  rcases db with ⟨_ | upload, works⟩
  · cases h
    exact .refl
  simp only [persistDirectCredentialExpiry] at h
  split at h
  · next hlive =>
    cases h
    exact .single (.moved _ (young_of_state (.inl hlive.1)) (.inl hlive.1) rfl)
  · cases h
    exact .refl

theorem fenceProxiedWrite_edits {disposition : PostWriteDisposition}
    (h : fenceProxiedWrite db w.clock = .ok (disposition, db')) : Edits config w P db db' := by
  rcases db with ⟨_ | upload, works⟩
  · cases h
  have hold (hst : upload.state ≠ .pendingUpload ∧ upload.state ≠ .quarantined) :
      (⟨some upload, works⟩ : Db).young = false := by simpa [Db.young] using hst
  cases hst : upload.state with simp only [fenceProxiedWrite, hst] at h
  | pendingUpload =>
    split at h
    · cases h
      exact rejectExpiredPending_edits hst
    · cases h
      exact .refl
  | quarantined =>
    cases h
    exact .refl
  | available =>
    cases h
    exact ensureOrphanDeleteWork_edits .staging (fun _ => hold (by simp [hst])) (nomatch ·)
  | rejected | deleted =>
    cases h
    exact ensureReferencedDeleteWork_edits upload (hold (by simp [hst]))

theorem activateVerification_edits (h : activateVerification db w.clock = .ok db') :
    Edits config w P db db' := by
  rcases db with ⟨_ | upload, works⟩
  · cases h
  have hactivate (upload' : Upload) : Edits config w P ⟨some upload', works⟩
      ⟨some upload', activateVerify upload w.clock works⟩ := .keep _ _ fun _ => ⟨_, _, rfl⟩
  cases hst : upload.state with simp only [activateVerification, hst] at h
  | pendingUpload =>
    split at h
    · cases h
      exact rejectExpiredPending_edits hst
    cases h
    have hmoved : Edits config w P ⟨some upload, works⟩
        ⟨some { upload with state := .quarantined }, works⟩ :=
      .single (.moved _ (young_of_state (.inl hst)) (.inr rfl) rfl)
    exact hmoved.trans (hactivate _)
  | quarantined =>
    cases h
    exact hactivate upload
  | available | rejected | deleted =>
    cases h
    exact .refl

variable {reason : RejectionReason}

theorem rejectPending_edits
    (h : rejectPending reason db w.clock = .ok db') : Edits config w P db db' := by
  have hrvk (upload : Option Upload) (works : List Work) : Edits config w P ⟨upload, works⟩
      ⟨upload, revokeWork (fun work => decide (work.kind = .verify) && work.lease.isNone) w.clock
        works⟩ := by
    refine .revoke _ fun row hrow => ?_
    rw [of_decide_eq_true ((Bool.and_eq_true _ _).mp hrow).1]
    decide
  rcases db with ⟨_ | upload, works⟩
  · cases h
  simp only [rejectPending] at h
  by_cases hpen : upload.state = .pendingUpload
  · simp only [hpen, if_true, Upload.reject] at h
    cases h
    have hreject : Edits config w P ⟨some upload, works⟩ _ :=
      .single (.rejected upload rfl (.inl hpen) reason)
    exact (hreject.trans (Edits.postpone _ _ _)).trans (hrvk _ _)
  · simp only [hpen, if_false] at h
    split at h
    · next hrejected =>
      cases h
      have hold : (⟨some upload, works⟩ : Db).young = false := by simp [Db.young, hrejected]
      have hinsert : Edits config w P ⟨some upload, works⟩ _ :=
        .single (.insert true .staging .delete true (fun _ _ => hold) (nomatch ·, ·) (nomatch ·))
      exact (hinsert.trans (Edits.postpone _ _ _)).trans (hrvk _ _)
    · cases h
      exact .refl

theorem complete_edits {head : Option Nat} (h : complete identity head db w.clock = .ok db') :
    Edits config w P db db' := by
  unfold complete at h
  split at h
  · exact rejectPending_edits h
  · split at h
    · exact rejectPending_edits h
    · exact activateVerification_edits h

theorem abandon_edits (h : abandon db w.clock = .ok db') : Edits config w P db db' := by
  have hrvk (db : Db) : Edits config w P db
      { db with works := revokeWork (fun work => decide (work.kind ≠ .delete)) w.clock db.works } :=
    .revoke _ fun _ hrow => of_decide_eq_true hrow
  have horphan (upload : Upload) (works : List Work) (notBefore : Nat) (condition : Work → Bool)
      (hst : upload.state ≠ .available) : Edits config w P ⟨some upload, works⟩
      ⟨some upload, (ensureOrphanDeleteWork .published w.clock works).map
        (Rows.patch condition (Work.postpone notBefore notBefore))⟩ :=
    (ensureOrphanDeleteWork_edits .published (nomatch ·) fun _ => by
      simpa [Db.state] using hst).trans (Edits.postpone _ _ _)
  rcases db with ⟨_ | upload, works⟩
  · cases h
  -- The source inserts under a rejected row; the rejection's own insertion is the same one.
  have hyoung (hst : upload.state = .pendingUpload ∨ upload.state = .quarantined) :
      Edits config w P ⟨some upload, works⟩ ⟨some (upload.reject .abandoned),
        scheduleAbandonedCleanup (upload.reject .abandoned) works w.clock⟩ :=
    (((hrvk _).tail (.rejected upload rfl hst .abandoned)).trans (Edits.renew _ _ _)).trans
      (horphan _ _ _ _ (nomatch ·))
  have hold (hyoung : (⟨some upload, works⟩ : Db).young = false)
      (hst : upload.state ≠ .available) : Edits config w P ⟨some upload, works⟩
        ⟨some upload, scheduleAbandonedCleanup upload works w.clock⟩ :=
    ((hrvk _).trans (ensureReferencedDeleteWork_edits upload hyoung)).trans (horphan _ _ _ _ hst)
  cases hst : upload.state with simp only [abandon, hst] at h
  | available => cases h
  | pendingUpload | quarantined =>
    cases h
    exact hyoung (by simp [hst])
  | rejected | deleted =>
    split at h
    · cases h
      exact hold (by simp [Db.young, hst]) (by simp [hst])
    · cases h
      exact .refl

theorem scheduleOrphanDelete_edits (key : ObjectKey) :
    Edits config w P db (scheduleOrphanDelete key db w.clock) := by
  rcases db with ⟨_ | upload, works⟩
  · exact .refl
  have hinsert (hstg : key = .staging → upload.state = .available ∨ upload.state = .deleted)
      (hpub : key = .published → upload.state ≠ .available) :
      Edits config w P ⟨some upload, works⟩
        ⟨some upload, insertWork false key .delete true w.clock works⟩ := by
    refine .single (.insert false key .delete true (fun _ hkey => ?_) (fun _ hkey => ?_)
      (nomatch ·))
    · obtain hst | hst := hstg hkey <;> simp [Db.young, hst]
    · simpa [Db.state] using hpub hkey
  simp only [scheduleOrphanDelete]
  split
  · next h =>
    simp only [Upload.pendingExpired, Bool.and_eq_true, decide_eq_true_eq] at h
    exact rejectExpiredPending_edits h.2.1
  · cases key <;> cases hst : upload.state <;>
      first | exact .refl | exact hinsert (by simp [hst]) (by simp [hst])

/-! ## 3. The transactions of the reconciler -/

theorem claim_edits {id token : Nat} (hfr : ∀ x ∈ w.workers, x.token ≠ token)
    {claimed : Option LeasedWork} (h : claim config id token db w.clock = (claimed, db')) :
    Edits config w P db db' := by
  have hcld : db' = (claim config id token db w.clock).2 := by rw [h]
  rw [hcld]
  unfold claim
  simp only []
  split
  · exact expirePending_edits
  refine expirePending_edits.trans (Edits.patched fun row _ hready => ?_)
  simp only [Work.claimable, Bool.and_eq_true, Bool.not_eq_true'] at hready
  exact .leased token hfr hready.2.1.1.1 hready.2.2 rfl

variable {now : Nat} {work : LeasedWork}

theorem LeasedWork.holds_iff {row : Work} :
    work.holds now row = true ↔ row.id = work.id ∧ row.heldBy work.token = true ∧
      row.kind = work.kind ∧ row.key = work.key ∧ row.unfinished = true ∧
      row.leaseLive now = true := by
  simp [LeasedWork.holds, and_assoc]

theorem LeasedWork.update_eq_ok
    (h : work.update change works now = .ok works') : (∃ row ∈ works, work.holds now row = true) ∧
      works' = works.map (Rows.patch (work.holds now) change) := by
  unfold LeasedWork.update at h
  split at h
  · next hany =>
    cases h
    exact ⟨any_eq_true.mp hany, rfl⟩
  · cases h

theorem beginPublication_edits
    (h : beginPublication config work db w.clock = .ok db') : Edits config w P db db' := by
  obtain ⟨hkind, h⟩ := check_eq_ok.mp h
  obtain ⟨works', hupd, ⟨⟩⟩ := bind_eq_ok.mp h
  rw [(LeasedWork.update_eq_ok hupd).2]
  simp only [deny_eq_ok, decide_eq_false_iff_not, not_not] at hkind
  exact .patched fun row _ hhd =>
    .refreshed work ((LeasedWork.holds_iff.mp hhd).2.2.1.trans hkind) hhd rfl

/-- A fence that lets a publication pass saw no live delete, and leaves none unfinished. -/
theorem fencePublishedDeletes_edits {startedAt : Nat}
    (h : fencePublishedDeletes startedAt works w.clock = .ok works') :
    Edits config w P ⟨old, works⟩ ⟨old, works'⟩ ∧
      ∀ row ∈ works', row.key = .published → row.kind = .delete → row.unfinished = false := by
  unfold fencePublishedDeletes at h
  simp only [] at h
  split at h
  · cases h
  rename_i hfe
  cases h
  simp only [Bool.not_eq_true, any_eq_false, Bool.and_eq_true, Bool.or_eq_true, not_and,
    not_or, decide_eq_true_eq] at hfe
  refine ⟨.patched fun row hrow hrvk => ?_, fun row' hrow' hkey hkind => ?_⟩
  · simp only [Bool.and_eq_true, decide_eq_true_eq] at hrvk
    exact .fenced hrvk.1.1 hrvk.1.2 ((hfe row hrow hrvk.1).2 hrvk.2) rfl
  · obtain ⟨row, hrow, rfl⟩ := mem_map.mp hrow'
    unfold Rows.patch at hkey hkind ⊢
    split
    · rfl
    rename_i hrvk
    rw [if_neg hrvk] at hkey hkind
    simpa [hkey, hkind] using hrvk

section Finalization

variable {work : LeasedWork}
  (hfin : ∀ x ∈ w.workers, x.token = work.token → x.phase = .finished)

include hfin

/-- The holder of a row gives it up; a delete is finished by a worker whose delete took effect. -/
theorem Edits.release (hch : ∀ row, ∃ availableAt completedAt,
      change row = { row with lease := none, availableAt, completedAt })
    (hran : ∀ row, row.kind = work.kind → row.key = work.key → row.unfinished = true →
      row.kind = .delete → (change row).unfinished = true ∨
        ∃ x ∈ w.workers, x.token = work.token ∧ x.key = row.key ∧ x.kind = .delete ∧ x.ran = true)
    (h : work.update change works w.clock = .ok works') :
    Edits config w P ⟨old, works⟩ ⟨old, works'⟩ := by
  rw [(LeasedWork.update_eq_ok h).2]
  refine .patched fun row _ hhd => ?_
  obtain ⟨-, hheld, hkind, hkey, hunf, -⟩ := LeasedWork.holds_iff.mp hhd
  obtain ⟨availableAt, completedAt, heq⟩ := hch row
  exact .released work.token hheld hunf hfin (hran row hkind hkey hunf) (by rw [heq])

theorem Edits.finish (hran : work.kind = .delete →
      ∃ x ∈ w.workers, x.token = work.token ∧ x.key = work.key ∧ x.kind = .delete ∧ x.ran = true)
    (h : work.update (Work.finish w.clock) works w.clock = .ok works') :
    Edits config w P ⟨old, works⟩ ⟨old, works'⟩ :=
  .release hfin (fun _ => ⟨_, _, rfl⟩)
    (fun _ hsame hkey _ hkind => .inr (hkey ▸ hran (hsame.symm.trans hkind))) h

theorem retry_edits (h : retry config work db w.clock = .ok db') : Edits config w P db db' := by
  obtain ⟨works', hupd, ⟨⟩⟩ := bind_eq_ok.mp h
  exact .release hfin (fun _ => ⟨_, _, rfl⟩) (fun _ _ _ hunf _ => .inl hunf) hupd

theorem completeDelete_edits (hran : work.kind = .delete →
      ∃ x ∈ w.workers, x.token = work.token ∧ x.key = work.key ∧ x.kind = .delete ∧ x.ran = true)
    (h : completeDelete work db w.clock = .ok db') : Edits config w P db db' := by
  obtain ⟨-, h⟩ := check_eq_ok.mp h
  obtain ⟨works', hupd, h⟩ := bind_eq_ok.mp h
  obtain ⟨upload', hdld, ⟨⟩⟩ := bind_eq_ok.mp h
  refine (Edits.finish hfin hran hupd).trans ?_
  unfold markDeleted at hdld
  split at hdld
  · cases hdld
    exact .refl
  split at hdld
  · cases hdld
  rename_i upload hup
  split at hdld
  · next hst =>
    cases hdld
    exact .single (.deleted upload hup hst)
  · cases hdld

theorem rejectLeased_edits
    (h : rejectLeased reason work db w.clock = .ok db') : Edits config w P db db' := by
  obtain ⟨works', hupd, h⟩ := bind_eq_ok.mp h
  rcases db with ⟨_ | upload, works⟩
  · cases h
  obtain ⟨hden, ⟨⟩⟩ := check_eq_ok.mp h
  simp only [deny_eq_ok, Bool.or_eq_false_iff, decide_eq_false_iff_not, not_not] at hden
  exact (Edits.finish hfin (absurd · hden.1) hupd).tail (.rejected upload rfl (.inr hden.2) reason)

theorem completeVerification_edits (hrun : ∃ run ∈ w.runs, run.kind = .verify)
    (h : completeVerification identity work db w.clock = .ok db') : Edits config w P db db' := by
  obtain ⟨works', hupd, h⟩ := bind_eq_ok.mp h
  rcases db with ⟨_ | upload, works⟩
  · cases h
  obtain ⟨hden, ⟨⟩⟩ := check_eq_ok.mp h
  simp only [deny_eq_ok, Bool.or_eq_false_iff, decide_eq_false_iff_not, not_not] at hden
  have hverified : Edits config w P ⟨some upload, works'⟩ ⟨some { upload with
      detectedMime := some identity.declaredMime, verifiedAt := some w.clock }, works'⟩ :=
    .single (.verified upload rfl hden.2 hrun _)
  exact ((Edits.finish hfin (by simp [hden.1]) hupd).trans hverified).tail
    (.insert true .staging .scan true (by simp) (by simp) fun _ => hrun)

theorem completeScanClean_edits {startedAt : Nat} (hrun : ∃ run ∈ w.runs, run.kind = .scan) (hP : P)
    (h : completeScanClean identity startedAt work db w.clock = .ok db') :
    Edits config w P db db' := by
  obtain ⟨finished, hupd, h⟩ := bind_eq_ok.mp h
  rcases db with ⟨_ | upload, works⟩
  · cases h
  obtain ⟨hden, h⟩ := check_eq_ok.mp h
  obtain ⟨works', hfe, h⟩ := bind_eq_ok.mp h
  obtain ⟨-, ⟨⟩⟩ := check_eq_ok.mp h
  simp only [deny_eq_ok, Bool.or_eq_false_iff, decide_eq_false_iff_not, not_not] at hden
  obtain ⟨hfenced, hcl⟩ := fencePublishedDeletes_edits hfe
  have hpublish : Edits config w P ⟨some upload, works'⟩
      ⟨some { upload with state := .available }, works'⟩ :=
    .single (.published upload rfl hden.2 hcl hrun hP)
  exact ((Edits.finish hfin (by simp [hden.1]) hupd).trans (hfenced.trans hpublish)).trans
    (ensureOrphanDeleteWork_edits .staging (fun _ => rfl) (by simp))

end Finalization

end Transactions

end Omnius.Uploads
