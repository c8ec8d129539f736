/-
# Uploads: published objects

A delete of the publication key and a publication may be under way at once.  The fence of a
finalization refuses when such a delete was COMPLETED since the publication began, or is still
LEASED; a delete that took effect and whose lease has run out unfinalized it cannot see.

Whenever every delete that followed a copy can be seen at the finalization, the object of an
available upload stays where it was published.
-/
import Omnius.Uploads.Moves

namespace Omnius.Uploads

open Omnius.Lib List

/-! ## 1. Timing -/

/-- Every effect keeps to the work timeout. -/
def Punctual (config : ReconcilerConfig) (w : World) : Action → Bool
  | .read token _ | .copy token | .delete token =>
    decide (∀ x ∈ w.workers, x.token = token → w.clock ≤ x.grantedAt + config.workTimeout)
  | _ => true

/-- When a copy that a delete followed is finalized, a delete of the key has been completed since
the publication began or is still leased. -/
def DeletesSeen (w : World) : Action → Bool
  | .finalize token => w.workers.all fun x => match x.phase with
    | .ended (.completeScanClean startedAt) =>
      decide (x.token ≠ token) || !x.overtaken || w.db.works.any fun row =>
        decide (row.key = .published) && decide (row.kind = .delete)
          && (row.completedAt.any (fun at_ => decide (startedAt ≤ at_))
            || (row.unfinished && row.leaseLive w.clock))
    | _ => true
  | _ => true

/-! ## 2. What the rows keep -/

/-- The unfinished delete of a worker whose lease is running. -/
structure Holds (config : ReconcilerConfig) (x : Worker) (row : Work) : Prop where
  key : row.key = x.key
  kind : row.kind = .delete
  unfinished : row.unfinished = true
  lease : row.lease = some ⟨x.token, x.grantedAt + config.leaseDuration⟩

/-- What publication keeps, of the rows.  `P` is what an available upload comes with. -/
structure Fenced (config : ReconcilerConfig) (workers : List Worker) (now : Nat) (P : Prop)
    (db : Db) : Prop where
  held : ∀ x ∈ workers, x.kind = .delete → x.phase = .claimed →
    now < x.grantedAt + config.leaseDuration → ∃ row ∈ db.works, Holds config x row
  closed : db.state = some .available → ∀ row ∈ db.works, row.key = .published →
    row.kind = .delete → row.unfinished = false
  stored : db.state = some .available → P

/-- What publication keeps: of the rows, and of the copies that no delete followed. -/
structure Published (config : ReconcilerConfig) (w : World) : Prop where
  fenced : Fenced config w.workers w.clock (w.published.isSome = true) w.db
  copied : ∀ x ∈ w.workers, x.kind = .scan → x.ran = true → x.overtaken = false →
    w.published.isSome = true

variable {identity : Identity} {config : ReconcilerConfig} {P : Prop} {w w' : World}
  {a : Action}

variable {x : Worker} {old new : Work} {db db' : Db} {now : Nat}

theorem RowEdit.holds (hx : x ∈ w.workers) (hph : x.phase = .claimed)
    (hrng : w.clock < x.grantedAt + config.leaseDuration) (h : RowEdit config w old new)
    (hhd : Holds config x old) : Holds config x new := by
  have hlive : old.leaseLive w.clock = true := by simpa [Work.leaseLive, hhd.lease] using hrng
  cases h with
  | kept h =>
    rw [h]
    exact { hhd with }
  | revoked hkind => exact absurd hhd.kind hkind
  | fenced _ _ hexp | leased _ _ _ hexp =>
    rw [hlive] at hexp
    cases hexp
  | released token hheld _ hfin =>
    simp only [Work.heldBy, hhd.lease, Option.any_some, decide_eq_true_eq] at hheld
    exact absurd (hph.symm.trans (hfin x hx hheld)) nofun
  | refreshed _ hkind => exact absurd (hkind.symm.trans hhd.kind) nofun

theorem RowEdit.closed (h : RowEdit config w old new) (hkind : old.kind = .delete)
    (hcl : old.unfinished = false) : new.unfinished = false := by
  cases h with
  | kept h =>
    rw [h]
    exact hcl
  | revoked _ h | fenced _ _ _ h =>
    rw [h]
    rfl
  | released _ _ hunf | leased _ _ hunf =>
    rw [hcl] at hunf
    cases hunf
  | refreshed _ hscan => exact absurd (hscan.symm.trans hkind) nofun

theorem Fenced.edit {a b : Db} (h : Fenced config w.workers w.clock P a)
    (hedit : Edit config w P a b) : Fenced config w.workers w.clock P b := by
  cases hedit with
  | rows f hf =>
    refine ⟨fun x hx hkind hph hrng => ?_, fun hav row' hrow' hkey hkind => ?_, h.stored⟩
    · obtain ⟨row, hrow, hhd⟩ := h.held x hx hkind hph hrng
      exact ⟨f row, mem_map_of_mem hrow, (hf row hrow).holds hx hph hrng hhd⟩
    · obtain ⟨row, hrow, rfl⟩ := mem_map.mp hrow'
      rw [(hf row hrow).same.1] at hkey
      rw [(hf row hrow).same.2] at hkind
      exact (hf row hrow).closed hkind (h.closed hav row hrow hkey hkind)
  | insert referenced key kind ready _ hpub =>
    refine ⟨fun x hx hkind hph hrng => ?_, fun hav row hrow hkey hkind => ?_, h.stored⟩
    · obtain ⟨row, hrow, hhd⟩ := h.held x hx hkind hph hrng
      exact ⟨row, mem_insertWork_of_mem hrow, hhd⟩
    · obtain hrow | ⟨rfl, rfl, -⟩ := mem_insertWork hrow
      · exact h.closed hav row hrow hkey hkind
      · exact absurd hav (hpub hkind hkey)
  | moved upload _ hst | verified upload _ hst =>
    have hnot : some upload.state ≠ some .available := fun h => by simp_all
    exact ⟨h.held, fun h => absurd h hnot, fun h => absurd h hnot⟩
  | published upload _ _ hcl _ hP => exact ⟨h.held, fun _ => hcl, fun _ => hP⟩
  | deleted => exact ⟨h.held, nofun, nofun⟩
  | rejected upload =>
    refine ⟨fun x hx hkind hph hrng => ?_, nofun, nofun⟩
    obtain ⟨row, hrow, hhd⟩ := h.held x hx hkind hph hrng
    exact ⟨row, mem_insertWork_of_mem hrow, hhd⟩

theorem Fenced.edits (h : Fenced config w.workers w.clock P db) (heds : Edits config w P db db') :
    Fenced config w.workers w.clock P db' :=
  heds.invariant h fun _ _ h hedit => h.edit hedit

theorem Fenced.setWorker (h : Fenced config w.workers now P db)
    (hidle : x.kind = .delete → x.phase ≠ .claimed) :
    Fenced config (w.setWorker x).workers now P db :=
  { h with held := World.forall_setWorker (fun hkind hph => absurd hph (hidle hkind)) h.held }

/-- A publication that commits has seen every delete of its key. -/
theorem completeScanClean_unseen {startedAt : Nat} {work : LeasedWork}
    (h : completeScanClean identity startedAt work db now = .ok db') {row : Work}
    (hrow : row ∈ db.works) (hkey : row.key = .published) (hkind : row.kind = .delete) :
    (row.completedAt.any (fun at_ => decide (startedAt ≤ at_))
      || (row.unfinished && row.leaseLive now)) = false := by
  obtain ⟨finished, hupd, h⟩ := bind_eq_ok.mp h
  rcases db with ⟨_ | upload, works⟩
  · cases h
  obtain ⟨hden, h⟩ := check_eq_ok.mp h
  obtain ⟨works', hfe, -⟩ := bind_eq_ok.mp h
  simp only [deny_eq_ok, Bool.or_eq_false_iff, decide_eq_false_iff_not, not_not] at hden
  -- The scan finishes its own row only.
  have hmem : row ∈ finished := by
    rw [(LeasedWork.update_eq_ok hupd).2]
    refine mem_map.mpr ⟨row, hrow, if_neg fun hhd => ?_⟩
    have hscan := (LeasedWork.holds_iff.mp hhd).2.2.1.trans hden.1
    cases hscan.symm.trans hkind
  unfold fencePublishedDeletes at hfe
  simp only [] at hfe
  split at hfe
  · cases hfe
  rename_i hany
  have hunseen := any_eq_false.mp (Bool.eq_false_iff.mpr hany) row hmem
  simpa [hkey, hkind] using hunseen

/-! ## 3. Publication -/

/-- A move keeps the rows as they should be, if `P` is there whenever one publishes. -/
theorem Fenced.move (h : Fenced config w.workers w.clock P w.db) (hbas : Basic identity w)
    (hP : ∀ x ∈ w.workers, a = .finalize x.token → ∀ startedAt,
      x.phase = .ended (.completeScanClean startedAt) → ∀ db,
      completeScanClean identity startedAt x.toLeasedWork w.db w.clock = .ok db → P)
    (hmove : Move identity config P w a w') : Fenced config w'.workers w'.clock P w'.db := by
  cases hmove with
  | tick elapsed =>
    refine { h with held := fun x hx hkind hph hrng => ?_ }
    exact h.held x hx hkind hph (Nat.lt_of_le_of_lt (Nat.le_add_right _ _) hrng)
  | commit db _ _ _ heds => exact h.edits heds
  | client => exact h
  | returned id _ disposition db hfe => exact h.edits (fenceProxiedWrite_edits hfe)
  | claimed x db heds _ _ hgranted _ _ hrow =>
    obtain ⟨hheld, hcl, hsto⟩ := h.edits heds
    refine ⟨forall_mem_append.mpr ⟨hheld, forall_mem_singleton.mpr ?_⟩, hcl, hsto⟩
    intro hkind _ _
    obtain ⟨row, hmem, hkey, hsame, hunf, hls⟩ := hrow
    exact ⟨row, hmem, hkey, hsame.trans hkind, hunf, hgranted ▸ hls⟩
  | stepped x x' hx hstep db heds =>
    obtain ⟨-, hkind, -⟩ := hstep.sound
    refine (h.edits heds).setWorker fun hdelete => ?_
    cases hstep with
    | begun hscan => exact absurd (hscan.symm.trans hdelete) nofun
    | idle phase hph =>
      rintro rfl
      cases hph
    | read _ hread => exact absurd (hkind.symm.trans hdelete) hread
  | copied x hx => exact Fenced.setWorker h fun _ => nofun
  | erased x _ hx _ hkind =>
    cases x.key with
    | staging => exact Fenced.setWorker h fun _ => nofun
    | published =>
      refine { h with held := World.forall_setWorker (fun _ => nofun) (forall_mem_map.mpr ?_) }
      intro z hz hdelete hcld hrng
      obtain ⟨row, hrow, hhd⟩ := h.held z hz hdelete hcld hrng
      exact ⟨row, hrow, hhd.key, hhd.kind, hhd.unfinished, hhd.lease⟩
  | finalized x ha hx outcome hph db hfnl =>
    have hsto : ∀ startedAt, outcome = .completeScanClean startedAt → P := by
      rintro startedAt rfl
      exact hP x hx ha startedAt hph db hfnl
    have hfenced : Fenced config ({ w with runs := w.runs ++ x.run outcome w.clock }.setWorker
        { x with phase := .finished }).workers w.clock P w.db :=
      Fenced.setWorker (w := { w with runs := _ }) h (by simp)
    exact hfenced.edits (Worker.finalize_edits hbas hx hph hfnl hsto)

/-- A punctual delete of the publication key still holds its row, so the upload is not available. -/
theorem Fenced.unavailable (h : Fenced config w.workers w.clock P w.db)
    (hpunctual : Punctual config w (.delete x.token) = true) (hx : x ∈ w.workers)
    (hph : x.phase = .claimed) (hkind : x.kind = .delete) (hkey : x.key = .published) :
    w.db.state ≠ some .available := by
  intro hav
  have hclk : w.clock ≤ x.grantedAt + config.workTimeout := of_decide_eq_true hpunctual x hx rfl
  have hmargin := config.marginBounds.1
  have hls := config.leaseBounds.1
  obtain ⟨row, hrow, hhd⟩ := h.held x hx hkind hph (by omega)
  have hcl := h.closed hav row hrow (hhd.key.trans hkey) hhd.kind
  rw [hhd.unfinished] at hcl
  cases hcl

/-- Only a delete of its key takes a published object away, and none that is punctual takes that of
an available upload. -/
theorem Fenced.keeps_published (h : Fenced config w.workers w.clock P w.db)
    (hpunctual : Punctual config w a = true) (hmove : Move identity config P w a w')
    (hpub : w.published.isSome = true) (hav : w.db.state = some .available) :
    w'.published.isSome = true := by
  cases hmove with
  | tick | commit | client | returned | claimed | stepped | finalized => exact hpub
  | copied => rfl
  | erased x ha hx hph hkind =>
    subst ha
    cases hkey : x.key with
    | staging => exact hpub
    | published => exact absurd hav (h.unavailable hpunctual hx hph hkind hkey)

/-- The fence of a publication that commits saw every delete, so none followed its copy. -/
theorem Published.stands (h : Published config w) (hbas : Basic identity w) (hx : x ∈ w.workers)
    (hseen : DeletesSeen w (.finalize x.token) = true) {startedAt : Nat}
    (hph : x.phase = .ended (.completeScanClean startedAt)) {db : Db}
    (hfnl : completeScanClean identity startedAt x.toLeasedWork w.db w.clock = .ok db) :
    w.published.isSome = true := by
  have hsd := hbas.sound x hx
  simp only [Worker.Sound, hph] at hsd
  refine h.copied x hx hsd.1 hsd.2.2.1 (Bool.eq_false_iff.mpr fun hovt => ?_)
  have hseen := all_eq_true.mp hseen x hx
  simp only [hph, hovt, ne_eq, not_true, decide_false, Bool.not_true, Bool.or_false,
    Bool.false_or] at hseen
  obtain ⟨row, hrow, hseen⟩ := any_eq_true.mp hseen
  simp only [Bool.and_eq_true, decide_eq_true_eq] at hseen
  rw [completeScanClean_unseen hfnl hrow hseen.1.1 hseen.1.2] at hseen
  cases hseen.2

theorem Published.move (h : Published config w) (hbas : Basic identity w)
    (hpunctual : Punctual config w a = true) (hseen : DeletesSeen w a = true)
    (hmove : Move identity config (w.published.isSome = true) w a w') : Published config w' := by
  have hfenced := h.fenced.move hbas (fun x hx ha startedAt hph db hfnl =>
    h.stands hbas hx (ha ▸ hseen) hph hfnl) hmove
  cases hmove with
  | tick | commit | client | returned => exact ⟨hfenced, h.copied⟩
  | claimed x db _ _ _ _ hran =>
    refine ⟨hfenced, forall_mem_append.mpr ⟨h.copied, forall_mem_singleton.mpr ?_⟩⟩
    rw [hran]
    rintro _ ⟨⟩
  | stepped x x' hx hstep =>
    obtain ⟨-, hkind, -, hran, hovt, -⟩ := hstep.sound
    refine ⟨hfenced, World.forall_setWorker ?_ h.copied⟩
    rw [hkind, hran, hovt]
    exact h.copied x hx
  | copied x =>
    exact ⟨⟨hfenced.held, hfenced.closed, fun _ => rfl⟩, fun _ _ _ _ _ => rfl⟩
  | erased x ha hx hph hkind =>
    subst ha
    cases hkey : x.key with
    | staging =>
      rw [hkey] at hfenced
      exact ⟨hfenced, World.forall_setWorker
        (fun hscan => by cases hkind.symm.trans hscan) h.copied⟩
    | published =>
      rw [hkey] at hfenced
      have hgone := h.fenced.unavailable hpunctual hx hph hkind hkey
      exact ⟨⟨hfenced.held, hfenced.closed, fun h => absurd h hgone⟩, World.forall_setWorker
        (fun hscan => by cases hkind.symm.trans hscan)
        (forall_mem_map.mpr fun _ _ _ _ hkept => by cases hkept)⟩
  | finalized x _ hx => exact ⟨hfenced, World.forall_setWorker (h.copied x hx) h.copied⟩

/-- **An available upload keeps its published object.** -/
theorem available_keeps_object (identity : Identity) (config : ReconcilerConfig) {w : World}
    (h : (machine identity config).ReachIf
      (fun w a => Punctual config w a = true ∧ DeletesSeen w a = true)
      (machine identity config).start w) (havailable : w.db.state = some .available) :
    ∃ object, w.published = some object ∧ object.sha256 = identity.expectedSha256 := by
  obtain ⟨hbas, hpub⟩ := invariant_of_reach (I := Published config) h
    (by constructor <;> simp [machine]; constructor <;> simp [Db.state])
    fun u a v hbas hI hcondition hact =>
      hI.move hbas hcondition.1 hcondition.2 (World.act_move hbas hact)
  obtain ⟨object, hobj⟩ := Option.isSome_iff_exists.mp (hpub.fenced.stored havailable)
  have had := hbas.published object hobj
  simp only [Identity.admits, Bool.and_eq_true, decide_eq_true_eq] at had
  exact ⟨object, hobj, had.2⟩

/-- An upload is scanned, and the worker of the scan crashes after its copy. -/
def scannedRun : List Action :=
  [.initiate sampleRequest, .beginPut, .landPut 0 sampleObject, .fencePut 0, .beginComplete,
    .complete (some 5), .claim 0, .read 0 cleanScanner, .finalize 0, .claim 1, .begin_ 1,
    .read 1 cleanScanner, .copy 1]

/-- The orphan repair has the copy deleted; a second scan publishes the object again. -/
theorem available_keeps_object_scanned : ∃ u w object, sample.Reach sample.start u ∧
    u.published = none ∧ sample.Reach u w ∧
    w.db.state = some .available ∧ w.published = some object ∧ object.sha256 = 7 := by
  obtain ⟨u, w, hrun, hgone, hrun', hav⟩ : ∃ u w,
      sample.runIf (fun w a => Punctual sampleConfig w a = true ∧ DeletesSeen w a = true)
        sample.start (scannedRun ++ [.tick 60000000, .list .published, .repair .published,
          .claim 2, .delete 2]) = some u ∧ u.published = none ∧
      sample.runIf (fun w a => Punctual sampleConfig w a = true ∧ DeletesSeen w a = true)
        u [.finalize 2, .tick 1000000, .claim 1, .begin_ 3, .read 3 cleanScanner, .copy 3,
          .finalize 3] = some w ∧
      w.db.state = some .available := ⟨_, _, rfl, rfl, rfl, rfl⟩
  have hre := Machine.reachIf_of_runIf _ hrun
  have hre' := Machine.reachIf_of_runIf _ hrun'
  obtain ⟨object, hobj, hsha⟩ :=
    available_keeps_object sampleIdentity sampleConfig (hre.trans hre') hav
  exact ⟨u, w, object, hre.mono fun _ _ _ => trivial, hgone, hre'.mono fun _ _ _ => trivial, hav,
    hobj, hsha⟩

/-- **An available upload without its object.**  The first scan crashes after its copy and the
orphan repair schedules a delete of the key.  The delete follows the copy of the second scan, within
its own timeout, and its worker crashes; once its lease has run out, the second scan finalizes. -/
theorem available_loses_object : ∃ w,
    sample.runIf (fun w a => Punctual sampleConfig w a = true) sample.start
      (scannedRun ++ [.tick 60000000, .list .published, .repair .published, .claim 2, .tick 1000000,
        .claim 1, .begin_ 3, .tick 27000000, .read 3 cleanScanner, .copy 3, .tick 1000000,
        .delete 2, .tick 6000000, .finalize 3]) = some w ∧
      w.db.state = some .available ∧ w.published = none :=
  ⟨_, rfl, rfl, rfl⟩

/-! ## 4. Downloads -/

section

variable {identity : Identity} {config : ReconcilerConfig} {w w' : World} {a : Action}
  {upload : Upload}

/-- No statement touches the record of an available upload. -/
theorem Edit.keeps_available {P : Prop} {db db' : Db} (h : Edit config w P db db')
    (hup : db.upload = some upload) (hav : upload.state = .available) :
    db'.upload = some upload := by
  have hst {u : Upload} (hu : db.upload = some u) : u.state = .available :=
    Option.some.inj (hup.symm.trans hu) ▸ hav
  cases h with
  | rows | insert => exact hup
  | moved _ hold => simp [Db.young, hup, hav] at hold
  | verified _ hu hs | published _ hu hs => cases (hst hu).symm.trans hs
  | deleted _ hu hs | rejected _ hu hs => rcases hs with hs | hs <;> cases (hst hu).symm.trans hs

theorem Move.edits (hbas : Basic identity w) (h : Move identity config True w a w') :
    ∃ u, Edits config u True w.db w'.db := by
  cases h with
  | tick | client | copied => exact ⟨w, .refl⟩
  | erased x => cases hkey : x.key <;> exact ⟨w, .refl⟩
  | commit _ _ _ _ h => exact ⟨w, h⟩
  | claimed _ _ h => exact ⟨w, h⟩
  | stepped _ _ _ _ _ h => exact ⟨w, h⟩
  | returned _ _ _ _ hfe => exact ⟨w, fenceProxiedWrite_edits hfe⟩
  | finalized x _ hx _ hph _ hfnl =>
    exact ⟨_, Worker.finalize_edits hbas hx hph hfnl fun _ _ => trivial⟩

theorem openDownload_eq_ok {db : Db} {published : Option Object} {object : Object} :
    openDownload identity db published = .ok object ↔ (∃ upload, db.upload = some upload ∧
      upload.state = .available ∧ upload.detectedMime ≠ none) ∧ published = some object ∧
      object.size = identity.declaredSize ∧ object.sha256 = identity.expectedSha256 := by
  unfold openDownload
  cases db.upload <;> cases published <;> grind

end

/-- **A download that was served is served ever after.**  While effects keep to their timeout, no
run of clients, workers and repairs that follows the first download makes a later one fail or
return another size or hash. -/
theorem download_stays_open (identity : Identity) (config : ReconcilerConfig) {w w' : World}
    (h : (machine identity config).Reach (machine identity config).start w)
    (hlater : (machine identity config).ReachIf
      (fun w a => Punctual config w a = true) w w') {object : Object}
    (hopen : openDownload identity w.db w.published = .ok object) :
    ∃ object', openDownload identity w'.db w'.published = .ok object' ∧
      object'.size = object.size ∧ object'.sha256 = object.sha256 := by
  obtain ⟨⟨upload, hup, hav, hmime⟩, hobj, hsize, hsha⟩ := openDownload_eq_ok.mp hopen
  -- What the rows keep, they keep in every run; the record and its object stay from here on.
  obtain ⟨hbas, hfenced⟩ := invariant_of_reach
    (I := fun w => Fenced config w.workers w.clock True w.db) h
    (by constructor <;> simp [machine]) fun u a v hbas hfenced _ hact =>
      hfenced.move hbas (fun _ _ _ _ _ _ _ => trivial) (World.act_move hbas hact)
  obtain ⟨hbas', -, hup', hpub'⟩ := hlater.invariant
    (I := fun u => Basic identity u ∧ Fenced config u.workers u.clock True u.db ∧
      u.db.upload = some upload ∧ u.published.isSome = true)
    ⟨hbas, hfenced, hup, by rw [hobj]; rfl⟩
    fun u a v hu hpunctual hact => by
      obtain ⟨hbas, hfenced, hup, hpub⟩ := hu
      have hmove := World.act_move (P := True) hbas hact
      obtain ⟨_, hedits⟩ := hmove.edits hbas
      exact ⟨hbas.move hmove, hfenced.move hbas (fun _ _ _ _ _ _ _ => trivial) hmove,
        hedits.invariant hup fun _ _ hdb hedit => hedit.keeps_available hdb hav,
        hfenced.keeps_published hpunctual hmove hpub (by simp [Db.state, hup, hav])⟩
  obtain ⟨object', hobj'⟩ := Option.isSome_iff_exists.mp hpub'
  have had := hbas'.published object' hobj'
  simp only [Identity.admits, Bool.and_eq_true, decide_eq_true_eq] at had
  exact ⟨object', openDownload_eq_ok.mpr ⟨⟨upload, hup', hav, hmime⟩, hobj', had⟩,
    had.1.trans hsize.symm, had.2.trans hsha.symm⟩

/-- A client abandons the upload between two downloads. -/
theorem download_stays_open_abandoned : ∃ w w' object', sample.Reach sample.start w ∧
    sample.run w [.tick 60000000, .abandon] = some w' ∧
    openDownload sampleIdentity w'.db w'.published = .ok object' := by
  obtain ⟨w, w', object, hrun, hrun', hrun'', hopen⟩ : ∃ w w' object,
      sample.run sample.start (scannedRun ++ [.finalize 1]) = some w ∧
      sample.runIf (fun w a => Punctual sampleConfig w a = true) w
        [.tick 60000000, .abandon] = some w' ∧ sample.run w [.tick 60000000, .abandon] = some w' ∧
      openDownload sampleIdentity w.db w.published = .ok object :=
    ⟨_, _, _, rfl, rfl, rfl, rfl⟩
  have hre := Machine.reach_of_run _ hrun
  obtain ⟨object', hopen', -⟩ := download_stays_open sampleIdentity sampleConfig hre
    (Machine.reachIf_of_runIf _ hrun') hopen
  exact ⟨w, w', object', hre, hrun'', hopen'⟩

end Omnius.Uploads
