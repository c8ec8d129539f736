/-
# Uploads: late writes to dead uploads

A proxied write may land after the upload was rejected.  The call that made it then asks for a
delete of the staging key before it returns, but the unique index SUPPRESSES that row while another
delete of the key is unfinished, and the worker of that other row may have performed its delete
already.  Once it finalizes, nothing removes the object.

Whenever the fence of no returning call meets such a worker, every late write is removed, or waits
for an unfinished delete that is still to come.
-/
import Omnius.Uploads.Moves

namespace Omnius.Uploads

open Omnius.Lib List

/-- An unfinished delete of the staging key that has not run under its current lease. -/
structure Awaits (workers : List Worker) (row : Work) : Prop where
  key : row.key = .staging
  kind : row.kind = .delete
  unfinished : row.unfinished = true
  toRun : ∀ x ∈ workers, x.kind = .delete → x.key = .staging → x.ran = true →
    row.heldBy x.token = false

def Db.Dead (db : Db) : Prop := db.state = some .rejected ∨ db.state = some .deleted

/-- The write of a call is undone, or its upload is not dead, or a delete is still to come. -/
structure Late (workers : List Worker) (calls : List Call) (db : Db) : Prop where
  quiet : db.young = true → ∀ row ∈ db.works, row.key = .staging → row.kind ≠ .delete
  landed : ∀ call ∈ calls, call.returned.isSome = true → call.landed = true
  settled : ∀ call ∈ calls, call.returned.isSome = true → db.Dead →
    call.removed = true ∨ ∃ row ∈ db.works, Awaits workers row

variable {identity : Identity} {config : ReconcilerConfig} {P : Prop} {w w' : World}
  {a : Action}

variable {db : Db} {calls : List Call}

theorem Db.Dead.not_young (h : db.Dead) : db.young = false := by
  rcases db with ⟨_ | upload, works⟩
  · obtain h | h := h <;> cases h
  · obtain h | h := h <;> simp [Db.young, Option.some.inj h]

theorem RowEdit.awaits {old new : Work} (h : RowEdit config w old new)
    (haw : Awaits w.workers old) : Awaits w.workers new := by
  cases h with
  | kept h =>
    rw [h]
    exact { haw with }
  | revoked hkind => exact absurd haw.kind hkind
  | fenced hkey => exact absurd (hkey.symm.trans haw.key) nofun
  | released token hheld _ _ hran h =>
    -- A worker that finishes the row has run, and the row would have waited for nobody.
    obtain hunf | ⟨x, hx, rfl, hkey, hkind, hxran⟩ := hran haw.kind
    · rw [h] at hunf ⊢
      exact ⟨haw.key, haw.kind, hunf, fun _ _ _ _ _ => rfl⟩
    · rw [haw.toRun x hx hkind (hkey.trans haw.key) hxran] at hheld
      cases hheld
  | leased token hfr hunf _ h =>
    rw [h]
    exact ⟨haw.key, haw.kind, hunf, fun x hx _ _ _ =>
      decide_eq_false fun heq => hfr x hx heq.symm⟩
  | refreshed _ hkind => exact absurd (hkind.symm.trans haw.kind) nofun

theorem Late.edit {a b : Db} (h : Late w.workers calls a) (hedit : Edit config w P a b) :
    Late w.workers calls b := by
  have hold {upload : Upload} (hup : a.upload = some upload)
      (hst : upload.state = .pendingUpload ∨ upload.state = .quarantined) : a.young = true := by
    simpa [Db.young, hup] using hst
  have hlive {db : Db} (hyoung : db.young = true) : ¬ db.Dead := fun hdead => by
    simp [hdead.not_young] at hyoung
  cases hedit with
  | rows f hf =>
    refine ⟨fun hyoung row' hrow' => ?_, h.landed, fun call hcall hret hdead => ?_⟩
    · obtain ⟨row, hrow, rfl⟩ := mem_map.mp hrow'
      rw [(hf row hrow).same.1, (hf row hrow).same.2]
      exact h.quiet hyoung row hrow
    · refine (h.settled call hcall hret hdead).imp_right ?_
      rintro ⟨row, hrow, haw⟩
      exact ⟨f row, mem_map_of_mem hrow, (hf row hrow).awaits haw⟩
  | insert referenced key kind ready hstg =>
    refine ⟨fun hyoung row hrow hkey hkind => ?_, h.landed, fun call hcall hret hdead => ?_⟩
    · obtain hrow | ⟨rfl, rfl, -⟩ := mem_insertWork hrow
      · exact h.quiet hyoung row hrow hkey hkind
      · exact absurd hyoung (Bool.eq_false_iff.mp (hstg hkind hkey))
    · refine (h.settled call hcall hret hdead).imp_right ?_
      rintro ⟨row, hrow, haw⟩
      exact ⟨row, mem_insertWork_of_mem hrow, haw⟩
  | moved upload hyoung hnew =>
    exact ⟨fun _ => h.quiet hyoung, h.landed, fun _ _ _ hdead =>
      absurd hdead (hlive (by simpa [Db.young] using hnew))⟩
  | verified upload hup hst =>
    exact ⟨fun _ => h.quiet (hold hup (.inr hst)), h.landed, fun _ _ _ hdead =>
      absurd hdead (hlive (by simp [Db.young, hst]))⟩
  | published upload =>
    exact ⟨(by cases ·), h.landed, fun _ _ _ hdead => by cases hdead <;> cases ‹_›⟩
  | deleted upload hup hst =>
    refine ⟨(by cases ·), h.landed, fun call hcall hret _ => h.settled call hcall hret ?_⟩
    simpa [Db.Dead, Db.state, hup] using hst
  | rejected upload hup hst reason =>
    refine ⟨(by cases ·), h.landed, fun _ _ _ _ => .inr ?_⟩
    obtain ⟨row, hrow, hkey, hkind, hunf, hnew⟩ :=
      exists_mem_insertWork true .staging .delete true w.clock a.works
    refine ⟨row, hrow, hkey, hkind, hunf, fun x _ _ _ _ => ?_⟩
    obtain hmem | hls := hnew
    · exact absurd hkind (h.quiet (hold hup hst) row hmem hkey)
    · simp [Work.heldBy, hls]

theorem Late.edits {db' : Db} (h : Late w.workers calls db) (heds : Edits config w P db db') :
    Late w.workers calls db' :=
  heds.invariant h fun _ _ h hedit => h.edit hedit

theorem Late.workers {workers workers' : List Worker} (h : Late workers calls db)
    (hran : ∀ y ∈ workers', y.kind = .delete → y.key = .staging → y.ran = true →
      ∃ x ∈ workers, x.token = y.token ∧ x.kind = .delete ∧ x.key = .staging ∧ x.ran = true) :
    Late workers' calls db := by
  refine ⟨h.quiet, h.landed, fun call hcall hret hdead => ?_⟩
  refine (h.settled call hcall hret hdead).imp_right fun ⟨row, hrow, haw⟩ => ?_
  refine ⟨row, hrow, haw.key, haw.kind, haw.unfinished, fun y hy hkind hkey hyran => ?_⟩
  obtain ⟨x, hx, htok, hxkind, hxkey, hxran⟩ := hran y hy hkind hkey hyran
  exact htok ▸ haw.toRun x hx hxkind hxkey hxran

theorem Late.setWorker {x x' : Worker} (hx : x ∈ w.workers) (h : Late w.workers calls db)
    (htok : x'.token = x.token) (hkind : x'.kind = x.kind) (hkey : x'.key = x.key)
    (hran : x'.kind = .delete → x'.ran = x.ran) : Late (w.setWorker x').workers calls db := by
  refine h.workers (World.forall_setWorker (fun hdelete hstg hyran => ?_) fun y hy hyran => ?_)
  · exact ⟨x, hx, htok.symm, hkind ▸ hdelete, hkey ▸ hstg, hran hdelete ▸ hyran⟩
  · exact fun hstg hdelete => ⟨y, hy, rfl, hyran, hstg, hdelete⟩

/-- The fence of the returning calls meets no worker that has deleted the old object and not yet
finalized: each unfinished delete is still to run, or the call's object is gone. -/
def FenceClear (w : World) : Action → Prop
  | .fencePut id => w.db.Dead → ∀ call ∈ w.calls, World.Written id call = true →
      call.removed = true ∨ ∀ row ∈ w.db.works, row.key = .staging → row.kind = .delete →
        row.unfinished = true → Awaits w.workers row
  | _ => True

/-- The fence leaves an unfinished delete: an old one, or one that nobody holds. -/
theorem fenceProxiedWrite_awaits {disposition : PostWriteDisposition}
    (h : fenceProxiedWrite w.db w.clock = .ok (disposition, db)) (hdead : w.db.Dead)
    (hclear : ∀ row ∈ w.db.works, row.key = .staging → row.kind = .delete →
      row.unfinished = true → Awaits w.workers row) : ∃ row ∈ db.works, Awaits w.workers row := by
  obtain ⟨upload, hworks⟩ : ∃ upload,
      db.works = ensureReferencedDeleteWork upload w.clock w.db.works := by
    unfold fenceProxiedWrite at h
    cases hup : w.db.upload with
    | none => simp [hup] at h
    | some upload =>
      simp only [Db.Dead, Db.state, hup, Option.map_some, Option.some.injEq] at hdead
      obtain hst | hst := hdead
      all_goals
        simp only [hup, hst] at h
        cases h
        exact ⟨upload, rfl⟩
  obtain ⟨row, hrow, hkey, hkind, hunf, hold⟩ :=
    exists_mem_insertWork true .staging .delete true w.clock w.db.works
  have haw : Awaits w.workers row := by
    obtain hmem | hls := hold
    · exact hclear row hmem hkey hkind hunf
    · exact ⟨hkey, hkind, hunf, fun x _ _ _ _ => by simp [Work.heldBy, hls]⟩
  rw [hworks]
  refine ⟨_, mem_map_of_mem hrow, ?_⟩
  unfold Rows.patch
  split
  · exact ⟨hkey, hkind, hunf, haw.toRun⟩
  · exact haw

theorem Late.move (h : Late w.workers w.calls w.db) (hbas : Basic identity w)
    (hclear : FenceClear w a) (hmove : Move identity config True w a w') :
    Late w'.workers w'.calls w'.db := by
  cases hmove with
  | tick => exact h
  | commit db _ _ _ heds => exact h.edits heds
  | client staging calls _ hcalls =>
    refine ⟨h.quiet, fun call hcall hret => ?_, fun call hcall hret hdead => ?_⟩
    · exact (hcalls call hcall hret).elim (h.landed call · hret) (·.1)
    · obtain hcall | ⟨-, hcall⟩ := hcalls call hcall hret
      · exact h.settled call hcall hret hdead
      · exact h.settled { call with landed := false } hcall hret hdead
  | returned id ha disposition db hfe =>
    have heds : Edits config w True w.db db := fenceProxiedWrite_edits hfe
    subst ha
    have hlanded : ∀ call ∈ (w.setCalls (World.Written id) fun call =>
        { call with returned := some disposition }).calls,
        call.returned.isSome = true → call.landed = true := by
      intro call hcall hret
      obtain ⟨old, hold, rfl⟩ := mem_map.mp hcall
      by_cases hwrt : World.Written id old = true
      · rw [Rows.patch, if_pos hwrt]
        exact ((Bool.and_eq_true _ _).mp hwrt).1
      · rw [Rows.patch, if_neg hwrt] at hret ⊢
        exact h.landed old hold hret
    by_cases hdead : w.db.Dead
    · refine ⟨(h.edits heds).quiet, hlanded, fun call hcall hret hdead' => ?_⟩
      obtain ⟨old, hold, rfl⟩ := mem_map.mp hcall
      by_cases hwrt : World.Written id old = true
      · rw [Rows.patch, if_pos hwrt]
        exact (hclear hdead old hold hwrt).imp_right (fenceProxiedWrite_awaits (w := w) hfe hdead)
      · rw [Rows.patch, if_neg hwrt] at hret ⊢
        exact (h.edits heds).settled old hold hret hdead'
    · exact Late.edits (w := w) ⟨h.quiet, hlanded, fun _ _ _ h => absurd h hdead⟩ heds
  | claimed x db heds _ _ _ hran =>
    refine (h.edits heds).workers fun y hy hkind hkey hyran => ?_
    obtain hy | hy := mem_append.mp hy
    · exact ⟨y, hy, rfl, hkind, hkey, hyran⟩
    · rw [mem_singleton.mp hy, hran] at hyran
      cases hyran
  | stepped x x' hx hstep db heds =>
    obtain ⟨htok, hkind, hkey, hran, -⟩ := hstep.sound
    exact Late.setWorker hx (h.edits heds) htok hkind hkey fun _ => hran
  | copied x hx hph =>
    have hscan := hbas.sound x hx
    simp only [Worker.Sound, hph] at hscan
    exact Late.setWorker hx h rfl rfl rfl fun hkind => by cases hscan.1.symm.trans hkind
  | erased x _ hx _ hkind =>
    cases hkey : x.key with
    | staging =>
      -- Whatever a returned call wrote is gone.
      refine ⟨h.quiet, fun call hcall hret => ?_, fun call hcall hret _ => .inl ?_⟩
      all_goals
        obtain ⟨old, hold, rfl⟩ := mem_map.mp hcall
        unfold Rows.patch at hret ⊢
        split
      · assumption
      · next hlanded => exact h.landed old hold (by simpa [hlanded] using hret)
      · rfl
      · next hlanded =>
        exact absurd (h.landed old hold (by simpa [hlanded] using hret)) hlanded
    | published =>
      refine h.workers (World.forall_setWorker (fun _ hstg => ?_) (forall_mem_map.mpr ?_))
      · cases hkey.symm.trans hstg
      · exact fun z hz hdelete hstg hran => ⟨z, hz, rfl, hdelete, hstg, hran⟩
  | finalized x _ hx outcome hph db hfnl =>
    have hlate : Late ({ w with runs := w.runs ++ x.run outcome w.clock }.setWorker
        { x with phase := .finished }).workers w.calls w.db :=
      Late.setWorker (w := { w with runs := _ }) hx h rfl rfl rfl fun _ => rfl
    exact hlate.edits (P := True) (Worker.finalize_edits hbas hx hph hfnl fun _ _ => trivial)

/-- **Late writes are removed.**  As long as no fence meets a delete that ran before the write, the
write of a call that returned to a dead upload is undone, or an unfinished delete of its key has
still to run under its current lease. -/
theorem late_write_removed (identity : Identity) (config : ReconcilerConfig) {w : World}
    (h : (machine identity config).ReachIf FenceClear (machine identity config).start w)
    {call : Call} (hcall : call ∈ w.calls) (hreturned : call.returned.isSome = true)
    (hdead : w.db.Dead) : call.removed = true ∨ ∃ row ∈ w.db.works, Awaits w.workers row := by
  have hlate := invariant_of_reach (I := fun w => Late w.workers w.calls w.db) h
    (by constructor <;> simp [machine]) fun u a v hbas hlate hclear hact =>
      hlate.move hbas hclear (World.act_move hbas hact)
  exact hlate.2.settled call hcall hreturned hdead

/-- Where nobody has claimed a row, nothing has been deleted. -/
theorem fenceClear_of_idle (h : w.workers = []) (a : Action) : FenceClear w a := by
  cases a with
  | fencePut id =>
    intro _ _ _ _
    exact .inr fun row _ hkey hkind hunf => ⟨hkey, hkind, hunf, by simp [h]⟩
  | _ => trivial

/-- An upload that expires before its write lands. -/
theorem late_write_removed_unclaimed : ∃ w call, sample.ReachIf FenceClear sample.start w ∧
    call ∈ w.calls ∧ call.returned.isSome = true ∧ w.db.Dead ∧
    (call.removed = true ∨ ∃ row ∈ w.db.works, Awaits w.workers row) := by
  obtain ⟨w, call, hrun, hcall, hret, hdead⟩ : ∃ w call,
      sample.runIf (fun w _ => w.workers = []) sample.start
        [.initiate sampleRequest, .beginPut, .tick 60000000, .status, .landPut 0 sampleObject,
          .fencePut 0] = some w ∧
        call ∈ w.calls ∧ call.returned.isSome = true ∧ w.db.Dead :=
    ⟨_, _, rfl, .head _, rfl, .inl rfl⟩
  have hre := Machine.reachIf_of_runIf_imp _ (fun a _ _ h => fenceClear_of_idle h a) hrun
  exact ⟨w, call, hre, hcall, hret, hdead,
    late_write_removed sampleIdentity sampleConfig hre hcall hret hdead⟩

/-- **A late write that stays.**  The delete of the expired upload runs, the write lands, its fence
finds the row unfinished, and the worker finalizes: the upload is deleted, its object is not, and no
delete is left. -/
theorem late_write_survives_delete : ∃ w call,
    sample.run sample.start [.initiate sampleRequest, .beginPut, .tick 60000000, .claim 1,
        .delete 0, .landPut 0 sampleObject, .fencePut 0, .finalize 0] = some w ∧
      call ∈ w.calls ∧ call.landed = true ∧ call.returned.isSome = true ∧
      w.db.state = some .deleted ∧ call.removed = false ∧ w.staging.isSome = true ∧
      ∀ row ∈ w.db.works, row.key = .staging → row.kind = .delete → row.unfinished = false :=
  ⟨_, _, rfl, .head _, rfl, rfl, rfl, rfl, rfl, by decide⟩

end Omnius.Uploads
