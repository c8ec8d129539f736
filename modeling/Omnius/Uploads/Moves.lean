/-
# Uploads: what an action can do

A MOVE says what an action leaves of the world: the edits its transaction made, and what it did to
the object store and to the worker or the call that acted.  What every worker keeps about its own
phase holds in every reachable world, whatever the clocks and the faults do.
-/
import Omnius.Uploads.Edits

namespace Omnius.Uploads

open Omnius.Lib List Option Bool World

/-! ## 1. Workers -/

structure Identity.Declares (identity : Identity) (object : Object) : Prop where
  size : object.size = identity.declaredSize
  sha256 : object.sha256 = identity.expectedSha256
  mime : object.mime = some identity.declaredMime

/-- What a worker's phase says about what it did before. -/
def Worker.Sound (identity : Identity) (x : Worker) : Prop :=
  let read (verdict : Option ScanVerdict) : Prop :=
    ∃ reading, x.reading = some reading ∧ identity.Declares reading.object ∧
      reading.verdict = verdict
  match x.phase with
  | .ended .completeVerification => x.kind = .verify ∧ read none
  | .scanned => x.kind = .scan ∧ read (some .clean)
  | .ended (.completeScanClean startedAt) =>
    x.kind = .scan ∧ read (some .clean) ∧ x.ran = true ∧ x.startedAt.getD 0 = startedAt
  | .ended .completeDelete => x.ran = true
  | _ => True

structure Basic (identity : Identity) (w : World) : Prop where
  fresh : ∀ x ∈ w.workers, x.token < w.tokens
  sound : ∀ x ∈ w.workers, x.Sound identity
  staged : ∀ object, w.staging = some object → identity.admits object = true
  published : ∀ object, w.published = some object → identity.admits object = true

/-- A phase that says nothing. -/
def Phase.Idle : Phase → Prop
  | .finished | .ended .retry | .ended (.reject _) => True
  | _ => False

/-- A worker's own step. -/
inductive WorkerStep (identity : Identity) (w : World) (x : Worker) : Worker → Prop
  | begun (hkind : x.kind = .scan) (hphase : x.phase = .claimed) :
      WorkerStep identity w x { x with grantedAt := w.clock, startedAt := some w.clock }
  | idle (phase : Phase) (hphase : phase.Idle) : WorkerStep identity w x { x with phase }
  | read (scanner : Scanner) (hkind : x.kind ≠ .delete) (hphase : x.phase = .claimed) :
      WorkerStep identity w x (w.readWith identity scanner x)

variable {object : Option Object} {x x' : Worker} {identity : Identity}

theorem verifyEffect_complete (h : verifyEffect identity object = .completeVerification) :
    ∃ found, object = some found ∧ identity.Declares found := by
  cases object with
  | none => cases h
  | some found =>
    simp only [verifyEffect] at h
    split_ifs at h with hsize hsha hmime
    exact ⟨found, rfl, not_not.mp hsize, not_not.mp hsha, hmime⟩

/-- A scan goes on with the declared object, and never ends with another effect's completion. -/
theorem scanEffect_spec {scanner : Scanner} {result : Option EffectOutcome}
    (h : scanEffect identity scanner object = result) :
    (∀ outcome, result = some outcome → (Phase.ended outcome).Idle) ∧
      (result = none → ∃ found, object = some found ∧ identity.Declares found) := by
  have hidle {outcome : EffectOutcome} (h : some outcome = result)
      (hout : (Phase.ended outcome).Idle) : (∀ outcome, result = some outcome →
        (Phase.ended outcome).Idle) ∧
      (result = none → ∃ found, object = some found ∧ identity.Declares found) := by
    subst h
    exact ⟨fun _ h => Option.some.inj h ▸ hout, nofun⟩
  have hfail (failure : ScannerFailure) : (Phase.ended failure.outcome).Idle := by
    cases failure <;> trivial
  unfold scanEffect at h
  split at h
  · exact hidle h (hfail _)
  · exact hidle h trivial
  split at h
  · exact hidle h trivial
  next found hsize =>
  split at h
  · exact hidle h (hfail _)
  split at h
  · exact hidle h trivial
  next hsha =>
  split at h
  · exact hidle h trivial
  next hmime =>
  split at h
  · exact hidle h (hfail _)
  · exact hidle h trivial
  · subst h
    exact ⟨nofun, fun _ => ⟨_, rfl, not_not.mp hsize, not_not.mp hsha, not_not.mp hmime⟩⟩

theorem Worker.sound_idle (h : x.phase.Idle) : x.Sound identity := by
  unfold Worker.Sound
  unfold Phase.Idle at h
  split at h
  all_goals simp_all

theorem WorkerStep.sound {w : World} (h : WorkerStep identity w x x') :
    x'.token = x.token ∧ x'.kind = x.kind ∧ x'.key = x.key ∧
      x'.ran = x.ran ∧ x'.overtaken = x.overtaken ∧ x'.Sound identity := by
  cases h with
  | begun hkind hph => exact ⟨rfl, rfl, rfl, rfl, rfl, by simp [Worker.Sound, hph]⟩
  | idle phase hph => exact ⟨rfl, rfl, rfl, rfl, rfl, Worker.sound_idle hph⟩
  | read scanner hkind hph =>
    unfold readWith
    split
    · next hverify =>
      refine ⟨rfl, rfl, rfl, rfl, rfl, ?_⟩
      cases hout : verifyEffect identity w.staging with
      | completeVerification =>
        obtain ⟨found, hfd, hdeclares⟩ := verifyEffect_complete hout
        rw [hfd]
        exact ⟨hverify, _, rfl, hdeclares, rfl⟩
      | reject | retry => exact trivial
      | completeScanClean | completeDelete =>
        unfold verifyEffect at hout
        split at hout
        · cases hout
        · split_ifs at hout
    · next hverify =>
      split
      · next hclean =>
        refine ⟨rfl, rfl, rfl, rfl, rfl, ?_⟩
        have hscan : x.kind = .scan := by
          cases hx : x.kind <;> simp_all
        obtain ⟨found, hfd, hdeclares⟩ := (scanEffect_spec hclean).2 rfl
        rw [hfd]
        exact ⟨hscan, _, rfl, hdeclares, rfl⟩
      · next hout =>
        exact ⟨rfl, rfl, rfl, rfl, rfl, Worker.sound_idle ((scanEffect_spec hout).1 _ rfl)⟩

/-! ## 2. Moves -/

/-- What an action leaves of the world. -/
inductive Move (identity : Identity) (config : ReconcilerConfig) (P : Prop) (w : World)
    (a : Action) : World → Prop
  | tick (elapsed : Nat) : Move identity config P w a { w with clock := w.clock + elapsed }
  | commit (db : Db) (credentials : List Nat) (listed : List ObjectKey) (completing : Nat)
      (h : Edits config w P w.db db) :
      Move identity config P w a { w with db, credentials, listed, completing }
  /-- A write of a client, or a call that begins or fails. -/
  | client (staging : Option Object) (calls : List Call)
      (hstaging : ∀ object, staging = some object →
        w.staging = some object ∨ identity.admits object = true)
      (hcalls : ∀ call ∈ calls, call.returned.isSome = true → call ∈ w.calls ∨
        call.landed = true ∧ { call with landed := false } ∈ w.calls) :
      Move identity config P w a { w with staging, calls }
  | returned (id : Nat) (ha : a = .fencePut id) (disposition : PostWriteDisposition) (db : Db)
      (h : fenceProxiedWrite w.db w.clock = .ok (disposition, db)) :
      Move identity config P w a
        ({ w with db }.setCalls (Written id)
          fun call => { call with returned := some disposition })
  | claimed (x : Worker) (db : Db) (h : Edits config w P w.db db) (htoken : x.token = w.tokens)
      (hphase : x.phase = .claimed) (hgranted : x.grantedAt = w.clock) (hran : x.ran = false)
      (hreading : x.reading = none)
      (hrow : ∃ row ∈ db.works, row.key = x.key ∧ row.kind = x.kind ∧ row.unfinished = true ∧
        row.lease = some ⟨x.token, w.clock + config.leaseDuration⟩) :
      Move identity config P w a
        { w with db, tokens := w.tokens + 1, workers := w.workers ++ [x] }
  | stepped (x x' : Worker) (hx : x ∈ w.workers) (h : WorkerStep identity w x x') (db : Db)
      (hdb : Edits config w P w.db db) :
      Move identity config P w a ({ w with db }.setWorker x')
  | copied (x : Worker) (hx : x ∈ w.workers) (hphase : x.phase = .scanned) (object : Object)
      (hobject : w.staging = some object) (startedAt : Nat)
      (hstarted : x.startedAt.getD 0 = startedAt) :
      Move identity config P w a
        ({ w with published := some { object with lastModified := w.clock } }.setWorker
          { x with
            phase := .ended (.completeScanClean startedAt), ran := true, overtaken := false })
  | erased (x : Worker) (ha : a = .delete x.token) (hx : x ∈ w.workers)
      (hphase : x.phase = .claimed) (hkind : x.kind = .delete) :
      Move identity config P w a
        ((w.erase x.key).setWorker { x with phase := .ended .completeDelete, ran := true })
  | finalized (x : Worker) (ha : a = .finalize x.token) (hx : x ∈ w.workers)
      (outcome : EffectOutcome) (hphase : x.phase = .ended outcome) (db : Db)
      (h : x.finalize identity config outcome w.db w.clock = .ok db) :
      Move identity config P w a
        ({ w with db, runs := w.runs ++ x.run outcome w.clock }.setWorker
          { x with phase := .finished })

variable {identity : Identity} {config : ReconcilerConfig} {P : Prop} {w w' : World} {a : Action}

variable {token : Nat} {db : Db}

theorem World.worker_eq_some (h : w.worker token = some x) : x ∈ w.workers ∧ x.token = token :=
  ⟨mem_of_find?_eq_some h, by simpa using List.find?_some h⟩

theorem World.withWorker_eq_some {enabled : Worker → Bool} {move : Worker → World}
    (h : w.withWorker token enabled move = some w') :
    ∃ x ∈ w.workers, x.token = token ∧ enabled x = true ∧ move x = w' := by
  obtain ⟨x, hx, hmove⟩ := map_eq_some_iff.mp h
  obtain ⟨hx, hen⟩ := filter_eq_some_iff.mp hx
  exact ⟨x, (worker_eq_some hx).1, (worker_eq_some hx).2, hen, hmove⟩

theorem claim_spec {id now : Nat} {db' : Db} {work : LeasedWork}
    (h : claim config id token db now = (some work, db')) :
    work.token = token ∧ ∃ row ∈ db'.works, row.key = work.key ∧ row.kind = work.kind ∧
      row.unfinished = true ∧ row.lease = some ⟨token, now + config.leaseDuration⟩ := by
  unfold claim at h
  simp only [] at h
  split at h
  · cases h
  rename_i row hfd
  cases h
  have hready := List.find?_some hfd
  refine ⟨rfl, _, mem_map_of_mem (mem_of_find?_eq_some hfd), ?_⟩
  rw [Rows.patch, if_pos hready]
  simp only [Work.claimable, and_eq_true] at hready
  exact ⟨rfl, rfl, hready.2.1.1.1, rfl⟩

/-- An action that changes nothing. -/
theorem Move.idle : Move identity config P w a w :=
  .commit w.db w.credentials w.listed w.completing .refl

theorem Move.of_commit {result : Except UploadError Db} (completing : Nat)
    (h : ∀ db, result = .ok db → Edits config w P w.db db) :
    Move identity config P w a ({ w with completing }.commit result) := by
  cases result with
  | ok db => exact .commit db w.credentials w.listed completing (h db rfl)
  | error => exact .commit w.db w.credentials w.listed completing .refl

/-- A call that returns an error has no answer of its fence. -/
theorem Move.failed {condition : Call → Bool}
    (h : ∀ call, condition call = true → call.returned = none) :
    Move identity config P w a (w.setCalls condition fun call => { call with failed := true }) := by
  refine .client w.staging _ (fun _ => .inl) fun call hcall hret => .inl ?_
  obtain ⟨old, hold, rfl⟩ := mem_map.mp hcall
  unfold Rows.patch at hret ⊢
  split
  · next hcondition =>
    rw [if_pos hcondition, h old hcondition] at hret
    cases hret
  · exact hold

theorem World.returned_of_waiting {id : Nat} {call : Call} (h : Waiting id call = true) :
    call.returned = none := by
  simp only [Waiting, and_eq_true, isNone_iff_eq_none] at h
  exact h.2

/-- A step of a worker without a transaction. -/
theorem Move.alone (hx : x ∈ w.workers) (h : WorkerStep identity w x x') :
    Move identity config P w a (w.setWorker x') := .stepped x x' hx h w.db .refl

/-- **Every action is a move.** -/
theorem World.act_move (hbas : Basic identity w)
    (h : w.act identity config a = some w') : Move identity config P w a w' := by
  cases a with
  | tick elapsed =>
    cases h
    exact .tick elapsed
  | initiate request =>
    obtain ⟨-, ⟨⟩⟩ := ite_none_right_eq_some.mp h
    exact .of_commit w.completing fun _ h => initiate_edits h
  | issueCredential request until_ =>
    obtain ⟨-, h⟩ := ite_none_right_eq_some.mp h
    split at h
    · next hpersist =>
      cases h
      exact .commit _ _ w.listed w.completing (persistDirectCredentialExpiry_edits hpersist)
    · cases h
      exact .idle
  | directPut object =>
    obtain ⟨hput, ⟨⟩⟩ := ite_none_right_eq_some.mp h
    refine .client _ w.calls (fun stored hsto => .inr ?_) fun call hcall _ =>
      .inl hcall
    obtain rfl := Option.some.inj hsto
    exact ((and_eq_true _ _).mp hput).2
  | beginPut =>
    simp only [act] at h
    split at h
    · cases h
      refine .client w.staging _ (fun _ => .inl) fun call hcall hret => ?_
      obtain hcall | hcall := mem_append.mp hcall
      · exact .inl hcall
      · rw [mem_singleton.mp hcall] at hret
        cases hret
    · cases h
      exact .idle
  | landPut id object =>
    obtain ⟨hput, ⟨⟩⟩ := ite_none_right_eq_some.mp h
    refine .client _ _ (fun stored hsto => .inr ?_) fun call hcall _ => ?_
    · obtain rfl := Option.some.inj hsto
      exact ((and_eq_true _ _).mp hput).2
    · obtain ⟨old, hold, rfl⟩ := mem_map.mp hcall
      unfold Rows.patch
      split
      · next hwriting =>
        simp only [Writing, and_eq_true, not_eq_true'] at hwriting
        exact .inr ⟨rfl, hwriting.2 ▸ hold⟩
      · exact .inl hold
  | fencePut id =>
    obtain ⟨-, h⟩ := ite_none_right_eq_some.mp h
    split at h
    · next hfe =>
      cases h
      exact .returned id rfl _ _ hfe
    · cases h
      exact .failed fun _ hwrt => returned_of_waiting ((and_eq_true _ _).mp hwrt).2
  | failPut id =>
    obtain ⟨-, ⟨⟩⟩ := ite_none_right_eq_some.mp h
    exact .failed fun _ => returned_of_waiting
  | beginComplete =>
    simp only [act] at h
    split at h
    · cases h
      exact .commit w.db w.credentials w.listed _ .refl
    · cases h
      exact .idle
  | complete head =>
    obtain ⟨-, ⟨⟩⟩ := ite_none_right_eq_some.mp h
    exact .of_commit _ fun _ h => complete_edits h
  | status =>
    cases h
    exact .commit _ w.credentials w.listed w.completing expirePending_edits
  | abandon =>
    cases h
    exact .of_commit w.completing fun _ h => abandon_edits h
  | list key =>
    obtain ⟨-, ⟨⟩⟩ := ite_none_right_eq_some.mp h
    exact .commit w.db w.credentials _ w.completing .refl
  | repair key =>
    obtain ⟨-, ⟨⟩⟩ := ite_none_right_eq_some.mp h
    exact .commit _ w.credentials w.listed w.completing (scheduleOrphanDelete_edits key)
  | claim id =>
    cases h
    have hfr : ∀ x ∈ w.workers, x.token ≠ w.tokens := fun x hx => (hbas.fresh x hx).ne
    unfold claimed
    split
    · next hclm => exact .commit _ w.credentials w.listed w.completing (claim_edits hfr hclm)
    · next work db hclm =>
      obtain ⟨htok, hrow⟩ := claim_spec hclm
      refine .claimed _ db (claim_edits hfr hclm) htok rfl rfl rfl rfl ?_
      rw [htok]
      exact hrow
  | begin_ token =>
    obtain ⟨x, hx, rfl, hen, rfl⟩ := withWorker_eq_some h
    simp only [and_eq_true, decide_eq_true_eq] at hen
    split
    · next db hbegin =>
      have hdb : Edits config w P w.db db := beginPublication_edits hbegin
      exact .stepped x _ hx (.begun hen.1.2 hen.1.1) db hdb
    · exact .alone hx (.idle .finished trivial)
  | read token scanner =>
    obtain ⟨x, hx, rfl, hen, rfl⟩ := withWorker_eq_some h
    simp only [and_eq_true, decide_eq_true_eq] at hen
    exact .alone hx (.read scanner hen.1.2 hen.1.1)
  | copy token =>
    obtain ⟨x, hx, rfl, hen, rfl⟩ := withWorker_eq_some h
    unfold publish
    split
    · exact .alone hx (.idle _ trivial)
    · next object hobj =>
      exact .copied x hx (of_decide_eq_true hen) object hobj _ rfl
  | delete token =>
    obtain ⟨x, hx, rfl, hen, rfl⟩ := withWorker_eq_some h
    simp only [and_eq_true, decide_eq_true_eq] at hen
    exact .erased x rfl hx hen.1 hen.2
  | fault token =>
    obtain ⟨x, hx, rfl, -, rfl⟩ := withWorker_eq_some h
    exact .alone hx (.idle _ trivial)
  | finalize token =>
    obtain ⟨x, hfd, hmove⟩ := bind_eq_some_iff.mp h
    obtain ⟨hx, rfl⟩ := worker_eq_some hfd
    split at hmove
    · next outcome hph =>
      cases hmove
      unfold finalized
      split
      · next db hfnl =>
        exact .finalized x rfl hx outcome hph db hfnl
      · exact .alone hx (.idle _ trivial)
    · cases hmove

/-! ## 3. Every run -/

theorem World.mem_setWorker {y : Worker} (h : y ∈ (w.setWorker x).workers) :
    y = x ∨ (y ∈ w.workers ∧ y.token ≠ x.token) := by
  obtain ⟨z, hz, rfl⟩ := mem_map.mp h
  unfold Rows.patch
  split
  · exact .inl rfl
  · next htok => exact .inr ⟨hz, fun heq => htok (decide_eq_true heq)⟩

theorem World.forall_setWorker {Q : Worker → Prop} (hx : Q x) (h : ∀ y ∈ w.workers, Q y) :
    ∀ y ∈ (w.setWorker x).workers, Q y := by
  intro y hy
  obtain rfl | ⟨hy, -⟩ := mem_setWorker hy
  · exact hx
  · exact h y hy

theorem Basic.setWorker (h : Basic identity w) (hfr : x.token < w.tokens)
    (hsd : x.Sound identity) : Basic identity (w.setWorker x) :=
  ⟨forall_setWorker hfr h.fresh, forall_setWorker hsd h.sound, h.staged, h.published⟩

theorem Basic.move (h : Basic identity w) (hmove : Move identity config P w a w') :
    Basic identity w' := by
  cases hmove with
  | tick | commit | returned => exact { h with }
  | client staging calls hstg =>
    exact { h with staged := fun object hobj => (hstg object hobj).elim (h.staged object) id }
  | claimed x db heds htok hph =>
    refine ⟨forall_mem_append.mpr ⟨fun y hy => Nat.lt_succ_of_lt (h.fresh y hy),
      forall_mem_singleton.mpr (htok ▸ Nat.lt_succ_self _)⟩,
      forall_mem_append.mpr ⟨h.sound, forall_mem_singleton.mpr ?_⟩, h.staged, h.published⟩
    simp [Worker.Sound, hph]
  | stepped x x' hx hstep db =>
    obtain ⟨htok, -, -, -, -, hsd⟩ := hstep.sound
    have hbas : Basic identity { w with db } := { h with }
    exact hbas.setWorker (htok ▸ h.fresh x hx) hsd
  | copied x hx hph object hobj startedAt hstd =>
    have hscanned := h.sound x hx
    simp only [Worker.Sound, hph] at hscanned
    have hbas : Basic identity
        { w with published := some { object with lastModified := w.clock } } := by
      refine { h with published := ?_ }
      rintro _ ⟨⟩
      exact h.staged object hobj
    exact hbas.setWorker (h.fresh x hx) ⟨hscanned.1, hscanned.2, rfl, hstd⟩
  | erased x _ hx hph hkind =>
    have hbas : Basic identity (w.erase x.key) := by
      cases x.key with
      | staging => exact ⟨h.fresh, h.sound, nofun, h.published⟩
      | published =>
        exact ⟨forall_mem_map.mpr h.fresh, forall_mem_map.mpr h.sound, h.staged, nofun⟩
    have htoks : (w.erase x.key).tokens = w.tokens := by cases x.key <;> rfl
    exact hbas.setWorker (htoks ▸ h.fresh x hx) rfl
  | finalized x _ hx outcome hph db =>
    have hbas : Basic identity { w with db, runs := w.runs ++ x.run outcome w.clock } :=
      { h with }
    exact hbas.setWorker (h.fresh x hx) trivial

/-- What a finalization commits, seen from the world in which its worker is finished. -/
theorem Worker.finalize_edits (hbas : Basic identity w) (hx : x ∈ w.workers)
    {outcome : EffectOutcome} (hph : x.phase = .ended outcome)
    (h : x.finalize identity config outcome w.db w.clock = .ok db)
    (hP : ∀ startedAt, outcome = .completeScanClean startedAt → P) :
    Edits config ({ w with runs := w.runs ++ x.run outcome w.clock }.setWorker
      { x with phase := .finished }) P w.db db := by
  have hsd := hbas.sound x hx
  have hfin : ∀ y ∈ ({ w with runs := w.runs ++ x.run outcome w.clock }.setWorker
      { x with phase := .finished }).workers, y.token = x.token → y.phase = .finished := by
    intro y hy htok
    obtain rfl | ⟨-, hne⟩ := mem_setWorker hy
    · rfl
    · exact absurd htok hne
  cases outcome with
  | completeVerification =>
    simp only [Worker.Sound, hph] at hsd
    obtain ⟨-, reading, hreading, -⟩ := hsd
    refine completeVerification_edits hfin ⟨⟨.verify, reading, w.clock⟩, ?_, rfl⟩ h
    exact mem_append_right _ (by simp [Worker.run, hreading])
  | completeScanClean startedAt =>
    simp only [Worker.Sound, hph] at hsd
    obtain ⟨-, ⟨reading, hreading, -⟩, -⟩ := hsd
    refine completeScanClean_edits hfin ⟨⟨.scan, reading, w.clock⟩, ?_, rfl⟩ (hP startedAt rfl) h
    exact mem_append_right _ (by simp [Worker.run, hreading])
  | completeDelete =>
    simp only [Worker.Sound, hph] at hsd
    refine completeDelete_edits hfin (fun hkind => ?_) h
    refine ⟨{ x with phase := .finished }, mem_map.mpr ⟨x, hx, if_pos (decide_eq_true rfl)⟩,
      rfl, rfl, hkind, hsd⟩
  | reject => exact rejectLeased_edits hfin h
  | retry => exact retry_edits hfin h

/-- **The rule for runs.**  What holds at the start, together with what workers keep, and is kept by
every move that meets the condition, holds in every world such moves reach. -/
theorem invariant_of_reach {C : World → Action → Prop} {I : World → Prop}
    (h : (machine identity config).ReachIf C (machine identity config).start w)
    (hstt : I (machine identity config).start)
    (hmove : ∀ u a v, Basic identity u → I u → C u a → u.act identity config a = some v → I v) :
    Basic identity w ∧ I w := by
  have hbas : Basic identity (machine identity config).start := by
    constructor <;> simp [machine]
  refine h.invariant (I := fun w => Basic identity w ∧ I w) ⟨hbas, hstt⟩ ?_
  intro u a v ⟨hbas, hI⟩ hC hstep
  exact ⟨hbas.move (act_move (P := True) hbas hstep), hmove u a v hbas hI hC hstep⟩

end Omnius.Uploads
