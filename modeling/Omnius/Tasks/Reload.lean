/-
# What was stored, and whether it loads again

Writer and reader of a task disagree in one respect: SIZE.  A batch of answers is bounded when it
comes in, a round of questions when it is asked, the document when it is written -- but the reader
puts the bound of a round of questions on questions AND answers, and the bound of one batch on the
answers of ALL batches.

* `stored_tasks_reload` -- in runs where those two sums stay within bounds, everything that was ever
  stored decodes to itself: task documents, rows, completed rounds, the history a worker is given;
* `partial_answer_blocks_task` -- otherwise not: one accepted answer makes every later operation on
  its task fail.

The first is the invariant `Readable`; everything except size is re-checked by the reader and kept
by every operation (`Restorable`, `Asked`).
-/
import Omnius.Tasks.Lifecycle

namespace Omnius.Tasks

open Omnius.Lib List Option SortedMap InputRound Demo

variable {stored : StoredTask} {next : TaskSnapshot} {now : Instant} {transition : TaskTransition}
  {row : TaskRow} {w w' : World} {lease : Option LeaseFence}

variable {codecs : Codecs}

/-! ## 1. Rounds -/

/-- The questions of a round, without the answers. -/
def InputRound.questions (round : InputRound) : SortedMap InputKey InputExchange :=
  round.exchanges.mapWithKey fun _ exchange => ⟨exchange.request, none⟩

/-- What the reader checks of one exchange. -/
structure ValidExchange (codecs : Codecs) (exchange : InputExchange) : Prop where
  request : InputExchange.pending codecs exchange.request = .ok ⟨exchange.request, none⟩
  response : ∀ response, exchange.response = some response →
    validateJsonObject response maxTaskInputBytes = .ok ()

/-- A round whose questions were accepted, and all of whose answers were accepted in some batch. -/
structure Asked (codecs : Codecs) (round : InputRound) : Prop where
  number : round.number ≠ 0
  nonempty : round.exchanges.isEmpty = false
  count : round.exchanges.size ≤ maxInputRequests
  questions : (exchangesJson round.questions).size ≤ maxTaskInputBytes
  valid : ∀ key exchange, (key, exchange) ∈ round.exchanges.entries → ValidExchange codecs exchange

section Rounds

variable {round : InputRound} {responses : SortedMap InputKey Json} {batch : InputResponses}
  {key : InputKey} {request : Json}

theorem Asked.of_requests {number : Nat} {requestState : TaskRequestState}
    {requests : SortedMap InputKey Json}
    (h : ofRequests codecs number requestState requests = .ok round) :
    Asked codecs round ∧ (exchangesJson round.exchanges).size ≤ maxTaskInputBytes := by
  obtain ⟨exchanges, hexc, hnew⟩ := ofRequests_eq_ok h
  obtain ⟨rfl, hnum, hnon, hct, hsize⟩ := InputRound.new_eq_ok.mp hnew
  have hpen : ∀ key exchange, (key, exchange) ∈ exchanges.entries →
      exchange.response = none ∧
        InputExchange.pending codecs exchange.request = .ok ⟨exchange.request, none⟩ := by
    intro key exchange hmem
    obtain ⟨request, -, hrqt⟩ := mem_of_traverse hexc hmem
    have hshape := pending_request hrqt
    subst hshape
    exact ⟨rfl, hrqt⟩
  have hqus : InputRound.questions ⟨number, requestState, exchanges⟩ = exchanges := by
    refine mapWithKey_id fun key exchange hmem => ?_
    rw [← (hpen key exchange hmem).1]
  refine ⟨⟨hnum, hnon, hct, by rw [hqus]; exact hsize, ?_⟩, hsize⟩
  intro key exchange hmem
  obtain ⟨hnone, hrqt⟩ := hpen key exchange hmem
  refine ⟨hrqt, fun response hresp => ?_⟩
  rw [hnone] at hresp
  cases hresp

theorem questions_apply (round : InputRound) (responses : InputResponses) :
    (round.apply responses).round.questions = round.questions := by
  unfold InputRound.questions
  rw [apply_exchanges, mapWithKey_mapWithKey]
  simp

theorem InputResponses.new_eq_ok :
    InputResponses.new responses = .ok batch ↔ batch = ⟨responses⟩ ∧ responses.isEmpty = false ∧
      responses.size ≤ maxInputRequests ∧
      (∀ key response, (key, response) ∈ responses.entries →
        validateJsonObject response maxTaskInputBytes = .ok ()) ∧
      (InputResponses.toJson responses).size ≤ maxTaskInputBytes := by
  unfold InputResponses.new
  split
  · next hgd =>
    refine ⟨nofun, ?_⟩
    rintro ⟨-, hnon, hct, -, -⟩
    simp [hnon, Nat.not_lt.mpr hct] at hgd
  · next hgd =>
    simp only [Bool.or_eq_true, decide_eq_true_eq, gt_iff_lt, not_or, Nat.not_lt,
      Bool.not_eq_true] at hgd
    constructor
    · intro h
      split at h
      · cases h
      rename_i validated hvald
      have hsame : validated = responses := traverse_same (fun key response checked
        hchk => by
          obtain ⟨-, -, heq⟩ := map_eq_ok.mp hchk
          exact heq.symm) hvald
      subst hsame
      split at h
      · cases h
      rename_i hsize
      cases h
      refine ⟨rfl, hgd.1, hgd.2, fun key response hmem => ?_, validateSerialized_eq_ok.mp hsize⟩
      obtain ⟨response', -, hchk⟩ := mem_of_traverse hvald hmem
      obtain ⟨⟨⟩, hval, heq⟩ := map_eq_ok.mp hchk
      exact heq ▸ hval
    · rintro ⟨rfl, -, -, hval, hsize⟩
      have hvald : responses.traverse (fun _ response =>
          (validateJsonObject response maxTaskInputBytes).map fun _ => response) =
          .ok responses := by
        rw [traverse_of_ok (g := fun _ response => response) fun key response hmem => by
          rw [hval key response hmem]; rfl, mapWithKey_id fun _ _ _ => rfl]
      rw [hvald]
      simp [validateSerialized_eq_ok.mpr hsize]

theorem Asked.apply (h : Asked codecs round) (hbatch : InputResponses.new responses = .ok batch) :
    Asked codecs (round.apply batch).round where
  __ := h
  nonempty := by
    rw [apply_exchanges, isEmpty_mapWithKey]
    exact h.nonempty
  count := by
    rw [apply_exchanges, size_mapWithKey]
    exact h.count
  questions := by
    rw [questions_apply]
    exact h.questions
  valid := by
    intro key exchange hmem
    rw [apply_exchanges] at hmem
    obtain ⟨before, hbef, rfl⟩ := mem_mapWithKey.mp hmem
    have hval := h.valid key before hbef
    obtain ⟨rfl, -, -, hrsps, -⟩ := InputResponses.new_eq_ok.mp hbatch
    refine ⟨by rw [fill_request]; exact hval.request, fun response hsome => ?_⟩
    rw [fill_response] at hsome
    rcases or_eq_some_iff.mp hsome with hold | ⟨-, hnew⟩
    · exact hval.response response hold
    · exact hrsps key response (SortedMap.get?_eq_some.mp hnew)

/-- The reader rebuilds a waiting round, if questions and answers together are within the bound. -/
theorem Asked.restored (h : Asked codecs round)
    (hsize : (exchangesJson round.exchanges).size ≤ maxTaskInputBytes) :
    validateRestoredState codecs (.inputRequired round) = .ok (.inputRequired round) := by
  have hexc : round.exchanges.traverse (restoreExchange codecs) = .ok round.exchanges := by
    rw [traverse_of_ok (g := fun _ exchange => exchange) fun key exchange hmem => ?_,
      mapWithKey_id fun _ _ _ => rfl]
    have hval := h.valid key exchange hmem
    obtain ⟨request, response⟩ := exchange
    unfold restoreExchange
    cases response with
    | none => simp [key.valid, hval.request]
    | some response => simp [key.valid, hval.request, hval.response response rfl]
  have hnew : InputRound.new round.number round.requestState round.exchanges = .ok round :=
    InputRound.new_eq_ok.mpr ⟨rfl, h.number, h.nonempty, h.count, hsize⟩
  unfold validateRestoredState
  simp [round.requestState.valid, hexc, hnew]

/-- And without that bound it never does. -/
theorem validateRestoredState_of_large
    (hsize : maxTaskInputBytes < (exchangesJson round.exchanges).size) :
    ∃ e, validateRestoredState codecs (.inputRequired round) = .error e := by
  simp only [validateRestoredState, round.requestState.valid]
  cases hexc : round.exchanges.traverse (restoreExchange codecs) with
  | error e => exact ⟨e, rfl⟩
  | ok exchanges =>
    cases traverse_same restoreExchange_same hexc
    cases hnew : InputRound.new round.number round.requestState round.exchanges with
    | error e => exact ⟨e, by simp [hnew]⟩
    | ok rebuilt => exact absurd (InputRound.new_eq_ok.mp hnew).2.2.2.2 (Nat.not_le.mpr hsize)

/-- The round as it was asked. -/
def InputRound.reopened (round : InputRound) : InputRound :=
  { round with exchanges := round.questions }

theorem answered_of_complete (h : round.isComplete = true) {exchange : InputExchange}
    (hmem : (key, exchange) ∈ round.exchanges.entries) :
    ∃ response, exchange.response = some response := by
  have hdone := all_eq_true.mp h (key, exchange) hmem
  cases hresp : exchange.response with
  | none => simp [InputExchange.isPending, hresp] at hdone
  | some response => exact ⟨response, rfl⟩

/-- All the answers at once make the round that it became batch by batch. -/
theorem apply_answers (h : round.isComplete = true) :
    (round.reopened.apply ⟨round.answers⟩).round = round := by
  have hexc : (round.reopened.apply ⟨round.answers⟩).round.exchanges = round.exchanges := by
    rw [apply_exchanges, reopened, InputRound.questions, mapWithKey_mapWithKey]
    refine mapWithKey_id fun key exchange hmem => ?_
    obtain ⟨response, hresp⟩ := answered_of_complete h hmem
    have hget : round.answers.get? key = some response :=
      SortedMap.get?_eq_some.mpr (mem_mapWithKey.mpr ⟨exchange, hmem, by rw [hresp]; rfl⟩)
    obtain ⟨request, _⟩ := exchange
    cases hresp
    rw [InputResponses.fill, hget]
    rfl
  calc (round.reopened.apply ⟨round.answers⟩).round
      = { round with exchanges := (round.reopened.apply ⟨round.answers⟩).round.exchanges } := rfl
    _ = round := by rw [hexc]

variable {responses : InputResponses}

theorem changed_of_pending {response : Json}
    (hpen : (key, ⟨request, none⟩) ∈ round.exchanges.entries)
    (hansw : (key, response) ∈ responses.responses.entries) :
    (round.apply responses).changed = true := by
  refine any_eq_true.mpr ⟨(key, response), hansw, ?_⟩
  rw [SortedMap.get?_eq_some.mpr hpen]
  rfl

theorem encodeCompletedRound_eq_ok (h : encodeCompletedRound round = .ok round) :
    round.toJson.size ≤ inputRoundMaxBytes ∧ round.isComplete = true := by
  unfold encodeCompletedRound at h
  split at h
  · cases h
  rename_i hgd
  simp only [gt_iff_lt, Bool.or_eq_true, decide_eq_true_eq, not_or, Nat.not_lt,
    Bool.not_eq_eq_eq_not, Bool.not_true, Bool.not_eq_false] at hgd
  exact hgd

/-- **A completed round decodes to itself**, if its answers together are within the bound of a
batch. -/
theorem Asked.decoded (h : Asked codecs round) (henc : encodeCompletedRound round = .ok round)
    (hsize : (InputResponses.toJson round.answers).size ≤ maxTaskInputBytes) :
    decodeCompletedRound codecs round = .ok round := by
  obtain ⟨hshort, hcom⟩ := encodeCompletedRound_eq_ok henc
  have hqus : round.exchanges.traverse (reopenExchange codecs) = .ok round.questions :=
    traverse_of_ok fun key exchange hmem => by
      rw [reopenExchange, key.valid]
      exact (h.valid key exchange hmem).request
  have hrsps : responsesOf round = .ok round.answers :=
    traverse_of_ok fun key exchange hmem => by
      obtain ⟨response, hresp⟩ := answered_of_complete hcom hmem
      rw [hresp]
      rfl
  have hpen : InputRound.new round.number round.requestState round.questions =
      .ok round.reopened :=
    InputRound.new_eq_ok.mpr ⟨rfl, h.number, by simpa [InputRound.questions] using h.nonempty,
      by simpa [InputRound.questions] using h.count, h.questions⟩
  have hbatch : InputResponses.new round.answers = .ok ⟨round.answers⟩ := by
    refine InputResponses.new_eq_ok.mpr ⟨rfl, by simpa [InputRound.answers] using h.nonempty,
      by simpa [InputRound.answers] using h.count, ?_, hsize⟩
    intro key response hmem
    obtain ⟨exchange, hexch, heq⟩ := mem_mapWithKey.mp hmem
    obtain ⟨stored, hsto⟩ := answered_of_complete hcom hexch
    rw [hsto, getD_some] at heq
    exact (h.valid key exchange hexch).response response (heq ▸ hsto)
  have hchd : (round.reopened.apply ⟨round.answers⟩).changed = true := by
    have hnon := h.nonempty
    cases hents : round.exchanges.entries with
    | nil => simp [SortedMap.isEmpty, hents] at hnon
    | cons first others =>
      have hfst : (first.1, first.2) ∈ round.exchanges.entries := by simp [hents]
      exact changed_of_pending (mem_mapWithKey.mpr ⟨first.2, hfst, rfl⟩)
        (mem_mapWithKey.mpr ⟨first.2, hfst, rfl⟩)
  have hrd := apply_answers hcom
  have hdone : (round.reopened.apply ⟨round.answers⟩).complete = true := by
    have hsame : (round.reopened.apply ⟨round.answers⟩).complete =
        (round.reopened.apply ⟨round.answers⟩).round.isComplete := rfl
    rw [hsame, hrd, hcom]
  unfold decodeCompletedRound
  rw [if_neg (Nat.not_lt.mpr hshort)]
  simp [hqus, hrsps, hpen, hbatch, hchd, hdone, hrd]

/-! ## 2. Snapshots -/

/-- What the reader checks of a snapshot. -/
structure Restorable (codecs : Codecs) (snapshot : TaskSnapshot) : Prop where
  generation : 1 ≤ snapshot.generation
  version : snapshot.generation ≤ snapshot.version
  created : snapshot.createdAt ≤ snapshot.updatedAt
  ttl : 1 ≤ (snapshot.expiresAt - snapshot.createdAt) / 1000
  ttl_le : (snapshot.expiresAt - snapshot.createdAt) / 1000 ≤ 365 * 24 * 60 * 60 * 1000
  poll : 100 ≤ snapshot.pollIntervalMs
  poll_le : snapshot.pollIntervalMs ≤ 60000
  cancelled : snapshot.state = .cancelled → snapshot.cancellationRequested = true
  timing : expiryTimingIsValid snapshot.state snapshot.updatedAt snapshot.expiresAt = true
  waiting : ∀ round, snapshot.state = .inputRequired round → Asked codecs round ∧
    (exchangesJson round.exchanges).size ≤ maxTaskInputBytes

variable {snapshot : TaskSnapshot} {taskId : TaskId} {owner : TaskOwner}

theorem Restorable.restore (h : Restorable codecs snapshot) :
    snapshot.restore codecs = .ok snapshot := by
  have hst : validateRestoredState codecs snapshot.state = .ok snapshot.state := by
    cases hst : snapshot.state with
    | inputRequired round =>
      obtain ⟨hasked, hsize⟩ := h.waiting round hst
      exact hasked.restored hsize
    | _ => rfl
  unfold TaskSnapshot.restore
  rw [hst]
  dsimp only
  have hcan : ¬(snapshot.state = .cancelled ∧ snapshot.cancellationRequested = false) := by
    rintro ⟨hst, hnot⟩
    rw [h.cancelled hst] at hnot
    cases hnot
  have httl : (snapshot.expiresAt - snapshot.createdAt) / 1000 ≠ 0 := Nat.ne_of_gt h.ttl
  simp [h.created, httl, h.ttl_le, h.poll, h.poll_le, h.version, h.timing] at hcan ⊢
  exact hcan

theorem encodeStoredTask_eq_ok (h : encodeStoredTask codecs stored = .ok stored) :
    validateStoredConsistency codecs stored = .ok () ∧
      (stored.toJson codecs).size ≤ taskDocumentMaxBytes := by
  unfold encodeStoredTask at h
  split at h
  · cases h
  rename_i hcst
  split at h
  · cases h
  · next hsize => exact ⟨hcst, Nat.not_lt.mp hsize⟩

/-- **A task that was written decodes to itself**, if its snapshot can be restored. -/
theorem Restorable.decoded (h : Restorable codecs stored.snapshot)
    (henc : encodeStoredTask codecs stored = .ok stored) :
    decodeStoredTask codecs stored = .ok stored := by
  obtain ⟨hcst, hsize⟩ := encodeStoredTask_eq_ok henc
  have hctrs : ¬(stored.snapshot.generation = 0 ∨ stored.snapshot.version = 0) := by
    have hgen := h.generation
    have hver := h.version
    omega
  unfold decodeStoredTask
  rw [if_neg (Nat.not_lt.mpr hsize), if_neg (not_not.mpr stored.execution.budget.reservation.valid),
    if_neg (not_not.mpr stored.execution.valid),
    if_neg (not_not.mpr stored.snapshot.budget.reservation.valid),
    if_neg (by simpa using hctrs), h.restore]
  simp [hcst]

/-- The round that a task waits for can be read again. -/
def Waits (codecs : Codecs) (snapshot : TaskSnapshot) : Prop :=
  ∀ round, snapshot.state = .inputRequired round → Asked codecs round ∧
    (exchangesJson round.exchanges).size ≤ maxTaskInputBytes

/-- Every transition keeps what the reader checks, but for the round it may bring. -/
theorem Restorable.change (h : Restorable codecs snapshot)
    (hlive : snapshot.state.isTerminal = false) (hlat : snapshot.updatedAt < now)
    (hch : Change snapshot now transition next)
    (hrd : Waits codecs next) :
    Restorable codecs next := by
  have hcrt : snapshot.createdAt ≤ now := h.created.trans hlat.le
  have hver : snapshot.generation ≤ snapshot.version + 1 := Nat.le_succ_of_le h.version
  cases hch with
  | requireInput hwk hopen | recordInput hwt hsucc hinc hopen
  | complete hopen =>
    exact ⟨h.generation, hver, hcrt, h.ttl, h.ttl_le, h.poll, h.poll_le, nofun,
      decide_eq_true hopen, hrd⟩
  | resume hwt hsucc hcom hopen =>
    exact ⟨Nat.succ_le_succ (Nat.zero_le _), Nat.succ_le_succ h.version, hcrt, h.ttl, h.ttl_le,
      h.poll, h.poll_le, by rintro ⟨⟩, decide_eq_true hopen, hrd⟩
  | requestCancellation hreq hopen =>
    refine ⟨h.generation, hver, hcrt, h.ttl, h.ttl_le, h.poll, h.poll_le, fun _ => rfl, ?_, hrd⟩
    -- The task is live, so it has not expired.
    cases hst : snapshot.state with
    | working | inputRequired round => exact decide_eq_true hopen
    | _ =>
      rw [hst] at hlive
      cases hlive
  | alreadyRequested => exact h
  | @fail failure hexp =>
    refine ⟨h.generation, hver, hcrt, h.ttl, h.ttl_le, h.poll, h.poll_le, by rintro ⟨⟩, ?_, hrd⟩
    by_cases hfail : failure = .expired
    · subst hfail
      exact decide_eq_true (hexp.mp rfl)
    · have hopen : now < snapshot.expiresAt := Nat.not_le.mp fun hlate => hfail (hexp.mpr hlate)
      cases failure with
      | expired => exact absurd rfl hfail
      | _ => exact decide_eq_true hopen
  | cancel hopen =>
    exact ⟨h.generation, hver, hcrt, h.ttl, h.ttl_le, h.poll, h.poll_le, fun _ => rfl,
      decide_eq_true hopen, hrd⟩

theorem Restorable.initial {capability : CapabilityKey} {identity : TaskIdentity}
    {idempotency : TaskIdempotency} {budget : TaskBudget} {jobId : JobId} {createdAt : Instant}
    {config : TaskConfig} {fresh : TaskSnapshot}
    (h : (TaskSnapshot.initial taskId owner capability identity idempotency budget jobId createdAt
      config).withAuthoritativeCreationTime now = .ok fresh) : Restorable codecs fresh := by
  obtain ⟨-, -, -, -, rfl⟩ := withAuthoritativeCreationTime_eq_ok h
  have httl := config.ttl_pos
  have httl_le := config.ttl_le
  have hpoll := config.poll_pos
  have hpoll_le := config.poll_le
  have hlifetime : now + (createdAt + config.ttl - createdAt) - now = config.ttl := by
    rw [Nat.add_sub_cancel_left, Nat.add_sub_cancel_left]
  refine ⟨Nat.le_refl 1, Nat.le_refl 1, Nat.le_refl now, ?_, ?_, ?_, ?_, by rintro ⟨⟩, ?_,
    by rintro _ ⟨⟩⟩
  · change 1 ≤ (now + (createdAt + config.ttl - createdAt) - now) / 1000
    rw [hlifetime]
    exact (Nat.le_div_iff_mul_le (by decide)).mpr httl
  · change (now + (createdAt + config.ttl - createdAt) - now) / 1000 ≤ _
    rw [hlifetime]
    exact Nat.div_le_of_le_mul httl_le
  · exact (Nat.le_div_iff_mul_le (by decide)).mpr hpoll
  · exact Nat.div_le_of_le_mul hpoll_le
  · refine decide_eq_true (Nat.lt_add_of_pos_right ?_)
    change 0 < createdAt + config.ttl - createdAt
    rw [Nat.add_sub_cancel_left]
    exact Nat.lt_of_lt_of_le (by decide) httl

/-! ## 3. Rows and histories -/

theorem Opened.decoded (h : Opened codecs row)
    (hsto : decodeStoredTask codecs row.document = .ok row.document) :
    decodeTaskRecord codecs row = .ok ⟨row.document, row.lease⟩ := by
  have hval : row.lease.all (leaseIsValid row.document.snapshot) = true := by
    cases hls : row.lease with
    | none => rfl
    | some fence => exact h.lease_valid fence hls
  rw [decodeTaskRecord, hsto]
  simp [bind, Except.bind, h.columns, hval, h.lease_fits]

/-- A row without a lease is in order, unless its task works on although it was told to stop. -/
theorem Opened.unleased {execution : TaskExecution}
    (h : snapshot.state = .working → snapshot.cancellationRequested = false) :
    Opened codecs ⟨columnsOf codecs snapshot, ⟨snapshot, execution⟩, none⟩ where
  columns := rfl
  lease_valid := by rintro _ ⟨⟩
  lease_fits := by
    unfold leaseFitsState
    split
    · next hwk => rw [h hwk]
    · rfl

theorem leaseFitsState_some {fence : LeaseFence} (hwk : snapshot.state = .working) :
    leaseFitsState snapshot (some fence) = true ↔
      snapshot.version = fence.version + if snapshot.cancellationRequested then 1 else 0 := by
  cases hcan : snapshot.cancellationRequested <;>
    simp [leaseFitsState, hwk, hcan]

theorem loadRounds_eq_ok (rows : List RoundRow) (expected : Nat)
    (hnums : rows.map (·.roundNumber) = List.range' expected rows.length)
    (hrows : ∀ row ∈ rows, row.completedGeneration = row.roundNumber ∧
      row.document.number = row.roundNumber ∧ row.taskVersion ≤ snapshot.version ∧
      decodeCompletedRound codecs row.document = .ok row.document) :
    loadRounds codecs snapshot expected rows = .ok (rows.map (·.document)) := by
  induction rows generalizing expected with
  | nil => rfl
  | cons row rest ih =>
    obtain ⟨hgen, hdoc, hver, hdecoded⟩ := hrows row mem_cons_self
    rw [map_cons, length_cons, range'_succ, List.cons.injEq] at hnums
    have hrest := ih (expected + 1) hnums.2 fun row' hmem =>
      hrows row' (mem_cons_of_mem _ hmem)
    rw [loadRounds, if_neg]
    · simp [bind, Except.bind, hdecoded, hrest, hdoc, hnums.1]
    · simp [hgen, hnums.1, hver]

/-! ## 4. Runs -/

/-- Everything stored can be read. -/
structure Readable (codecs : Codecs) (w : World) : Prop where
  blank : w.row = none → w.rounds = []
  opened : ∀ row, w.row = some row → Opened codecs row
  restorable : ∀ row, w.row = some row → Restorable codecs row.document.snapshot
  current : ∀ row, w.row = some row → row.document ∈ w.persisted
  persisted : ∀ stored ∈ w.persisted, decodeStoredTask codecs stored = .ok stored
  filed : Filed w.rounds
  generation : ∀ row, w.row = some row → row.document.snapshot.generation = w.rounds.length + 1
  versions : ∀ row, w.row = some row → ∀ round ∈ w.rounds,
    round.taskVersion ≤ row.document.snapshot.version
  rounds : ∀ round ∈ w.rounds, decodeCompletedRound codecs round.document = .ok round.document

theorem Readable.empty : Readable codecs World.empty where
  blank _ := rfl
  opened := by rintro row ⟨⟩
  restorable := by rintro row ⟨⟩
  current := by rintro row ⟨⟩
  persisted := by rintro stored ⟨⟩
  filed := ⟨rfl, by rintro _ ⟨⟩, by rintro _ ⟨⟩⟩
  generation := by rintro row ⟨⟩
  versions := by rintro row ⟨⟩
  rounds := by rintro round ⟨⟩

theorem Readable.of_row (hrow : w.row = some row) (hop : Opened codecs row)
    (hrst : Restorable codecs row.document.snapshot) (hcur : row.document ∈ w.persisted)
    (hper : ∀ stored ∈ w.persisted, decodeStoredTask codecs stored = .ok stored)
    (hfiled : Filed w.rounds)
    (hgen : row.document.snapshot.generation = w.rounds.length + 1)
    (hversions : ∀ round ∈ w.rounds, round.taskVersion ≤ row.document.snapshot.version)
    (hrds : ∀ round ∈ w.rounds,
      decodeCompletedRound codecs round.document = .ok round.document) : Readable codecs w := by
  have hsame {other : TaskRow} (h : w.row = some other) : row = other :=
    Option.some.inj (hrow.symm.trans h)
  exact ⟨fun h => absurd (hrow.symm.trans h) nofun, fun _ h => hsame h ▸ hop,
    fun _ h => hsame h ▸ hrst, fun _ h => hsame h ▸ hcur, hper, hfiled,
    fun _ h => hsame h ▸ hgen, fun _ h => hsame h ▸ hversions, hrds⟩

theorem Readable.persisted_cons (h : Readable codecs w)
    (hper : w'.persisted = stored :: w.persisted)
    (hrst : Restorable codecs stored.snapshot)
    (henc : encodeStoredTask codecs stored = .ok stored) :
    ∀ other ∈ w'.persisted, decodeStoredTask codecs other = .ok other :=
  hper ▸ forall_mem_cons.mpr ⟨hrst.decoded henc, h.persisted⟩

theorem Readable.of_write (h : Readable codecs w)
    (hwr : Write codecs now w w' row transition next lease)
    (hop : Opened codecs ⟨columnsOf codecs next, ⟨next, row.document.execution⟩, lease⟩)
    (hrd : Waits codecs next)
    (hfiled : Filed w'.rounds) (hgen : next.generation = w'.rounds.length + 1)
    (hversions : ∀ round ∈ w'.rounds, round.taskVersion ≤ next.version)
    (hrds : ∀ round ∈ w'.rounds,
      decodeCompletedRound codecs round.document = .ok round.document) : Readable codecs w' := by
  have hrst : Restorable codecs next :=
    (h.restorable row hwr.was).change hwr.live hwr.later hwr.change hrd
  exact .of_row hwr.row_eq hop hrst (hwr.persisted ▸ mem_cons_self)
    (h.persisted_cons hwr.persisted hrst hwr.encoded) hfiled hgen hversions
    hrds

theorem Write.version_le (h : Write codecs now w w' row transition next lease) :
    row.document.snapshot.version ≤ next.version := by
  by_cases hsame : next = row.document.snapshot
  · rw [hsame]
  · rw [(h.moved hsame).version]
    exact Nat.le_succ _

theorem Readable.of_write_same (h : Readable codecs w)
    (hwr : Write codecs now w w' row transition next lease) (hrds : w'.rounds = w.rounds)
    (hop : Opened codecs ⟨columnsOf codecs next, ⟨next, row.document.execution⟩, lease⟩)
    (hrd : Waits codecs next)
    (hgen : next.generation = row.document.snapshot.generation) : Readable codecs w' := by
  refine h.of_write hwr hop hrd (hrds ▸ h.filed) ?_ ?_ (hrds ▸ h.rounds)
  · rw [hgen, h.generation row hwr.was, hrds]
  · rw [hrds]
    exact fun round hmem => (h.versions row hwr.was round hmem).trans hwr.version_le

theorem Readable.of_lease (h : Readable codecs w) (hwas : w.row = some row)
    (hrow : w'.row = some { row with lease }) (hop : Opened codecs { row with lease })
    (hrds : w'.rounds = w.rounds) (hper : w'.persisted = w.persisted) :
    Readable codecs w' :=
  .of_row hrow hop (h.restorable row hwas) (hper ▸ h.current row hwas)
    (hper ▸ h.persisted) (hrds ▸ h.filed) (hrds ▸ h.generation row hwas)
    (hrds ▸ h.versions row hwas) (hrds ▸ h.rounds)

theorem Opened.granted {claim : ExecutionClaim} (h : Opened codecs row)
    (hwk : row.document.snapshot.state = .working)
    (hnc : row.document.snapshot.cancellationRequested = false)
    (hjob : row.document.snapshot.currentJobId = claim.jobId)
    (hgen : row.document.snapshot.generation = claim.generation)
    (hlive : now < row.document.snapshot.expiresAt) :
    Opened codecs { row with lease := some ⟨claim.jobId, claim.generation,
      row.document.snapshot.version, now,
      min (now + executionTimeout) row.document.snapshot.expiresAt⟩ } where
  __ := h
  lease_valid := by
    rintro fence ⟨⟩
    have hlasts : now < min (now + executionTimeout) row.document.snapshot.expiresAt :=
      lt_min (Nat.lt_add_of_pos_right (by decide)) hlive
    simp [leaseIsValid, hjob, hgen, Nat.not_le.mpr hlasts]
  lease_fits := by
    refine (leaseFitsState_some hwk).mpr ?_
    rw [hnc]
    rfl

/-- A lease that is given up at the version of its grant leaves a row without a request to stop. -/
theorem Opened.released {request : LeaseRef} (h : Opened codecs row)
    (hhd : exactLease row.lease request = true)
    (hver : row.document.snapshot.version = request.expectedVersion) :
    Opened codecs { row with lease := none } := by
  obtain ⟨fence, hfe, hexact⟩ := (any_eq_true _ _).mp hhd
  simp only [Bool.and_eq_true, decide_eq_true_eq] at hexact
  have hfits := h.lease_fits
  have hnc : row.document.snapshot.state = .working →
      row.document.snapshot.cancellationRequested = false := by
    intro hwk
    rw [hfe] at hfits
    have hnext := (leaseFitsState_some hwk).mp hfits
    cases hcan : row.document.snapshot.cancellationRequested with
    | false => rfl
    | true =>
      rw [hcan, hexact.1.2, hver, if_pos rfl] at hnext
      exact absurd hnext (Nat.ne_of_lt (Nat.lt_succ_self _))
  have hrow : ({ row with lease := none } : TaskRow) = ⟨columnsOf codecs row.document.snapshot,
      ⟨row.document.snapshot, row.document.execution⟩, none⟩ := by
    rw [← h.columns]
  rw [hrow]
  exact .unleased hnc

theorem Signal.opened (h : Signal codecs now w w' row next) :
    Opened codecs ⟨columnsOf codecs next, ⟨next, row.document.execution⟩, row.lease⟩ := by
  obtain ⟨hwk, hreq⟩ := h.next
  have hbef := h.write.opened
  have hnc := h.notCancelled
  cases h.write.change with
  | requestCancellation =>
    refine ⟨rfl, fun fence hfe => ?_, ?_⟩
    · have hval := hbef.lease_valid fence hfe
      simp only [leaseIsValid, ge_iff_le, ne_eq, gt_iff_lt, Bool.not_eq_eq_eq_not, Bool.not_true,
        Bool.or_eq_false_iff, decide_eq_false_iff_not, Decidable.not_not, Nat.not_lt] at hval ⊢
      exact ⟨hval.1, Nat.le_succ_of_le hval.2⟩
    · have hfits := hbef.lease_fits
      obtain ⟨fence, hfe⟩ := isSome_iff_exists.mp h.leased
      have hst : row.document.snapshot.state = .working := hwk
      rw [hfe] at hfits ⊢
      have hver := (leaseFitsState_some hst).mp hfits
      rw [hnc] at hver
      refine (leaseFitsState_some hwk).mpr ?_
      exact congrArg Nat.succ hver
  | alreadyRequested hcan =>
    rw [hnc] at hcan
    cases hcan

theorem Readable.step {a : Action} (h : Readable codecs w) (hcons : a.Constructed codecs)
    (hfits : a.Fits w now) (hstep : (repository codecs).step w (now, a) = some w') :
    Readable codecs w' := by
  obtain ⟨heff, -, -⟩ := step_effect hstep
  cases heff with
  | idle row_eq rounds persisted =>
    -- What can be read depends on these three fields alone.
    cases w
    cases w'
    cases row_eq
    cases rounds
    cases persisted
    exact { h with }
  | created was checked fresh encoded row_eq rounds persisted =>
    obtain ⟨taskId, owner, capability, identity, idempotency, budget, jobId, createdAt, config,
      hinitial⟩ := hcons
    have hblank : w'.rounds = [] := rounds.trans (h.blank was)
    rw [hinitial] at fresh
    have hrst : Restorable codecs _ := Restorable.initial fresh
    obtain ⟨hgen, -, -, hnc, hfr⟩ := withAuthoritativeCreationTime_eq_ok fresh
    refine .of_row row_eq (.unleased fun _ => ?_) hrst (persisted ▸ mem_cons_self)
      (h.persisted_cons persisted hrst encoded) (rounds ▸ h.filed) ?_ ?_ (rounds ▸ h.rounds)
    · rw [hfr]
      exact hnc
    · rw [hblank, hfr]
      exact hgen
    · rw [hblank]
      exact nofun
  | granted was opened working notCancelled job generation live loaded fence_eq row_eq rounds
      persisted =>
    subst fence_eq
    exact h.of_lease was row_eq (opened.granted working notCancelled job generation live) rounds
      persisted
  | released was opened holds version row_eq rounds persisted =>
    exact h.of_lease was row_eq (opened.released holds version) rounds persisted
  | paused write holds notCancelled rounds =>
    obtain ⟨number, requestState, requests, hrd⟩ := hcons
    have hasked := Asked.of_requests hrd
    refine h.of_write_same write rounds (.unleased ?_) ?_ ?_
    · cases write.change
      rintro ⟨⟩
    · cases write.change
      rintro _ ⟨⟩
      exact hasked
    · cases write.change
      rfl
  | recorded waiting write rounds accepted =>
    obtain ⟨responses, hbatch⟩ := hcons
    have hasked := ((h.restorable _ write.was).waiting _ waiting).1.apply hbatch
    have hsize := hfits _ _ accepted
    refine h.of_write_same write rounds (.unleased ?_) ?_ ?_
    · cases write.change
      rintro ⟨⟩
    · cases write.change with
      | recordInput hwt hsucc hinc hopen =>
        rintro _ ⟨⟩
        rw [hinc] at hsize
        exact ⟨hasked, hsize⟩
    · cases write.change
      rfl
  | resumed waiting write encoded number rounds accepted =>
    obtain ⟨responses, hbatch⟩ := hcons
    have hasked := ((h.restorable _ write.was).waiting _ waiting).1.apply hbatch
    have hsize := hfits _ _ accepted
    have hgen := h.generation _ write.was
    have hcom : (InputRound.apply _ _).round.isComplete = true :=
      (encodeCompletedRound_eq_ok encoded).2
    rw [if_pos hcom] at hsize
    refine h.of_write write (.unleased ?_) ?_
      (rounds ▸ h.filed.append (number.trans hgen) number.symm rfl) ?_ ?_ ?_
    · cases write.change
      exact fun _ => rfl
    · cases write.change
      rintro _ ⟨⟩
    · rw [rounds, length_append, length_singleton, ← hgen]
      cases write.change
      rfl
    · rw [rounds]
      refine forall_mem_append.mpr ⟨fun round hold => ?_, forall_mem_singleton.mpr le_rfl⟩
      exact (h.versions _ write.was round hold).trans write.version_le
    · rw [rounds]
      exact forall_mem_append.mpr
        ⟨h.rounds, forall_mem_singleton.mpr (hasked.decoded encoded hsize)⟩
  | signalled signal =>
    refine h.of_write_same signal.write signal.rounds signal.opened ?_ ?_
    · intro round hst
      rw [signal.next.1] at hst
      cases hst
    · cases signal.write.change <;> rfl
  | ended write terminal holds rounds =>
    refine h.of_write_same write rounds (.unleased ?_) ?_ (write.moved_of_terminal terminal).2
    · intro hwk
      rw [hwk] at terminal
      cases terminal
    · intro round hst
      rw [hst] at terminal
      cases terminal

/-! ## 5. Everything stored reloads -/

/-- What a later operation can read back. -/
structure Reloads (codecs : Codecs) (w : World) : Prop where
  /-- Every task that was ever written decodes to itself. -/
  tasks : ∀ stored ∈ w.persisted, decodeStoredTask codecs stored = .ok stored
  /-- So does every completed round on file. -/
  rounds : ∀ round ∈ w.rounds, decodeCompletedRound codecs round.document = .ok round.document
  /-- The row is read without an integrity error, and so is the history for a worker. -/
  row : ∀ row, w.row = some row → decodeTaskRecord codecs row = .ok ⟨row.document, row.lease⟩
  history : ∀ row, w.row = some row →
    loadInputHistory codecs w row.document.snapshot = .ok (w.rounds.map (·.document))

theorem Readable.reloads (h : Readable codecs w) : Reloads codecs w where
  __ := h
  tasks := h.persisted
  row row hrow := (h.opened row hrow).decoded (h.persisted _ (h.current row hrow))
  history row hrow := by
    have hgen := h.generation row hrow
    rw [loadInputHistory, if_neg]
    · refine loadRounds_eq_ok w.rounds 1 h.filed.numbers fun round hrd => ?_
      exact ⟨h.filed.generation round hrd, h.filed.document round hrd,
        h.versions row hrow round hrd, h.rounds round hrd⟩
    · simp [hgen]

/-- **Stored tasks reload**, as long as answers stay within the bounds of the reader. -/
theorem stored_tasks_reload {w : World}
    (hrun : (repository codecs).ReachIf (fun w a => a.2.Constructed codecs ∧ a.2.Fits w a.1)
      World.empty w) : Reloads codecs w := by
  have hreadable : Readable codecs w := hrun.invariant .empty
    fun u ⟨now, a⟩ v hu ha hstep => hu.step ha.1 ha.2 hstep
  exact hreadable.reloads

/-! ## 6. An answer that is too long for its round -/

theorem CheckedRun.reloadRun {actions : List (Instant × Action)}
    (h : CheckedRun codecs w actions w') (hcons : ∀ a ∈ actions, a.2.Constructed codecs) :
    (repository codecs).ReachIf (fun w a => a.2.Constructed codecs ∧ a.2.Fits w a.1) w w' :=
  Machine.reachIf_of_runIf_imp actions (fun a ha _ hchk =>
    And.intro (hcons a ha) (fits_of_decided (Bool.and_eq_true_iff.mp hchk).2)) h

/-- The snapshot that a partial answer leaves. -/
def TaskSnapshot.recorded (snapshot : TaskSnapshot) (now : Instant) (round : InputRound) :
    TaskSnapshot :=
  { snapshot with
    version := snapshot.version + 1
    updatedAt := now
    state := .inputRequired round }

/-- **A round that has grown too long is not read again.** -/
theorem decodeStoredTask_of_large (hst : stored.snapshot.state = .inputRequired round)
    (hsize : maxTaskInputBytes < (exchangesJson round.exchanges).size) :
    decodeStoredTask codecs stored = .error .integrity := by
  obtain ⟨e, he⟩ : ∃ e, validateRestoredState codecs (.inputRequired round) = .error e :=
    validateRestoredState_of_large hsize
  have hrestore : stored.snapshot.restore codecs = .error e := by
    rw [TaskSnapshot.restore, hst, he]
  simp [decodeStoredTask, hrestore]

theorem get_of_unreadable {e : RepositoryError} (hrow : w.ownedRow owner taskId = some row)
    (h : decodeStoredTask codecs row.document = .error e) :
    get codecs w now owner taskId = .error e := by
  simp [get, hrow, decodeTaskRecord, h, bind, Except.bind]

end Rounds

namespace Demo

def longAnswer (n : Nat) : Json := .object [("x", .array (List.replicate n .null))]

theorem size_longAnswer (n : Nat) : (longAnswer (n + 1)).size = 5 * n + 12 := by
  have hkey : (Json.string "x").size = 3 := by decide
  have hnull : Json.null.size = 4 := by decide
  simp only [longAnswer, Json.size_object, Json.size_array, Json.fieldSize, map_cons,
    map_nil, sum_cons, sum_nil, map_replicate, sum_replicate_nat,
    length_replicate, length_cons, length_nil, hkey, hnull]
  omega

/-- The waiting task once the first question has this answer. -/
def answeredRound (response : Json) : InputRound :=
  (round.apply (answer key 2 response).responses).round

def answeredTask (response : Json) : StoredTask :=
  ⟨waiting.snapshot.recorded 4 (answeredRound response), execution⟩

theorem exchanges_answeredRound (response : Json) : (answeredRound response).exchanges.entries =
    [(key, ⟨request, some response⟩), (otherKey, ⟨request, none⟩)] := by
  have hne : ¬key = otherKey := by decide
  have hfst : (answer key 2 response).responses.responses.get? key = some response :=
    SortedMap.get?_eq_some.mpr (mem_singleton.mpr rfl)
  have hsec : (answer key 2 response).responses.responses.get? otherKey = none := by
    change SortedMap.lookup otherKey [(key, response)] = none
    rfl
  rw [answeredRound, apply_exchanges]
  rfl

theorem size_round (codecs : Codecs) (snapshot : TaskSnapshot) (execution : TaskExecution)
    {round other : InputRound} (hnum : round.number = other.number)
    (hst : round.requestState = other.requestState) :
    ((StoredTask.mk { snapshot with state := .inputRequired round } execution).toJson codecs).size
        + (exchangesJson other.exchanges).size =
      ((StoredTask.mk { snapshot with state := .inputRequired other } execution).toJson codecs).size
        + (exchangesJson round.exchanges).size := by
  simp only [StoredTask.toJson, TaskSnapshot.toJson, TaskState.toJson, InputRound.toJson,
    Json.size_object, Json.fieldSize, map_cons, map_nil, sum_cons, sum_nil,
    length_cons, hnum, hst]
  omega

theorem size_answeredRound (response : Json) :
    (exchangesJson (answeredRound response).exchanges).size + Json.null.size =
      (exchangesJson (answeredRound .null).exchanges).size + response.size := by
  simp only [exchangesJson, exchanges_answeredRound, InputExchange.toJson,
    Json.size_object, Json.fieldSize, map_cons, map_nil, sum_cons, sum_nil,
    getD_some, getD_none, length_cons, length_nil]
  omega

theorem size_batch (key : InputKey) (version : Nat) (response : Json) :
    (InputResponses.toJson (answer key version response).responses.responses).size =
      response.size + (Json.string key.text).size + 3 := by
  simp only [InputResponses.toJson, answer, Json.size_object, Json.fieldSize, map_cons,
    map_nil, sum_cons, sum_nil, length_cons, length_nil]
  omega

theorem answer_constructed {key : InputKey} {version : Nat} {fields : List (String × Json)}
    (hsize : (Json.object fields).size + (Json.string key.text).size + 3 ≤ maxTaskInputBytes) :
    (Action.updateInput (answer key version (.object fields))).Constructed lengthCodecs := by
  have hone : 1 ≤ maxInputRequests := by decide
  have hbatch := size_batch key version (.object fields)
  refine ⟨(answer key version (.object fields)).responses.responses,
    InputResponses.new_eq_ok.mpr ⟨rfl, rfl, hone, ?_, by rw [hbatch]; exact hsize⟩⟩
  intro other response hmem
  cases mem_singleton.mp hmem
  exact validateSerialized_eq_ok.mpr
    ((Nat.le_add_right _ _).trans ((Nat.le_add_right _ _).trans hsize))

theorem asked_constructed : ∀ a ∈ asked, a.2.Constructed lengthCodecs := by
  intro a ha
  simp only [asked, mem_cons, not_mem_nil, or_false] at ha
  rcases ha with rfl | rfl | rfl
  · exact ⟨_, _, _, _, _, _, _, _, _, rfl⟩
  · trivial
  · have hrd : ofRequests lengthCodecs 1 round.requestState
        (round.exchanges.mapWithKey fun _ exchange => exchange.request) = .ok round := by
      decide
    exact ⟨_, _, _, hrd⟩

theorem half_constructed : ∀ a ∈ half, a.2.Constructed lengthCodecs :=
  forall_mem_singleton.mpr (answer_constructed (by decide))

theorem full_constructed : ∀ a ∈ full, a.2.Constructed lengthCodecs :=
  forall_mem_singleton.mpr (answer_constructed (by decide))

end Demo

/-- Two questions are asked and answered in two batches. -/
theorem stored_tasks_reload_two_batches : ∃ w, (repository lengthCodecs).ReachIf
    (fun w a => a.2.Constructed lengthCodecs ∧ a.2.Fits w a.1) World.empty w ∧
    w.rounds.length = 1 ∧ w.persisted.length = 4 ∧ Reloads lengthCodecs w := by
  obtain ⟨w₁, w₂, w₃, hasked, -, -, hhalf, -, -, hfull, hrds, hper, -⟩ := states
  have hrun := ((hasked.reloadRun asked_constructed).trans
    (hhalf.reloadRun half_constructed)).trans (hfull.reloadRun full_constructed)
  exact ⟨w₃, hrun, hrds, hper, stored_tasks_reload hrun⟩

namespace Demo

theorem ownedRow_rowOf (hrow : w.row = some (rowOf stored))
    (htask : stored.snapshot.taskId = taskId) (how : stored.snapshot.owner = owner) :
    w.ownedRow owner taskId = some (rowOf stored) := by
  rw [World.ownedRow, hrow, filter_some]
  simp [rowOf, columnsOf, htask, how]

theorem asked_state : ∃ w, (repository lengthCodecs).ReachIf
    (fun w a => a.2.Constructed lengthCodecs ∧ a.2.Fits w a.1) World.empty w ∧ w.clock = 3 ∧
    w.row = some (rowOf waiting) ∧
    decodeTaskRecord lengthCodecs (rowOf waiting) = .ok ⟨waiting, none⟩ := by
  obtain ⟨w, -, -, hasked, hclk, hrow, -⟩ := states
  have hrun := hasked.reloadRun asked_constructed
  exact ⟨w, hrun, hclk, hrow, (stored_tasks_reload hrun).row _ hrow⟩

variable {response : Json}

/-- A long answer is within every bound that is checked when it is recorded. -/
theorem answeredTask_encoded (hsize : response.size ≤ maxTaskInputBytes) :
    encodeStoredTask lengthCodecs (answeredTask response) = .ok (answeredTask response) := by
  have hcst : validateStoredConsistency lengthCodecs (answeredTask response) = .ok () := by
    have hsame : validateStoredConsistency lengthCodecs (answeredTask response) =
        validateStoredConsistency lengthCodecs waiting := rfl
    rw [hsame]
    decide
  have hshort : ((answeredTask .null).toJson lengthCodecs).size ≤ 10000 := by decide +kernel
  have hdoc : ((answeredTask response).toJson lengthCodecs).size + _ =
      ((answeredTask .null).toJson lengthCodecs).size + _ :=
    size_round lengthCodecs (waiting.snapshot.recorded 4 round) execution rfl rfl
  have hrd := size_answeredRound response
  have hbound : maxTaskInputBytes + 10000 ≤ taskDocumentMaxBytes := by decide
  rw [encodeStoredTask, hcst]
  exact if_neg (by omega)

/-- **So it is recorded**: of the answer itself nothing is checked. -/
theorem answer_recorded (hclk : w.clock = 3) (hrow : w.row = some (rowOf waiting))
    (hreads : decodeTaskRecord lengthCodecs (rowOf waiting) = .ok ⟨waiting, none⟩)
    (hsize : response.size ≤ maxTaskInputBytes) :
    ∃ w', (repository lengthCodecs).step w (4, .updateInput (answer key 2 response)) = some w' ∧
      w'.row = some (rowOf (answeredTask response)) ∧ answeredTask response ∈ w'.persisted := by
  have hlat : ¬(4 : Instant) ≤ w.clock := by
    rw [hclk]
    decide
  have howned : w.ownedRow owner taskId = some (rowOf waiting) := ownedRow_rowOf hrow rfl rfl
  have hnext : waiting.snapshot.transitioned 2 (.recordInput (answeredRound response)) 4 =
      .ok (answeredTask response).snapshot := rfl
  have hchanged : (round.apply (answer key 2 response).responses).changed = true := rfl
  have hopen : (round.apply (answer key 2 response).responses).complete = false := rfl
  obtain ⟨w', hpersist, hrow', hmem⟩ : ∃ w', persistTask lengthCodecs w (rowOf waiting)
      (answeredTask response) 2 none = .ok w' ∧ w'.row = some (rowOf (answeredTask response)) ∧
      answeredTask response ∈ w'.persisted := by
    rw [persistTask, answeredTask_encoded hsize]
    exact ⟨_, rfl, rfl, List.mem_cons_self⟩
  have hadvance : advance lengthCodecs w (rowOf waiting) ⟨waiting, none⟩
      (.recordInput (answeredRound response)) 4 none =
        .ok (w', (answeredTask response).snapshot) := by
    rw [advance]
    dsimp only
    rw [show waiting.snapshot.version = 2 from rfl, hnext]
    exact congrArg (· >>= _) hpersist
  refine ⟨{ w' with clock := 4 }, ?_, hrow', hmem⟩
  simp only [answer, answeredRound] at hchanged hopen hadvance
  simp [repository, hlat, World.act, updateInputAtomic, answer, howned, hreads, bind, Except.bind,
    show waiting.snapshot.version = 2 from rfl, show waiting.snapshot.generation = 1 from rfl,
    show waiting.snapshot.state = .inputRequired round from rfl, show round.number = 1 from rfl,
    show ¬waiting.snapshot.expiresAt ≤ 4 by decide, hchanged, hopen, hadvance, Except.map]

end Demo

/-- **One accepted answer blocks its task**: a client answers one of two questions with just under a
mebibyte.  The batch is accepted and written, and what was written is never read again. -/
theorem partial_answer_blocks_task : ∃ w stored, (repository lengthCodecs).ReachIf
    (fun _ a => a.2.Constructed lengthCodecs) World.empty w ∧ stored ∈ w.persisted ∧
    decodeStoredTask lengthCodecs stored = .error .integrity ∧
    ∀ now, get lengthCodecs w now owner taskId = .error .integrity := by
  obtain ⟨w, hasked, hclk, hrow, hreads⟩ := asked_state
  have hrun := hasked.mono fun _ _ h => h.1
  have hmax : maxTaskInputBytes = 1048576 := rfl
  have hlong : (longAnswer (209711 + 1)).size = 1048567 := size_longAnswer 209711
  have hcons : (Action.updateInput (answer Demo.key 2
      (longAnswer (209711 + 1)))).Constructed lengthCodecs := by
    have hkey : (Json.string Demo.key.text).size = 3 := by decide
    rw [longAnswer] at hlong ⊢
    exact answer_constructed (by rw [hlong, hkey, hmax]; decide)
  -- From here on only the size of the answer matters.
  generalize longAnswer (209711 + 1) = response at hlong hcons
  have hsize : maxTaskInputBytes <
      (exchangesJson (answeredRound response).exchanges).size := by
    have hnull : Json.null.size = 4 := by decide
    have hopen : 14 ≤ (exchangesJson (answeredRound .null).exchanges).size := by
      decide
    have hrd := size_answeredRound response
    omega
  obtain ⟨w', hstep, hrow', hmem⟩ := answer_recorded hclk hrow hreads
    (show response.size ≤ maxTaskInputBytes by omega)
  have hunreadable : decodeStoredTask lengthCodecs (answeredTask response) =
      .error .integrity := decodeStoredTask_of_large rfl hsize
  exact ⟨w', _, hrun.tail hcons hstep, hmem, hunreadable,
    fun now => get_of_unreadable (ownedRow_rowOf hrow' rfl rfl) hunreadable⟩

end Omnius.Tasks
