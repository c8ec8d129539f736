/-
# What an operation of the repository can do

Nine operations, and a handful of effects on the row: nothing, a first version, a lease granted or
given up, or one transition written under a lease that is kept or dropped.  `Effect` lists them with
everything that is known when they happen, and `step_effect` says that a step of the repository has
no other.  The laws of a task's life are proved from this list.

* `decodeTaskRecord_eq_ok` -- reading a row gives back what was written, or fails: decoding checks
  and never repairs;
* `transitioned_eq_ok` -- what a transition needs and what it changes.
-/
import Omnius.Tasks.Repository
import Omnius.Lib.Attempt

namespace Omnius.Tasks

open Omnius.Lib

variable {round : InputRound} {snapshot next : TaskSnapshot} {row : TaskRow}
  {transition : TaskTransition} {lease : Option LeaseFence} {a : Action}

variable {codecs : Codecs}

/-! ## 1. Decoding checks -/

theorem pending_request {request : Json} {exchange : InputExchange}
    (h : InputExchange.pending codecs request = .ok exchange) : exchange = ⟨request, none⟩ := by
  unfold InputExchange.pending at h
  split at h
  · cases h
  split at h
  · cases h
    rfl
  · cases h

/-- Restoring checks, and changes nothing. -/
theorem restoreExchange_same (key : InputKey) (exchange restored : InputExchange)
    (h : restoreExchange codecs key exchange = .ok restored) : restored = exchange := by
  unfold restoreExchange at h
  split at h
  · cases h
  split at h
  · cases h
  rename_i pending hpen
  have hshape := pending_request hpen
  subst hshape
  obtain ⟨request, response⟩ := exchange
  cases response with
  | none =>
    cases h
    rfl
  | some response =>
    simp only at h
    split at h
    · cases h
    · cases h
      rfl

theorem validateSerialized_eq_ok {value : Json} {max : Nat} :
    validateSerialized value max = .ok () ↔ value.size ≤ max := by
  unfold validateSerialized
  split
  · next hlong => simpa using Nat.not_le.mpr hlong
  · next hshort => simpa using hshort

variable {number : Nat} {requestState : TaskRequestState} {document stored : StoredTask}

/-- What a round is checked for. -/
theorem InputRound.new_eq_ok {exchanges : SortedMap InputKey InputExchange} :
    InputRound.new number requestState exchanges = .ok round ↔
      round = ⟨number, requestState, exchanges⟩ ∧ number ≠ 0 ∧ exchanges.isEmpty = false ∧
      exchanges.size ≤ maxInputRequests ∧ (exchangesJson exchanges).size ≤ maxTaskInputBytes := by
  simp only [InputRound.new, guard_eq_ok, Bool.or_eq_true, decide_eq_true_eq, gt_iff_lt,
    not_or, Nat.not_lt, Bool.not_eq_true]
  cases hsize : validateSerialized (exchangesJson exchanges) maxTaskInputBytes with
  | error e =>
    refine ⟨nofun, ?_⟩
    rintro ⟨-, -, -, -, hle⟩
    rw [validateSerialized_eq_ok.mpr hle] at hsize
    cases hsize
  | ok u =>
    have hle := validateSerialized_eq_ok.mp hsize
    constructor
    · rintro ⟨⟨⟨hnum, hnon⟩, hct⟩, ⟨⟩⟩
      exact ⟨rfl, hnum, hnon, hct, hle⟩
    · rintro ⟨rfl, hnum, hnon, hct, -⟩
      exact ⟨⟨⟨hnum, hnon⟩, hct⟩, rfl⟩

theorem InputRound.ofRequests_eq_ok {requests : SortedMap InputKey Json}
    (h : InputRound.ofRequests codecs number requestState requests = .ok round) :
    ∃ exchanges, requests.traverse (fun _ request => InputExchange.pending codecs request) =
      .ok exchanges ∧ InputRound.new number requestState exchanges = .ok round := by
  unfold InputRound.ofRequests at h
  split at h
  · cases h
  · next exchanges hexc => exact ⟨exchanges, hexc, h⟩

theorem validateRestoredState_same {state restored : TaskState}
    (h : validateRestoredState codecs state = .ok restored) : restored = state := by
  unfold validateRestoredState at h
  split at h
  · next round =>
    split at h
    · cases h
    split at h
    · cases h
    rename_i exchanges hexc
    split at h
    · cases h
    rename_i rebuilt hnew
    cases h
    rw [(InputRound.new_eq_ok.mp hnew).1, SortedMap.traverse_same restoreExchange_same hexc]
  · cases h
    rfl

/-- A snapshot that is restored is the one that was stored. -/
theorem restore_same {parts : TaskSnapshot} (h : parts.restore codecs = .ok snapshot) :
    snapshot = parts := by
  unfold TaskSnapshot.restore at h
  split at h
  · cases h
  rename_i state hst
  dsimp only at h
  split at h
  · cases h
  · cases h
    rw [validateRestoredState_same hst]

theorem decodeStoredTask_same (h : decodeStoredTask codecs document = .ok stored) :
    stored = document := by
  simp only [decodeStoredTask, guard_eq_ok] at h
  obtain ⟨-, -, -, -, -, h⟩ := h
  split at h
  · cases h
  rename_i snapshot hsnap
  split at h
  · cases h
  · cases h
    rw [restore_same hsnap]

/-- A row that can be decoded: document, columns and lease agree. -/
structure Opened (codecs : Codecs) (row : TaskRow) : Prop where
  columns : row.columns = columnsOf codecs row.document.snapshot
  lease_valid : ∀ fence ∈ row.lease, leaseIsValid row.document.snapshot fence = true
  lease_fits : leaseFitsState row.document.snapshot row.lease = true

/-- Only a row whose parts agree is decoded. -/
theorem decodeTaskRecord_eq_ok {record : TaskRecord}
    (h : decodeTaskRecord codecs row = .ok record) :
    record = ⟨row.document, row.lease⟩ ∧ Opened codecs row := by
  rw [decodeTaskRecord, bind_eq_ok] at h
  obtain ⟨stored, hsto, h⟩ := h
  obtain rfl := decodeStoredTask_same hsto
  simp only [guard_eq_ok] at h
  obtain ⟨hcols, hval, hfits, ⟨⟩⟩ := h
  refine ⟨rfl, by simpa using hcols, ?_, by simpa using hfits⟩
  intro fence hfe
  rw [Option.mem_def] at hfe
  simpa [hfe] using hval

/-! ## 2. Transitions -/

/-- What each transition needs, and what it makes of a snapshot. -/
inductive Change (snapshot : TaskSnapshot) (now : Instant) : TaskTransition → TaskSnapshot → Prop
  | requireInput {round : InputRound} : snapshot.state = .working → now < snapshot.expiresAt →
      Change snapshot now (.requireInput round) { snapshot with
        version := snapshot.version + 1
        updatedAt := now
        state := .inputRequired round }
  | recordInput {round current : InputRound} : snapshot.state = .inputRequired current →
      current.isResponseSuccessor round = true → round.isComplete = false →
      now < snapshot.expiresAt →
      Change snapshot now (.recordInput round) { snapshot with
        version := snapshot.version + 1
        updatedAt := now
        state := .inputRequired round }
  | resume {round current : InputRound} {jobId : JobId} :
      snapshot.state = .inputRequired current → current.isResponseSuccessor round = true →
      round.isComplete = true → now < snapshot.expiresAt →
      Change snapshot now (.resume round jobId (snapshot.generation + 1)) { snapshot with
        version := snapshot.version + 1
        updatedAt := now
        currentJobId := jobId
        generation := snapshot.generation + 1
        state := .working
        cancellationRequested := false }
  | requestCancellation : snapshot.cancellationRequested = false → now < snapshot.expiresAt →
      Change snapshot now .requestCancellation { snapshot with
        version := snapshot.version + 1
        updatedAt := now
        cancellationRequested := true }
  | alreadyRequested : snapshot.cancellationRequested = true →
      Change snapshot now .requestCancellation snapshot
  | complete {result : CanonicalTaskResult} : now < snapshot.expiresAt →
      Change snapshot now (.complete result) { snapshot with
        version := snapshot.version + 1
        updatedAt := now
        state := .completed result }
  | fail {failure : TaskFailureCode} : (failure = .expired ↔ snapshot.expiresAt ≤ now) →
      Change snapshot now (.fail failure) { snapshot with
        version := snapshot.version + 1
        updatedAt := now
        state := .failed failure }
  | cancel : now < snapshot.expiresAt →
      Change snapshot now .cancel { snapshot with
        version := snapshot.version + 1
        updatedAt := now
        cancellationRequested := true
        state := .cancelled }

theorem checkedNext_eq_some {n m : Nat} (h : checkedNext n = some m) : m = n + 1 := by
  unfold checkedNext at h
  split at h
  · cases h
    rfl
  · cases h

variable {now : Instant}

/-- A transition that succeeds is one of the listed changes. -/
theorem applyTransition_eq_ok (h : snapshot.applyTransition { snapshot with
      version := snapshot.version + 1, updatedAt := now } now transition = .ok next) :
    Change snapshot now transition next := by
  cases transition with simp only [TaskSnapshot.applyTransition, guard_eq_ok] at h
  | requireInput round =>
    obtain ⟨hgd, ⟨⟩⟩ := h
    simp only [ne_eq, ge_iff_le, Bool.or_eq_true, decide_eq_true_eq, not_or,
      Decidable.not_not, Nat.not_le] at hgd
    exact .requireInput hgd.1 hgd.2
  | recordInput round =>
    split at h
    · next current hcur =>
      obtain ⟨hgd, ⟨⟩⟩ := guard_eq_ok.mp h
      simp only [ge_iff_le, Bool.or_eq_true, decide_eq_true_eq, not_or, Nat.not_le,
        Bool.not_eq_true, Bool.not_eq_eq_eq_not, Bool.not_true, Bool.not_eq_false] at hgd
      exact .recordInput hcur hgd.1.1 hgd.1.2 hgd.2
    · cases h
  | resume round jobId generation =>
    split at h
    · cases h
    rename_i expected hexpected
    split at h
    · next current hcur =>
      obtain ⟨hgd, ⟨⟩⟩ := guard_eq_ok.mp h
      simp only [ne_eq, ge_iff_le, Bool.or_eq_true, decide_eq_true_eq, not_or, Nat.not_le,
        Bool.not_eq_eq_eq_not, Bool.not_true, Bool.not_eq_false, Decidable.not_not] at hgd
      obtain ⟨⟨⟨hsucc, hcom⟩, rfl⟩, hlive⟩ := hgd
      cases checkedNext_eq_some hexpected
      exact .resume hcur hsucc hcom hlive
    · cases h
  | requestCancellation =>
    split at h
    · next hreq =>
      cases h
      exact .alreadyRequested hreq
    rename_i hreq
    obtain ⟨hgd, ⟨⟩⟩ := guard_eq_ok.mp h
    exact .requestCancellation (by simpa using hreq) (Nat.lt_of_not_le hgd)
  | complete result =>
    obtain ⟨hgd, ⟨⟩⟩ := h
    exact .complete (Nat.lt_of_not_le hgd)
  | fail failure =>
    obtain ⟨hgd, ⟨⟩⟩ := h
    refine .fail ?_
    simp only [ne_eq, ge_iff_le, Bool.or_eq_true, Bool.and_eq_true, decide_eq_true_eq, not_or,
      not_and, Nat.not_lt, Nat.not_le] at hgd
    exact ⟨hgd.1, fun hlate => by
      by_contra hne
      exact absurd hlate (Nat.not_le.mpr (hgd.2 hne))⟩
  | cancel =>
    obtain ⟨hgd, ⟨⟩⟩ := h
    exact .cancel (Nat.lt_of_not_le hgd)

theorem withAuthoritativeCreationTime_eq_ok {fresh : TaskSnapshot}
    (h : snapshot.withAuthoritativeCreationTime now = .ok fresh) :
    snapshot.generation = 1 ∧ snapshot.version = 1 ∧ snapshot.state = .working ∧
      snapshot.cancellationRequested = false ∧ fresh = { snapshot with
        createdAt := now
        updatedAt := now
        expiresAt := now + (snapshot.expiresAt - snapshot.createdAt) } := by
  simp only [TaskSnapshot.withAuthoritativeCreationTime, guard_eq_ok] at h
  obtain ⟨hgd, -, ⟨⟩⟩ := h
  simp only [ne_eq, Bool.or_eq_true, decide_eq_true_eq, not_or, Decidable.not_not,
    Bool.not_eq_true] at hgd
  exact ⟨hgd.1.1.1.1, hgd.1.1.1.2, hgd.1.1.2, hgd.1.2, rfl⟩

/-- The version is the expected one, and time has passed. -/
theorem transitioned_eq_ok {version : Nat}
    (h : snapshot.transitioned version transition now = .ok next) :
    snapshot.state.isTerminal = false ∧ snapshot.updatedAt < now ∧
      Change snapshot now transition next := by
  simp only [TaskSnapshot.transitioned, guard_eq_ok] at h
  obtain ⟨-, hlive, hlat, h⟩ := h
  split at h
  · cases h
  rename_i nextVersion hnext
  cases checkedNext_eq_some hnext
  exact ⟨by simpa using hlive, Nat.lt_of_not_le hlat, applyTransition_eq_ok h⟩

/-- What no transition touches. -/
structure SameTask (snapshot next : TaskSnapshot) : Prop where
  taskId : next.taskId = snapshot.taskId
  owner : next.owner = snapshot.owner
  capability : next.capability = snapshot.capability
  identity : next.identity = snapshot.identity
  idempotency : next.idempotency = snapshot.idempotency
  budget : next.budget = snapshot.budget
  createdAt : next.createdAt = snapshot.createdAt
  expiresAt : next.expiresAt = snapshot.expiresAt
  pollIntervalMs : next.pollIntervalMs = snapshot.pollIntervalMs

theorem Change.sameTask (h : Change snapshot now transition next) :
    SameTask snapshot next := by
  cases h <;> exact ⟨rfl, rfl, rfl, rfl, rfl, rfl, rfl, rfl, rfl⟩

/-! ## 3. Writing a transition -/

/-- One transition, written over the row that was read. -/
structure Write (codecs : Codecs) (now : Instant) (w w' : World) (row : TaskRow)
    (transition : TaskTransition) (next : TaskSnapshot) (lease : Option LeaseFence) : Prop where
  was : w.row = some row
  opened : Opened codecs row
  live : row.document.snapshot.state.isTerminal = false
  later : row.document.snapshot.updatedAt < now
  change : Change row.document.snapshot now transition next
  encoded : encodeStoredTask codecs ⟨next, row.document.execution⟩ =
    .ok ⟨next, row.document.execution⟩
  row_eq : w'.row = some ⟨columnsOf codecs next, ⟨next, row.document.execution⟩, lease⟩
  persisted : w'.persisted = ⟨next, row.document.execution⟩ :: w.persisted
  leases : w'.leases = w.leases

theorem encodeStoredTask_same (h : encodeStoredTask codecs stored = .ok document) :
    document = stored := by
  unfold encodeStoredTask at h
  split at h
  · cases h
  split at h
  · cases h
  · cases h
    rfl

theorem columnsOf_next (h : SameTask snapshot next) : { columnsOf codecs snapshot with
      currentJobId := next.currentJobId
      generation := next.generation
      version := next.version
      status := next.state.status
      cancellationRequested := next.cancellationRequested
      updatedAt := next.updatedAt } = columnsOf codecs next := by
  simp [columnsOf, h.taskId, h.owner, h.capability, h.idempotency, h.createdAt, h.expiresAt]

/-- What is kept besides the row: rounds, keys, receipts and the clock. -/
structure KeptTables (w w' : World) : Prop where
  rounds : w'.rounds = w.rounds
  inputKeys : w'.inputKeys = w.inputKeys
  receipts : w'.receipts = w.receipts
  clock : w'.clock = w.clock

variable {w : World} {w' : World}

/-- A transition that was written is one `Write`, and touches no other table. -/
theorem advance_eq_ok (hrow : w.row = some row) (hop : Opened codecs row)
    (h : advance codecs w row ⟨row.document, row.lease⟩ transition now lease = .ok (w', next)) :
    Write codecs now w w' row transition next lease ∧ KeptTables w w' := by
  unfold advance at h
  dsimp only at h
  split at h
  · cases h
  rename_i moved hmoved
  obtain ⟨hlive, hlat, hch⟩ := transitioned_eq_ok hmoved
  simp only [persistTask, bind_eq_ok] at h
  obtain ⟨w₁, ⟨document, hdoc, -, -, -, -, hgd⟩, h⟩ := h
  cases h
  obtain rfl := encodeStoredTask_same hdoc
  simp only [guard_eq_ok] at hgd
  obtain ⟨-, -, ⟨⟩⟩ := hgd
  refine ⟨⟨hrow, hop, hlive, hlat, hch, hdoc, ?_, rfl, rfl⟩, ⟨rfl, rfl, rfl, rfl⟩⟩
  simp [hop.columns, columnsOf_next hch.sameTask]

/-! ## 4. The effects -/

/-- The lease that a worker's request names. -/
def Action.leaseRef : Action → Option LeaseRef
  | .abandon request => some request
  | .requireInput request => some request.toLeaseRef
  | .settle request => some request.toLeaseRef
  | _ => none

/-- If the request is a worker's, it names the lease of the row. -/
def Action.Holds (row : TaskRow) (a : Action) : Prop :=
  ∀ ref ∈ a.leaseRef, exactLease row.lease ref = true

theorem Action.Holds.client (ha : a.leaseRef = none) : a.Holds row := by
  intro ref href
  rw [ha] at href
  cases href

/-- A live lease is kept when its holder is told to stop. -/
structure Signal (codecs : Codecs) (now : Instant) (w w' : World) (row : TaskRow)
    (next : TaskSnapshot) : Prop where
  leased : row.lease.isSome = true
  notCancelled : row.document.snapshot.cancellationRequested = false
  write : Write codecs now w w' row .requestCancellation next row.lease
  rounds : w'.rounds = w.rounds

/-- The transition ends a task in the state; a result is taken of a working task only. -/
def TaskTransition.Ends (state : TaskState) : TaskTransition → Prop
  | .complete _ => state = .working
  | .fail _ | .cancel => True
  | _ => False

/-- What an operation does to the row, the completed rounds, what was written and what was
leased. -/
inductive Effect (codecs : Codecs) (now : Instant) (w w' : World) : Action → Prop
  | idle {a : Action} (row_eq : w'.row = w.row) (rounds : w'.rounds = w.rounds)
      (persisted : w'.persisted = w.persisted) (leases : w'.leases = w.leases)
      (worker : a.leaseRef.isSome = true → w' = { w with clock := w'.clock }) :
      Effect codecs now w w' a
  | created {request : AtomicCreate} {snapshot : TaskSnapshot} (was : w.row = none)
      (checked : validateNewTask codecs request.task request.executionIntent = .ok ())
      (fresh : request.task.snapshot.withAuthoritativeCreationTime now = .ok snapshot)
      (encoded : encodeStoredTask codecs ⟨snapshot, request.task.execution⟩ =
        .ok ⟨snapshot, request.task.execution⟩)
      (row_eq : w'.row = some ⟨columnsOf codecs snapshot, ⟨snapshot, request.task.execution⟩, none⟩)
      (rounds : w'.rounds = w.rounds)
      (persisted : w'.persisted = ⟨snapshot, request.task.execution⟩ :: w.persisted)
      (leases : w'.leases = w.leases) : Effect codecs now w w' (.create request)
  | granted {claim : ExecutionClaim} {row : TaskRow} {history : List InputRound}
      {fence : LeaseFence} (was : w.row = some row) (opened : Opened codecs row)
      (working : row.document.snapshot.state = .working)
      (notCancelled : row.document.snapshot.cancellationRequested = false)
      (job : row.document.snapshot.currentJobId = claim.jobId)
      (generation : row.document.snapshot.generation = claim.generation)
      (live : now < row.document.snapshot.expiresAt)
      (loaded : loadInputHistory codecs w row.document.snapshot = .ok history)
      (fence_eq : fence = ⟨claim.jobId, claim.generation, row.document.snapshot.version, now,
        min (now + executionTimeout) row.document.snapshot.expiresAt⟩)
      (row_eq : w'.row = some { row with lease := some fence }) (rounds : w'.rounds = w.rounds)
      (persisted : w'.persisted = w.persisted)
      (leases : w'.leases = ⟨claim, ⟨row.document, row.document.snapshot.version, now,
        history⟩⟩ :: w.leases) : Effect codecs now w w' (.claim claim)
  | released {request : LeaseRef} {row : TaskRow} (was : w.row = some row)
      (opened : Opened codecs row) (holds : exactLease row.lease request = true)
      (version : row.document.snapshot.version = request.expectedVersion)
      (row_eq : w'.row = some { row with lease := none }) (rounds : w'.rounds = w.rounds)
      (persisted : w'.persisted = w.persisted) (leases : w'.leases = w.leases) :
      Effect codecs now w w' (.abandon request)
  | paused {request : RequireInput} {row : TaskRow} {next : TaskSnapshot}
      (write : Write codecs now w w' row (.requireInput request.round) next none)
      (holds : exactLease row.lease request.toLeaseRef = true)
      (notCancelled : row.document.snapshot.cancellationRequested = false)
      (rounds : w'.rounds = w.rounds) : Effect codecs now w w' (.requireInput request)
  | recorded {request : AtomicInputUpdate} {row : TaskRow} {round : InputRound}
      {next : TaskSnapshot} (waiting : row.document.snapshot.state = .inputRequired round)
      (write : Write codecs now w w' row (.recordInput (round.apply request.responses).round)
        next none)
      (rounds : w'.rounds = w.rounds) (accepted : request.Accepted w now row round) :
      Effect codecs now w w' (.updateInput request)
  | resumed {request : AtomicInputUpdate} {row : TaskRow} {round : InputRound}
      {next : TaskSnapshot} (waiting : row.document.snapshot.state = .inputRequired round)
      (write : Write codecs now w w' row (.resume (round.apply request.responses).round
        request.resumeIntent.jobId (row.document.snapshot.generation + 1)) next none)
      (encoded : encodeCompletedRound (round.apply request.responses).round =
        .ok (round.apply request.responses).round)
      (number : round.number = row.document.snapshot.generation)
      (rounds : w'.rounds = w.rounds ++ [⟨round.number, row.document.snapshot.generation,
        next.version, (round.apply request.responses).round⟩])
      (accepted : request.Accepted w now row round) :
      Effect codecs now w w' (.updateInput request)
  | signalled {request : AtomicCancellation} {row : TaskRow} {next : TaskSnapshot}
      (signal : Signal codecs now w w' row next) : Effect codecs now w w' (.cancel request)
  | ended {a : Action} {row : TaskRow} {transition : TaskTransition} {next : TaskSnapshot}
      (write : Write codecs now w w' row transition next none)
      (terminal : next.state.isTerminal = true) (holds : a.Holds row)
      (rounds : w'.rounds = w.rounds) (ends : transition.Ends row.document.snapshot.state) :
      Effect codecs now w w' a

theorem Change.terminal {state : TaskState} (h : Change snapshot now transition next)
    (hends : transition.Ends state) : next.state.isTerminal = true := by
  cases h <;> first | rfl | cases hends

variable {jobId : JobId} {owner : TaskOwner} {taskId : TaskId} {w₁ : World} {claimed : Bool}

theorem Change.resume_generation {generation : Nat}
    (h : Change snapshot now (.resume round jobId generation) next) :
    generation = snapshot.generation + 1 := by
  cases h
  rfl

/-- The start of every operation: no row that it asks for, or one that can be decoded. -/
theorem found_row {α : Type} {p : TaskRow → Bool} {missing result : α}
    {k : TaskRow → TaskRecord → Except RepositoryError α}
    (h : (match w.row.filter p with
      | none => Except.ok missing
      | some row => decodeTaskRecord codecs row >>= k row) = .ok result) :
    missing = result ∨ ∃ row, w.row = some row ∧ w.row.filter p = some row ∧ Opened codecs row ∧
      k row ⟨row.document, row.lease⟩ = .ok result := by
  split at h
  · cases h
    exact .inl rfl
  rename_i row hrow
  obtain ⟨record, hrecord, h⟩ := bind_eq_ok.mp h
  obtain ⟨rfl, hop⟩ := decodeTaskRecord_eq_ok hrecord
  exact .inr ⟨row, (Option.filter_eq_some_iff.mp hrow).1, hrow, hop, h⟩

/-- What a receipt leaves alone. -/
structure SameTables (w w' : World) : Prop where
  row : w'.row = w.row
  rounds : w'.rounds = w.rounds
  persisted : w'.persisted = w.persisted
  leases : w'.leases = w.leases

theorem SameTables.refl : SameTables w w := ⟨rfl, rfl, rfl, rfl⟩

theorem SameTables.trans {w₂ : World} (h : SameTables w w₁) (h' : SameTables w₁ w₂) :
    SameTables w w₂ :=
  ⟨h'.row.trans h.row, h'.rounds.trans h.rounds, h'.persisted.trans h.persisted,
    h'.leases.trans h.leases⟩

theorem SameTables.idle (h : SameTables w w')
    (ha : a.leaseRef = none) : Effect codecs now w w' a :=
  .idle h.row h.rounds h.persisted h.leases fun hsome => by simp [ha] at hsome

theorem Effect.unchanged : Effect codecs now w w a :=
  .idle rfl rfl rfl rfl fun _ => rfl

theorem claimDeliveryReceipt_same
    (h : claimDeliveryReceipt w snapshot jobId = .ok (w', claimed)) : SameTables w w' := by
  unfold claimDeliveryReceipt at h
  split at h
  · cases h
    exact ⟨rfl, rfl, rfl, rfl⟩
  split at h
  · cases h
  split at h
  · cases h
    exact .refl
  · cases h

theorem holdDeliveryReceipt_same
    (h : holdDeliveryReceipt w snapshot lease jobId = .ok (w', claimed)) : SameTables w w' := by
  unfold holdDeliveryReceipt at h
  split at h
  · obtain ⟨-, -, heq⟩ := map_eq_ok.mp h
    cases heq
    exact .refl
  · exact claimDeliveryReceipt_same h

theorem releaseExpiredLease_same
    (h : releaseExpiredLease w snapshot lease jobId = .ok w') : SameTables w w' := by
  unfold releaseExpiredLease at h
  split at h
  · obtain ⟨-, -, heq⟩ := map_eq_ok.mp h
    cases heq
    exact ⟨rfl, rfl, rfl, rfl⟩
  · cases h
    exact .refl

/-- A transition that ends the task, whatever becomes of the receipt. -/
theorem Effect.of_advance {w₀ : World} (hrow : w.row = some row)
    (hop : Opened codecs row) (hbef : SameTables w w₀)
    (hadv : advance codecs w₀ row ⟨row.document, row.lease⟩ transition now none =
      .ok (w₁, next)) (haft : SameTables w₁ w')
    (hends : transition.Ends row.document.snapshot.state)
    (hhd : a.Holds row) : Effect codecs now w w' a := by
  obtain ⟨hwr, hkept⟩ := advance_eq_ok (hbef.row.trans hrow) hop hadv
  have hwr' : Write codecs now w w' row transition next none := { hwr with
    was := hrow
    row_eq := haft.row.trans hwr.row_eq
    persisted := by rw [haft.persisted, hwr.persisted, hbef.persisted]
    leases := by rw [haft.leases, hwr.leases, hbef.leases] }
  have hrds : w'.rounds = w.rounds := by rw [haft.rounds, hkept.rounds, hbef.rounds]
  exact .ended hwr' (hwr.change.terminal hends) hhd hrds hends

/-- Expiry fails the task and ends its lease. -/
theorem expireTask_effect (hrow : w.row = some row) (hop : Opened codecs row) (hhd : a.Holds row)
    (h : expireTask codecs w row ⟨row.document, row.lease⟩ now = .ok (w', next)) :
    Effect codecs now w w' a := by
  unfold expireTask at h
  split at h
  · simp only [bind_eq_ok] at h
    obtain ⟨-, -, ⟨w₁, next₁⟩, hadv, h⟩ := h
    cases h
    exact .of_advance hrow hop .refl hadv ⟨rfl, rfl, rfl, rfl⟩ trivial hhd
  · exact .of_advance hrow hop .refl h .refl trivial hhd

/-! ## 5. Each operation -/

variable {w w' : World} {now : Instant}

/-- A new row, or the answer for the one that is there. -/
theorem createAtomic_effect {request : AtomicCreate} {outcome : CreateOutcome}
    (h : createAtomic codecs w now request = .ok (w', outcome)) :
    Effect codecs now w w' (.create request) := by
  rw [createAtomic, bind_eq_ok] at h
  obtain ⟨⟨⟩, hchk, h⟩ := h
  split at h
  · cases h
  rename_i snapshot hfr
  split at h
  · next hnone =>
    obtain ⟨document, hdoc, h⟩ := bind_eq_ok.mp h
    obtain rfl := encodeStoredTask_same hdoc
    cases h
    exact .created hnone hchk hfr hdoc rfl rfl rfl rfl
  split at h
  · cases h
    exact .unchanged
  split at h
  · cases h
    exact .unchanged
  simp only [bind_eq_ok] at h
  obtain ⟨record, -, -, -, h⟩ := h
  cases h
  exact .unchanged

/-- Reading a task expires it when its time is over. -/
theorem get_effect {outcome : Option TaskSnapshot}
    (h : get codecs w now owner taskId = .ok (w', outcome)) :
    Effect codecs now w w' (.get owner taskId) := by
  obtain ⟨⟨⟩⟩ | ⟨row, hrow, -, hop, h⟩ := found_row h
  · exact .unchanged
  dsimp only at h
  split at h
  · obtain ⟨⟨w₁, next⟩, hexpire, h⟩ := bind_eq_ok.mp h
    cases h
    exact expireTask_effect hrow hop (.client rfl) hexpire
  · cases h
    exact .unchanged

theorem insertInputHistory_eq_ok {completedGeneration : Nat}
    (h : insertInputHistory w next completedGeneration round = .ok w') :
    encodeCompletedRound round = .ok round ∧ completedGeneration = round.number ∧
      w' = { w with rounds := w.rounds ++ [⟨round.number, completedGeneration, next.version,
        round⟩] } := by
  simp only [insertInputHistory, bind_eq_ok] at h
  obtain ⟨document, hdoc, -, -, h⟩ := h
  obtain ⟨-, ⟨⟩⟩ : _ ∧ Except.ok round = Except.ok document := guard_eq_ok.mp hdoc
  obtain ⟨hgd, ⟨⟩⟩ := guard_eq_ok.mp h
  simp only [Bool.or_eq_true, decide_eq_true_eq, not_or, ne_eq, Decidable.not_not] at hgd
  exact ⟨hdoc, hgd.1.1, rfl⟩

/-- Answers are recorded, or complete the round and start a new generation. -/
theorem updateInputAtomic_effect {request : AtomicInputUpdate} {outcome : InputUpdateOutcome}
    (h : updateInputAtomic codecs w now request = .ok (w', outcome)) :
    Effect codecs now w w' (.updateInput request) := by
  obtain ⟨⟨⟩⟩ | ⟨row, hrow, howned, hop, h⟩ := found_row h
  · exact .unchanged
  dsimp only at h
  split at h
  · cases h
    exact .unchanged
  rename_i hfe
  simp only [Bool.or_eq_true, decide_eq_true_eq, not_or, ne_eq, Decidable.not_not] at hfe
  split at h
  swap
  · cases h
    exact .unchanged
  rename_i round hrd
  split at h
  · cases h
    exact .unchanged
  rename_i hnumber
  split at h
  · obtain ⟨⟨w₁, next⟩, hadv, h⟩ := bind_eq_ok.mp h
    cases h
    exact .of_advance hrow hop .refl hadv ⟨rfl, rfl, rfl, rfl⟩ trivial (.client rfl)
  rename_i hlive
  have haccepted : request.Accepted w now row round :=
    ⟨howned, hfe.1, hfe.2, hrd, not_not.mp hnumber, Nat.not_le.mp hlive⟩
  split at h
  · cases h
    exact .unchanged
  split at h
  · -- The last answer: the round is filed and the task resumes.
    simp only [bind_eq_ok] at h
    obtain ⟨-, -, ⟨w₁, next⟩, hadv, w₂, hinsert, h⟩ := h
    cases h
    obtain ⟨hwr, hkept⟩ := advance_eq_ok hrow hop hadv
    obtain ⟨henc, hnum, rfl⟩ := insertInputHistory_eq_ok hinsert
    rw [← hfe.2] at hnum
    rw [hwr.change.resume_generation] at hwr
    refine .resumed hrd { hwr with } henc hnum.symm ?_ haccepted
    rw [hkept.rounds, ← hfe.2]
    rfl
  · obtain ⟨⟨w₁, next⟩, hadv, h⟩ := bind_eq_ok.mp h
    cases h
    obtain ⟨hwr, hkept⟩ := advance_eq_ok hrow hop hadv
    exact .recorded hrd hwr hkept.rounds haccepted

/-- A leased task is told to stop, any other is cancelled at once. -/
theorem cancelAtomic_effect {request : AtomicCancellation} {outcome : CancellationOutcome}
    (h : cancelAtomic codecs w now request = .ok (w', outcome)) :
    Effect codecs now w w' (.cancel request) ∧
      ∀ next, outcome = .signalled next → ∃ row, Signal codecs now w w' row next := by
  obtain ⟨⟨⟩⟩ | ⟨row, hrow, -, hop, h⟩ := found_row h
  · exact ⟨.unchanged, by rintro _ ⟨⟩⟩
  dsimp only at h
  split at h
  · cases h
    exact ⟨.unchanged, by rintro _ ⟨⟩⟩
  split at h
  · cases h
    exact ⟨.unchanged, by rintro _ ⟨⟩⟩
  split at h
  · cases h
    exact ⟨.unchanged, by rintro _ ⟨⟩⟩
  rename_i hnc
  split at h
  · obtain ⟨⟨w₁, next⟩, hexpire, h⟩ := bind_eq_ok.mp h
    cases h
    exact ⟨expireTask_effect hrow hop (.client rfl) hexpire, by rintro _ ⟨⟩⟩
  obtain ⟨-, -, h⟩ := bind_eq_ok.mp h
  split at h
  · next hleased =>
    obtain ⟨⟨w₁, next⟩, hadv, h⟩ := bind_eq_ok.mp h
    cases h
    obtain ⟨hwr, hkept⟩ := advance_eq_ok hrow hop hadv
    obtain ⟨fence, hfe, -⟩ := (Option.any_eq_true _ _).mp hleased
    have hsig : Signal codecs now w w₁ row next :=
      ⟨by simp [show row.lease = some fence from hfe], by simpa using hnc, hwr, hkept.rounds⟩
    exact ⟨.signalled hsig, by rintro _ ⟨⟩; exact ⟨row, hsig⟩⟩
  split at h
  · simp only [bind_eq_ok] at h
    obtain ⟨-, -, ⟨w₁, next⟩, hadv, h⟩ := h
    cases h
    exact ⟨.of_advance hrow hop .refl hadv ⟨rfl, rfl, rfl, rfl⟩ trivial (.client rfl),
      by rintro _ ⟨⟩⟩
  · obtain ⟨⟨w₁, next⟩, hadv, h⟩ := bind_eq_ok.mp h
    cases h
    exact ⟨.of_advance hrow hop .refl hadv ⟨rfl, rfl, rfl, rfl⟩ trivial (.client rfl),
      by rintro _ ⟨⟩⟩

theorem loadInputHistory_congr (h : w'.rounds = w.rounds) :
    loadInputHistory codecs w' snapshot = loadInputHistory codecs w snapshot := by
  unfold loadInputHistory
  rw [h]

/-- A claim leases the task, ends one that expired or was told to stop, or leaves the row. -/
theorem claimExecution_effect {claim : ExecutionClaim} {outcome : ClaimOutcome}
    (h : claimExecution codecs w now claim = .ok (w', outcome)) :
    Effect codecs now w w' (.claim claim) := by
  obtain ⟨⟨⟩⟩ | ⟨row, hrow, -, hop, h⟩ := found_row h
  · exact .unchanged
  dsimp only at h
  split at h
  · cases h
    exact .unchanged
  rename_i hfe
  simp only [ne_eq, Bool.or_eq_true, decide_eq_true_eq, not_or, Decidable.not_not] at hfe
  split at h
  · cases h
    exact .unchanged
  split at h
  · obtain ⟨⟨w₁, claimed⟩, hrcp, h⟩ := bind_eq_ok.mp h
    have hsame := holdDeliveryReceipt_same hrcp
    split at h
    · cases h
      exact hsame.idle rfl
    obtain ⟨⟨w₂, next⟩, hadv, h⟩ := bind_eq_ok.mp h
    cases h
    refine .of_advance hrow hop hsame hadv ⟨rfl, rfl, rfl, rfl⟩ ?_ (.client rfl)
    split <;> trivial
  · next hopen =>
    simp only [ge_iff_le, Bool.or_eq_true, decide_eq_true_eq, not_or, Nat.not_le,
      Bool.not_eq_true] at hopen
    simp only [bind_eq_ok] at h
    obtain ⟨w₁, hrelease, ⟨w₂, claimed⟩, hrcp, h⟩ := h
    have hsame := (releaseExpiredLease_same hrelease).trans (claimDeliveryReceipt_same hrcp)
    split at h
    · cases h
      exact hsame.idle rfl
    obtain ⟨history, hhistory, h⟩ := bind_eq_ok.mp h
    cases h
    rw [loadInputHistory_congr hsame.rounds] at hhistory
    exact .granted hrow hop hfe.2 hopen.2 hfe.1.1 hfe.1.2 hopen.1 hhistory
      rfl rfl hsame.rounds hsame.persisted (congrArg _ hsame.leases)

theorem abandonExecution_effect {claim : LeaseRef} {outcome : AbandonOutcome}
    (h : abandonExecution codecs w now claim = .ok (w', outcome)) :
    Effect codecs now w w' (.abandon claim) := by
  obtain ⟨⟨⟩⟩ | ⟨row, hrow, -, hop, h⟩ := found_row h
  · exact .unchanged
  dsimp only at h
  split at h
  · cases h
    exact .unchanged
  rename_i hfe
  simp only [Bool.or_eq_true, not_or, Bool.not_eq_eq_eq_not, Bool.not_true,
    Bool.not_eq_false] at hfe
  split at h
  · cases h
  obtain ⟨-, -, h⟩ := bind_eq_ok.mp h
  split at h
  · next hver =>
    cases h
    exact .released hrow hop hfe.1.1 hver rfl rfl rfl rfl
  obtain ⟨⟨w₁, next⟩, hadv, h⟩ := bind_eq_ok.mp h
  cases h
  exact .of_advance hrow hop .refl hadv ⟨rfl, rfl, rfl, rfl⟩ trivial
    (by rintro _ ⟨⟩; exact hfe.1.1)

variable {outcome : SettlementOutcome}

theorem requireInput_effect {request : RequireInput}
    (h : requireInput codecs w now request = .ok (w', outcome)) :
    Effect codecs now w w' (.requireInput request) := by
  obtain ⟨⟨⟩⟩ | ⟨row, hrow, -, hop, h⟩ := found_row h
  · exact .unchanged
  dsimp only at h
  split at h
  · cases h
    exact .unchanged
  rename_i hfe
  simp only [Bool.or_eq_true, not_or, Bool.not_eq_eq_eq_not, Bool.not_true,
    Bool.not_eq_false, Bool.not_eq_true] at hfe
  simp only [bind_eq_ok] at h
  obtain ⟨inputKeys, -, -, -, ⟨w₁, next⟩, hadv, h⟩ := h
  cases h
  have hrow' : ({ w with inputKeys } : World).row = some row := hrow
  obtain ⟨hwr, hkept⟩ := advance_eq_ok hrow' hop hadv
  exact .paused { hwr with } hfe.1.1.1.1.1.1 hfe.1.2 hkept.rounds

theorem settlementTransition_ends {snapshot : TaskSnapshot} (hwk : snapshot.state = .working)
    (settlement : TerminalSettlement) :
    (settlementTransition snapshot now settlement).Ends snapshot.state := by
  unfold settlementTransition
  split
  · trivial
  · cases settlement with
    | completed result => exact hwk
    | failed failure | cancelled => trivial

/-- A settlement ends the task under the lease it names. -/
theorem settleExecution_effect {settlement : SettleExecution}
    (h : settleExecution codecs w now settlement = .ok (w', outcome)) :
    Effect codecs now w w' (.settle settlement) := by
  obtain ⟨⟨⟩⟩ | ⟨row, hrow, -, hop, h⟩ := found_row h
  · exact .unchanged
  dsimp only at h
  split at h
  · cases h
    exact .unchanged
  rename_i hfe
  simp only [Bool.or_eq_true, not_or, Bool.not_eq_eq_eq_not, Bool.not_true,
    Bool.not_eq_false] at hfe
  simp only [bind_eq_ok] at h
  obtain ⟨-, -, ⟨w₁, next⟩, hadv, h⟩ := h
  cases h
  exact .of_advance hrow hop .refl hadv ⟨rfl, rfl, rfl, rfl⟩
    (settlementTransition_ends (by simpa using hfe.1.2) _) (by rintro _ ⟨⟩; exact hfe.1.1.1.1)

theorem expireBatch_effect (h : expireBatch codecs w now = .ok w') :
    Effect codecs now w w' .expireBatch := by
  obtain ⟨⟨⟩⟩ | ⟨row, hrow, -, hop, h⟩ := found_row h
  · exact .unchanged
  dsimp only at h
  split at h
  · cases h
  obtain ⟨⟨w₁, next⟩, hexpire, h⟩ := bind_eq_ok.mp h
  cases h
  exact expireTask_effect hrow hop (.client rfl) hexpire

/-! ## 6. A step -/

theorem Effect.of_answer {α : Type} {x : Except RepositoryError (World × α)}
    (hx : ∀ {w₁ outcome}, x = .ok (w₁, outcome) → Effect codecs now w w₁ a)
    (h : x.map (·.1) = .ok w') : Effect codecs now w w' a := by
  obtain ⟨⟨w₁, outcome⟩, hrun, rfl⟩ := map_eq_ok.mp h
  exact hx hrun

/-- Every operation that succeeds has one of the listed effects. -/
theorem act_effect (h : w.act codecs now a = .ok w') : Effect codecs now w w' a := by
  cases a with
  | create request => exact .of_answer createAtomic_effect h
  | get owner taskId => exact .of_answer get_effect h
  | updateInput request => exact .of_answer updateInputAtomic_effect h
  | cancel request => exact .of_answer (fun hrun => (cancelAtomic_effect hrun).1) h
  | claim request => exact .of_answer claimExecution_effect h
  | abandon request => exact .of_answer abandonExecution_effect h
  | requireInput request => exact .of_answer requireInput_effect h
  | settle request => exact .of_answer settleExecution_effect h
  | expireBatch => exact expireBatch_effect h
  | cleanInbox jobId =>
    simp only [World.act] at h
    split at h
    · cases h
      exact SameTables.idle ⟨rfl, rfl, rfl, rfl⟩ rfl
    · cases h
      exact .unchanged

theorem Effect.withClock (h : Effect codecs now w w' a) :
    Effect codecs now w { w' with clock := now } a := by
  cases h with
  | idle row_eq rounds persisted leases worker =>
    exact .idle row_eq rounds persisted leases fun hsome => by rw [worker hsome]
  | created was checked fresh encoded row_eq rounds persisted leases =>
    exact .created was checked fresh encoded row_eq rounds persisted leases
  | granted was opened working notCancelled job generation live loaded fence_eq row_eq rounds
      persisted leases =>
    exact .granted was opened working notCancelled job generation live loaded fence_eq row_eq
      rounds persisted leases
  | released was opened holds version row_eq rounds persisted leases =>
    exact .released was opened holds version row_eq rounds persisted leases
  | paused write holds notCancelled rounds => exact .paused { write with } holds notCancelled rounds
  | recorded waiting write rounds accepted =>
    exact .recorded waiting { write with } rounds accepted
  | resumed waiting write encoded number rounds accepted =>
    exact .resumed waiting { write with } encoded number rounds accepted
  | signalled signal =>
    exact .signalled { signal with write := { signal.write with } }
  | ended write terminal holds rounds ends =>
    exact .ended { write with } terminal holds rounds ends

/-- **A step of the repository has one of the listed effects**, at a later time. -/
theorem step_effect (h : (repository codecs).step w (now, a) = some w') :
    Effect codecs now w w' a ∧ w.clock < now ∧ w'.clock = now := by
  unfold repository at h
  dsimp only at h
  split at h
  · cases h
  rename_i hclk
  have hlat : w.clock < now := Nat.lt_of_not_le hclk
  split at h
  · next w₁ hact =>
    cases h
    exact ⟨(act_effect hact).withClock, hlat, rfl⟩
  · cases h
    exact ⟨.idle rfl rfl rfl rfl fun _ => rfl, hlat, rfl⟩

end Omnius.Tasks
