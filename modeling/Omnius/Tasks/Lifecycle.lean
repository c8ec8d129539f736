/-
# The law of a task's life

Clients and workers call the repository in any order.  What holds of every run, at any time of it,
is `LifecycleLaw`:

* a snapshot changes by ONE version at a time, later and later, and never once it is terminal;
* the generation counts the completed rounds, and round `n` is asked for in generation `n`;
* a recorded answer stays what it is -- in the round that waits, then in the round on file -- unless
  the task ENDS while its round is still incomplete;
* a worker's request does something only for the holder of the newest lease;
* a task whose cancellation was signalled is never leased again and never waits again: it can only
  end.

The law follows from `Orderly`, the invariant that ties the generation to the rounds on file and the
lease of the row to the newest grant.
-/
import Omnius.Tasks.Effect

namespace Omnius.Tasks

open Omnius.Lib List Option InputRound

variable {w w' : World} {now : Instant} {row : TaskRow} {transition : TaskTransition}
  {lease : Option LeaseFence} {a : Action}

variable {codecs : Codecs}

/-- Runs in which workers build their requests as the job handler does. -/
abbrev HandlerRun (codecs : Codecs) (w w' : World) : Prop :=
  (repository codecs).ReachIf (fun w a => a.2.FromHandler codecs w) w w'

theorem snapshot?_eq_some {snapshot : TaskSnapshot} :
    w.snapshot? = some snapshot ↔ ∃ row, w.row = some row ∧ row.document.snapshot = snapshot :=
  map_eq_some_iff

/-! ## 1. One change -/

/-- A waiting task goes back to work. -/
def Resumes (snapshot next : TaskSnapshot) : Prop :=
  snapshot.state.status = .inputRequired ∧ next.state.status = .working

instance (snapshot next : TaskSnapshot) : Decidable (Resumes snapshot next) :=
  inferInstanceAs (Decidable (_ ∧ _))

/-- What every change of a snapshot does to its counters. -/
structure Moved (snapshot next : TaskSnapshot) : Prop where
  live : snapshot.state.isTerminal = false
  version : next.version = snapshot.version + 1
  later : snapshot.updatedAt < next.updatedAt
  generation : next.generation = snapshot.generation + if Resumes snapshot next then 1 else 0

theorem Write.moved {next : TaskSnapshot} (h : Write codecs now w w' row transition next lease)
    (hchd : next ≠ row.document.snapshot) : Moved row.document.snapshot next := by
  have hlat := h.later
  have hlive := h.live
  cases h.change with
  | requireInput hwk | recordInput hwt | complete | fail | cancel =>
    exact ⟨hlive, rfl, hlat, by simp [Resumes, TaskState.status]⟩
  | resume hwt => exact ⟨hlive, rfl, hlat, by simp [Resumes, hwt, TaskState.status]⟩
  | requestCancellation =>
    refine ⟨hlive, rfl, hlat, ?_⟩
    have hstays : ¬Resumes row.document.snapshot { row.document.snapshot with
        version := row.document.snapshot.version + 1
        updatedAt := now
        cancellationRequested := true } := by
      rintro ⟨hwt, hwk⟩
      exact absurd (hwt.symm.trans hwk) (by decide)
    rw [if_neg hstays]
    rfl
  | alreadyRequested => exact absurd rfl hchd

theorem Write.moved_of_terminal {next : TaskSnapshot}
    (h : Write codecs now w w' row transition next lease)
    (hterm : next.state.isTerminal = true) :
    Moved row.document.snapshot next ∧ next.generation = row.document.snapshot.generation := by
  have hmoved : Moved row.document.snapshot next := by
    refine h.moved fun hsame => ?_
    rw [hsame, h.live] at hterm
    cases hterm
  have hstays : ¬Resumes row.document.snapshot next := by
    rintro ⟨-, hwk⟩
    rw [TaskState.isTerminal, hwk] at hterm
    cases hterm
  refine ⟨hmoved, ?_⟩
  rw [hmoved.generation, if_neg hstays, Nat.add_zero]

/-! ## 2. The invariant -/

/-- The rounds on file are numbered from one, each in the generation that asked for it. -/
structure Filed (rounds : List RoundRow) : Prop where
  numbers : rounds.map (·.roundNumber) = List.range' 1 rounds.length
  generation : ∀ row ∈ rounds, row.completedGeneration = row.roundNumber
  document : ∀ row ∈ rounds, row.document.number = row.roundNumber

theorem Filed.append {rounds : List RoundRow} {row : RoundRow} (h : Filed rounds)
    (hnum : row.roundNumber = rounds.length + 1)
    (hgen : row.completedGeneration = row.roundNumber)
    (hdoc : row.document.number = row.roundNumber) : Filed (rounds ++ [row]) where
  numbers := by
    rw [map_append, h.numbers, length_append, length_singleton,
      range'_1_concat, map_singleton, hnum, Nat.add_comm 1]
  generation := forall_mem_append.mpr ⟨h.generation, forall_mem_singleton.mpr hgen⟩
  document := forall_mem_append.mpr ⟨h.document, forall_mem_singleton.mpr hdoc⟩

/-- A fence is that of a grant, and what the grant read of the rounds is still true. -/
structure Current (rounds : List RoundRow) (fence : LeaseFence) (grant : Grant) : Prop where
  claimedAt : grant.lease.claimedAt = fence.claimedAt
  round : ∀ number, grant.roundNumber = some number → number = rounds.length + 1

structure Orderly (w : World) : Prop where
  blank : w.row = none → w.rounds = []
  filed : Filed w.rounds
  generation : ∀ row, w.row = some row → row.document.snapshot.generation = w.rounds.length + 1
  waiting : ∀ row round, w.row = some row → row.document.snapshot.state = .inputRequired round →
    round.number = w.rounds.length + 1
  holder : ∀ row fence, w.row = some row → row.lease = some fence →
    ∃ grant, w.leases.head? = some grant ∧ Current w.rounds fence grant
  leases : w.leases.Pairwise fun newer older => older.lease.claimedAt < newer.lease.claimedAt
  past : ∀ grant ∈ w.leases, grant.lease.claimedAt ≤ w.clock

theorem Orderly.empty : Orderly World.empty where
  blank _ := rfl
  filed := ⟨rfl, by rintro _ ⟨⟩, by rintro _ ⟨⟩⟩
  generation := by rintro row ⟨⟩
  waiting := by rintro row round ⟨⟩
  holder := by rintro row fence ⟨⟩
  leases := .nil
  past := by rintro _ ⟨⟩

variable {ref : LeaseRef}

/-- The grant that a worker's request was built from is the newest one, if the request names the
lease of the row. -/
theorem Orderly.newest {grant : Grant} (h : Orderly w) (hrow : w.row = some row)
    (hhd : exactLease row.lease ref = true) (hmem : grant ∈ w.leases)
    (href : ref.leaseClaimedAt = grant.lease.claimedAt) :
    w.leases.head? = some grant ∧ ∃ fence, Current w.rounds fence grant := by
  obtain ⟨fence, hfe, hexact⟩ := (any_eq_true _ _).mp hhd
  obtain ⟨newest, hnwst, hcur⟩ := h.holder row fence hrow hfe
  have hcld : fence.claimedAt = ref.leaseClaimedAt := by
    simp only [Bool.and_eq_true, decide_eq_true_eq] at hexact
    exact hexact.2
  suffices hsame : grant = newest by
    subst hsame
    exact ⟨hnwst, fence, hcur⟩
  obtain ⟨older, holder⟩ : ∃ older, w.leases = newest :: older := by
    cases hlss : w.leases with
    | nil => simp [hlss] at hnwst
    | cons first older =>
      rw [hlss, List.head?_cons, some.injEq] at hnwst
      exact ⟨older, by rw [hnwst]⟩
  rw [holder] at hmem
  rcases mem_cons.mp hmem with hsame | holdMem
  · exact hsame
  have hpairs := h.leases
  rw [holder] at hpairs
  have hlt := rel_of_pairwise_cons hpairs holdMem
  have heq : grant.lease.claimedAt = newest.lease.claimedAt := by
    rw [← href, ← hcld, hcur.claimedAt]
  exact absurd heq (Nat.ne_of_lt hlt)

/-! ## 3. The rounds that a lease has read -/

theorem numbers_of_loadRounds {snapshot : TaskSnapshot} :
    ∀ {rows : List RoundRow} {expected : Nat} {history : List InputRound},
      loadRounds codecs snapshot expected rows = .ok history →
      history.map (·.number) = List.range' expected rows.length
  | [], expected, history, h => by
    cases h
    rfl
  | row :: rest, expected, history, h => by
    rw [loadRounds] at h
    split at h
    · cases h
    rw [bind_eq_ok] at h
    obtain ⟨round, -, h⟩ := h
    split at h
    · cases h
    rename_i hnum
    rw [bind_eq_ok] at h
    obtain ⟨others, hoths, h⟩ := h
    cases h
    rw [map_cons, numbers_of_loadRounds hoths, length_cons, range'_succ, Decidable.not_not.mp hnum]

variable {number : Nat}

/-- A handler that has read the history asks for the round after it. -/
theorem roundNumber_of_load {snapshot : TaskSnapshot} {history : List InputRound}
    {claim : ExecutionClaim} {stored : StoredTask} {version : Nat} {claimedAt : Instant}
    (hload : loadInputHistory codecs w snapshot = .ok history)
    (hnum : Grant.roundNumber ⟨claim, ⟨stored, version, claimedAt, history⟩⟩ = some number) :
    number = w.rounds.length + 1 := by
  unfold loadInputHistory at hload
  split at hload
  · cases hload
  have hnums := numbers_of_loadRounds hload
  have hlast : (history.getLast?.map (·.number)) = (List.range' 1 w.rounds.length).getLast? := by
    rw [← hnums, List.getLast?_map]
  unfold Grant.roundNumber at hnum
  split at hnum
  · next hnone =>
    cases hnum
    rw [hnone, List.getLast?_range'] at hlast
    split at hlast
    · next hzero => rw [hzero]
    · cases hlast
  · next round hsome =>
    rw [hsome, List.getLast?_range'] at hlast
    split at hlast
    · cases hlast
    simp only [map_some, some.injEq] at hlast
    rw [checkedNext_eq_some hnum]
    omega

/-! ## 4. Every step keeps order -/

theorem Orderly.of_row (hrow : w.row = some row) (hfiled : Filed w.rounds)
    (hgen : row.document.snapshot.generation = w.rounds.length + 1)
    (hwt : ∀ round, row.document.snapshot.state = .inputRequired round →
      round.number = w.rounds.length + 1)
    (hholder : ∀ fence, row.lease = some fence →
      ∃ grant, w.leases.head? = some grant ∧ Current w.rounds fence grant)
    (hlss : w.leases.Pairwise fun newer older => older.lease.claimedAt < newer.lease.claimedAt)
    (hpast : ∀ grant ∈ w.leases, grant.lease.claimedAt ≤ w.clock) : Orderly w := by
  have hsame {other : TaskRow} (h : w.row = some other) : row = other :=
    Option.some.inj (hrow.symm.trans h)
  exact ⟨fun h => absurd (hrow.symm.trans h) nofun, hfiled, fun _ h => hsame h ▸ hgen,
    fun _ round h => hsame h ▸ hwt round, fun _ fence h => hsame h ▸ hholder fence, hlss,
    hpast⟩

section

variable (h : Orderly w)

include h

theorem Orderly.past_later (hlss : w'.leases = w.leases)
    (hclk : w.clock ≤ w'.clock) : ∀ grant ∈ w'.leases, grant.lease.claimedAt ≤ w'.clock :=
  fun grant hgr => (h.past grant (hlss ▸ hgr)).trans hclk

theorem Orderly.of_write {next : TaskSnapshot}
    (hwr : Write codecs now w w' row transition next lease) (hrds : w'.rounds = w.rounds)
    (hclk : w.clock ≤ w'.clock) (hgen : next.generation = row.document.snapshot.generation)
    (hwt : ∀ round, next.state = .inputRequired round → round.number = w.rounds.length + 1)
    (hls : ∀ fence, lease = some fence → row.lease = some fence) : Orderly w' := by
  refine .of_row hwr.row_eq (hrds ▸ h.filed) ?_ (hrds ▸ hwt) (fun fence hfe => ?_)
    (hwr.leases ▸ h.leases) (h.past_later hwr.leases hclk)
  · rw [hrds]
    exact hgen.trans (h.generation row hwr.was)
  · rw [hwr.leases, hrds]
    exact h.holder row fence hwr.was (hls fence hfe)

theorem Orderly.of_lease (hwas : w.row = some row)
    (hrow : w'.row = some { row with lease }) (hrds : w'.rounds = w.rounds)
    (hholder : ∀ fence, lease = some fence →
      ∃ grant, w'.leases.head? = some grant ∧ Current w'.rounds fence grant)
    (hlss : w'.leases.Pairwise fun newer older => older.lease.claimedAt < newer.lease.claimedAt)
    (hpast : ∀ grant ∈ w'.leases, grant.lease.claimedAt ≤ w'.clock) : Orderly w' :=
  .of_row hrow (hrds ▸ h.filed) (hrds ▸ h.generation row hwas)
    (fun round => hrds ▸ h.waiting row round hwas) hholder hlss hpast

theorem Orderly.step (ha : a.FromHandler codecs w)
    (hstep : (repository codecs).step w (now, a) = some w') : Orderly w' := by
  obtain ⟨heff, hlat, hclk⟩ := step_effect hstep
  have hlat' : w.clock ≤ w'.clock := hclk ▸ hlat.le
  cases heff with
  | idle row_eq rounds persisted leases =>
    refine ⟨?_, rounds ▸ h.filed, ?_, ?_, ?_, leases ▸ h.leases, h.past_later leases hlat'⟩
    · rw [row_eq, rounds]
      exact h.blank
    · rw [row_eq, rounds]
      exact h.generation
    · rw [row_eq, rounds]
      exact h.waiting
    · rw [row_eq, rounds, leases]
      exact h.holder
  | created was checked fresh encoded row_eq rounds persisted leases =>
    obtain ⟨hgen, -, hwk, -, rfl⟩ := withAuthoritativeCreationTime_eq_ok fresh
    have hblank : w'.rounds = [] := rounds.trans (h.blank was)
    refine .of_row row_eq (rounds ▸ h.filed) (hblank ▸ hgen) (fun round hst => ?_) nofun
      (leases ▸ h.leases) (h.past_later leases hlat')
    exact absurd (hwk.symm.trans hst) nofun
  | granted was opened working notCancelled job generation live loaded fence_eq row_eq rounds
      persisted leases =>
    refine h.of_lease was row_eq rounds ?_ ?_ ?_
    · rintro fence ⟨⟩
      rw [leases, rounds, fence_eq]
      exact ⟨_, rfl, rfl, fun number hnum => roundNumber_of_load loaded hnum⟩
    · rw [leases]
      refine pairwise_cons.mpr ⟨fun grant hgr => ?_, h.leases⟩
      exact Nat.lt_of_le_of_lt (h.past grant hgr) hlat
    · rw [leases, forall_mem_cons]
      exact ⟨hclk.ge, fun grant hgr => (h.past grant hgr).trans hlat'⟩
  | released was opened holds version row_eq rounds persisted leases =>
    exact h.of_lease was row_eq rounds (by rintro _ ⟨⟩) (leases ▸ h.leases)
      (h.past_later leases hlat')
  | paused write holds notCancelled rounds =>
    refine h.of_write write rounds hlat' ?_ ?_ (by rintro _ ⟨⟩)
    · cases write.change
      rfl
    · -- The number is the one after the rounds that the newest lease has read.
      obtain ⟨grant, hmem, href, number, requestState, requests, hnum, hrd⟩ := ha
      obtain ⟨-, fence, hcur⟩ := h.newest write.was holds hmem (by rw [href]; rfl)
      obtain ⟨exchanges, -, hnew⟩ := ofRequests_eq_ok hrd
      cases write.change
      rintro _ ⟨⟩
      rw [(new_eq_ok.mp hnew).1]
      exact hcur.round number hnum
  | recorded waiting write rounds =>
    refine h.of_write write rounds hlat' ?_ ?_ (by rintro _ ⟨⟩)
    · cases write.change
      rfl
    · cases write.change
      rintro _ ⟨⟩
      have hnum := h.waiting _ _ write.was waiting
      exact hnum
  | resumed waiting write encoded number rounds =>
    have hnum := h.waiting _ _ write.was waiting
    have hgen := h.generation _ write.was
    have hlen : w'.rounds.length = w.rounds.length + 1 := by simp [rounds]
    have hnext := write.change
    refine .of_row write.row_eq (rounds ▸ h.filed.append hnum number.symm rfl) ?_ ?_ nofun
      (write.leases ▸ h.leases) (h.past_later write.leases hlat')
    · rw [hlen, ← hgen]
      cases hnext
      rfl
    · cases hnext
      rintro _ ⟨⟩
  | signalled signal =>
    refine h.of_write signal.write signal.rounds hlat' ?_ ?_ (fun _ hfe => hfe)
    · cases signal.write.change <;> rfl
    · cases signal.write.change <;>
        exact fun round hst => h.waiting _ round signal.write.was hst
  | ended write terminal holds rounds =>
    refine h.of_write write rounds hlat' ?_ ?_ (by rintro _ ⟨⟩)
    · exact (write.moved_of_terminal terminal).2
    · intro round hrd
      rw [hrd] at terminal
      cases terminal

theorem Orderly.run (hrun : HandlerRun codecs w w') : Orderly w' :=
  hrun.invariant h fun _ ⟨_, _⟩ _ hu ha hstep => hu.step ha hstep

end

/-! ## 5. Snapshots along a run -/

/-- What one operation does to the snapshot of the task. -/
inductive Progress : Option TaskSnapshot → Option TaskSnapshot → Prop
  | stays {snapshot : Option TaskSnapshot} : Progress snapshot snapshot
  | begins {first : TaskSnapshot} (version : first.version = 1)
      (generation : first.generation = 1) : Progress none (some first)
  | moves {snapshot next : TaskSnapshot} (moved : Moved snapshot next) :
      Progress (some snapshot) (some next)

theorem Progress.terminal {snapshot : TaskSnapshot} {next : Option TaskSnapshot}
    (h : Progress (some snapshot) next) (hterm : snapshot.state.isTerminal = true) :
    next = some snapshot := by
  cases h with
  | stays => rfl
  | moves moved =>
    rw [moved.live] at hterm
    cases hterm

theorem Write.snapshot?_eq {next : TaskSnapshot}
    (h : Write codecs now w w' row transition next lease) : w'.snapshot? = some next := by
  rw [World.snapshot?, h.row_eq]
  rfl

theorem Write.progress {next : TaskSnapshot} (h : Write codecs now w w' row transition next lease) :
    Progress w.snapshot? w'.snapshot? := by
  rw [h.snapshot?_eq, World.snapshot?, h.was]
  by_cases hsame : next = row.document.snapshot
  · rw [hsame]
    exact .stays
  · exact .moves (h.moved hsame)

theorem step_progress (hstep : (repository codecs).step w (now, a) = some w') :
    Progress w.snapshot? w'.snapshot? := by
  obtain ⟨heff, -, -⟩ := step_effect hstep
  cases heff with
  | idle row_eq =>
    rw [World.snapshot?, World.snapshot?, row_eq]
    exact .stays
  | created was checked fresh encoded row_eq =>
    obtain ⟨hgen, hver, -, -, rfl⟩ := withAuthoritativeCreationTime_eq_ok fresh
    rw [World.snapshot?, World.snapshot?, was, row_eq]
    exact .begins hver hgen
  | granted was opened working notCancelled job generation live loaded fence_eq row_eq
  | released was opened holds version row_eq =>
    rw [World.snapshot?, World.snapshot?, was, row_eq]
    exact .stays
  | paused write | recorded waiting write | resumed waiting write | ended write =>
      exact write.progress
  | signalled signal => exact signal.write.progress

/-- **A terminal snapshot never changes.** -/
theorem terminal_stays {snapshot : TaskSnapshot} (hsnap : w.snapshot? = some snapshot)
    (hterm : snapshot.state.isTerminal = true) (hrun : HandlerRun codecs w w') :
    w'.snapshot? = some snapshot := by
  refine hrun.invariant (I := fun u => u.snapshot? = some snapshot) hsnap
    fun u ⟨now, a⟩ v hu _ hstep => ?_
  have hprogress := step_progress hstep
  rw [hu] at hprogress
  exact hprogress.terminal hterm

/-! ## 6. Recorded answers -/

/-- The answer that a round holds for a key. -/
def InputRound.response? (round : InputRound) (key : InputKey) : Option Json :=
  (round.exchanges.get? key).bind (·.response)

/-- What a batch makes of the exchange of one key. -/
def InputResponses.fill (responses : InputResponses) (key : InputKey) (exchange : InputExchange) :
    InputExchange :=
  ((responses.responses.get? key).map fun response => answer exchange response).getD
    exchange

@[simp] theorem fill_request (responses : InputResponses) (key : InputKey)
    (exchange : InputExchange) : (responses.fill key exchange).request = exchange.request := by
  unfold InputResponses.fill answer
  cases responses.responses.get? key with
  | none => rfl
  | some response =>
    split <;> rfl

theorem fill_response (responses : InputResponses) (key : InputKey) (exchange : InputExchange) :
    (responses.fill key exchange).response =
      exchange.response.or (responses.responses.get? key) := by
  obtain ⟨request, response⟩ := exchange
  unfold InputResponses.fill
  cases responses.responses.get? key <;> cases response <;> rfl

theorem apply_exchanges (round : InputRound) (responses : InputResponses) :
    (round.apply responses).round.exchanges = round.exchanges.mapWithKey responses.fill :=
  SortedMap.foldl_modify (fun response exchange => answer exchange response) _ _
    responses.responses.sorted

variable {response : Json}

/-- **Applying a batch replaces no answer.** -/
theorem response?_apply {round : InputRound} {responses : InputResponses} {key : InputKey}
    (h : round.response? key = some response) :
    (round.apply responses).round.response? key = some response := by
  obtain ⟨exchange, hexch, hresp⟩ := bind_eq_some_iff.mp h
  rw [response?, apply_exchanges, SortedMap.get?_mapWithKey, hexch,
    map_some, bind_some, fill_response, hresp, some_or]

/-- The answer to a key of round `number` is there: in the round that waits, or in the round on
file. -/
inductive Answered (w : World) (number : Nat) (key : InputKey) (response : Json) : Prop
  | waiting {snapshot : TaskSnapshot} {round : InputRound} (current : w.snapshot? = some snapshot)
      (state : snapshot.state = .inputRequired round) (round_number : round.number = number)
      (held : round.response? key = some response)
  | filed {row : RoundRow} (mem : row ∈ w.rounds) (row_number : row.roundNumber = number)
      (held : row.document.response? key = some response)

/-- The task was cancelled or failed, perhaps for want of time, in this generation, so before its
round was complete. -/
def EndedIn (w : World) (generation : Nat) : Prop :=
  ∃ snapshot, w.snapshot? = some snapshot ∧
    (snapshot.state = .cancelled ∨ ∃ failure, snapshot.state = .failed failure) ∧
    snapshot.generation = generation

theorem step_rounds (hstep : (repository codecs).step w (now, a) = some w') :
    w.rounds <+: w'.rounds := by
  obtain ⟨heff, -, -⟩ := step_effect hstep
  cases heff with
  | idle row_eq rounds | created was checked fresh encoded row_eq rounds
  | granted was opened working notCancelled job generation live loaded fence_eq row_eq rounds
  | released was opened holds version row_eq rounds | paused write holds notCancelled rounds
  | recorded waiting write rounds | ended write terminal holds rounds =>
      exact rounds ▸ prefix_rfl
  | resumed waiting write encoded number rounds => exact rounds ▸ prefix_append _ _
  | signalled signal => exact signal.rounds ▸ prefix_rfl

/-- **What is on file stays on file.** -/
theorem rounds_stay (hrun : HandlerRun codecs w w') : w.rounds <+: w'.rounds :=
  hrun.monotone (R := fun u v => u.rounds <+: v.rounds) (fun _ => prefix_rfl)
    List.IsPrefix.trans fun _ ⟨_, _⟩ _ _ hstep => step_rounds hstep

theorem Answered.step {key : InputKey} (hord : Orderly w) (h : Answered w number key response)
    (hstep : (repository codecs).step w (now, a) = some w') :
    Answered w' number key response ∨ EndedIn w' number := by
  cases h with
  | filed mem row_number held =>
    exact .inl (.filed ((step_rounds hstep).subset mem) row_number held)
  | @waiting _ round current state round_number held =>
    obtain ⟨row, hrow, rfl⟩ := snapshot?_eq_some.mp current
    have hgen : row.document.snapshot.generation = number := by
      rw [hord.generation row hrow, ← hord.waiting row _ hrow state, round_number]
    have hstays : ∀ {row' : TaskRow} {lease : Option LeaseFence}, w.row = some row' →
        w'.row = some { row' with lease } → Answered w' number key response := by
      intro row' lease hrow' hnext
      rw [hrow] at hrow'
      cases hrow'
      exact .waiting (by rw [World.snapshot?, hnext]; rfl) state round_number held
    obtain ⟨heff, -, -⟩ := step_effect hstep
    cases heff with
    | idle row_eq =>
      exact .inl (.waiting (by rw [World.snapshot?, row_eq]; exact current) state round_number held)
    | created was =>
      rw [was] at hrow
      cases hrow
    | granted was opened working notCancelled job generation live loaded fence_eq row_eq
    | released was opened holds version row_eq =>
      exact .inl (hstays was row_eq)
    | paused write =>
      cases hrow.symm.trans write.was
      cases write.change with
      | requireInput hwk => cases state.symm.trans hwk
    | @recorded request _ _ next waiting write =>
      cases hrow.symm.trans write.was
      cases state.symm.trans waiting
      have hnext : next.state = .inputRequired (round.apply request.responses).round := by
        cases write.change
        rfl
      exact .inl (.waiting write.snapshot?_eq hnext round_number (response?_apply held))
    | resumed waiting write encoded hnum rounds =>
      cases hrow.symm.trans write.was
      cases state.symm.trans waiting
      refine .inl (.filed (rounds ▸ mem_append_right _ mem_cons_self) round_number ?_)
      exact response?_apply held
    | signalled signal =>
      cases hrow.symm.trans signal.write.was
      have hcur := signal.write.snapshot?_eq
      cases signal.write.change <;> exact .inl (.waiting hcur state round_number held)
    | ended write terminal _ _ ends =>
      cases hrow.symm.trans write.was
      refine .inr ⟨_, write.snapshot?_eq, ?_, (write.moved_of_terminal terminal).2.trans hgen⟩
      cases write.change with
      | complete => cases state.symm.trans ends
      | fail => exact .inr ⟨_, rfl⟩
      | cancel => exact .inl rfl
      | requireInput | recordInput | resume | requestCancellation | alreadyRequested => cases ends

theorem EndedIn.run (h : EndedIn w number) (hrun : HandlerRun codecs w w') : EndedIn w' number := by
  obtain ⟨snapshot, hsnap, hend, hgen⟩ := h
  have hterm : snapshot.state.isTerminal = true := by
    rcases hend with hst | ⟨failure, hst⟩ <;> rw [hst] <;> rfl
  exact ⟨snapshot, terminal_stays hsnap hterm hrun, hend, hgen⟩

/-- **A recorded answer is never replaced**, and lost only with the task. -/
theorem Answered.run {key : InputKey} (hord : Orderly w) (h : Answered w number key response)
    (hrun : HandlerRun codecs w w') : Answered w' number key response ∨ EndedIn w' number := by
  have hboth : Orderly w' ∧ (Answered w' number key response ∨ EndedIn w' number) := by
    refine hrun.invariant (I := fun u => Orderly u ∧
      (Answered u number key response ∨ EndedIn u number)) ⟨hord, .inl h⟩ ?_
    rintro u ⟨now, a⟩ v ⟨hu, hansw⟩ ha hstep
    refine ⟨hu.step ha hstep, ?_⟩
    rcases hansw with hansw | hended
    · exact hansw.step hu hstep
    · exact .inr (hended.run (.tail .refl ha hstep))
  exact hboth.2

/-! ## 7. Leases and signals -/

theorem Action.FromHandler.grant (h : a.FromHandler codecs w) (href : a.leaseRef = some ref) :
    ∃ grant ∈ w.leases, ref = grant.ref := by
  cases a with
  | abandon request | settle request =>
    cases href
    exact h
  | requireInput request =>
    cases href
    obtain ⟨grant, hmem, heq, -⟩ := h
    exact ⟨grant, hmem, heq⟩
  | _ => cases href

/-- **Only the holder of the newest lease gets anything done.** -/
theorem Orderly.acts_for_newest (h : Orderly w) (ha : a.FromHandler codecs w)
    (href : a.leaseRef = some ref) (hstep : (repository codecs).step w (now, a) = some w')
    (heffective : w' ≠ { w with clock := now }) :
    ∃ grant, w.leases.head? = some grant ∧ ref = grant.ref := by
  obtain ⟨grant, hmem, hgr⟩ := ha.grant href
  have hnwst : ∀ row, w.row = some row → exactLease row.lease ref = true →
      ∃ grant, w.leases.head? = some grant ∧ ref = grant.ref := fun row hrow hhd =>
    ⟨grant, (h.newest hrow hhd hmem (by rw [hgr]; rfl)).1, hgr⟩
  obtain ⟨heff, -, hclk⟩ := step_effect hstep
  cases heff with
  | idle row_eq rounds persisted leases worker =>
    have hsame := worker (by rw [href]; rfl)
    rw [hclk] at hsame
    exact absurd hsame heffective
  | created | granted | recorded | resumed | signalled => cases href
  | released was opened holds =>
    cases href
    exact hnwst _ was holds
  | paused write holds =>
    cases href
    exact hnwst _ write.was holds
  | ended write terminal holds => exact hnwst _ write.was (holds ref href)

/-- Signalled at `signal`, and since then at most ended. -/
def Stopping (signal : TaskSnapshot) (leases : List Grant) (w : World) : Prop :=
  w.leases = leases ∧ ∃ snapshot, w.snapshot? = some snapshot ∧ (snapshot = signal ∨
    snapshot.state.isTerminal = true ∧ snapshot.version = signal.version + 1)

theorem Signal.next {next : TaskSnapshot} (h : Signal codecs now w w' row next) :
    next.state = .working ∧ next.cancellationRequested = true := by
  have hwk : row.document.snapshot.state = .working := by
    have hfits := h.write.opened.lease_fits
    unfold leaseFitsState at hfits
    split at hfits
    · next hwk => exact hwk
    · have hleased := h.leased
      rw [isNone_iff_eq_none.mp hfits] at hleased
      cases hleased
  cases h.write.change with
  | requestCancellation => exact ⟨hwk, rfl⟩
  | alreadyRequested hreq => exact ⟨hwk, hreq⟩

variable {signal : TaskSnapshot}

theorem Stopping.step {leases : List Grant} (hwk : signal.state = .working)
    (hreq : signal.cancellationRequested = true) (h : Stopping signal leases w)
    (hstep : (repository codecs).step w (now, a) = some w') : Stopping signal leases w' := by
  obtain ⟨hlss, snapshot, hsnap, hst⟩ := h
  obtain ⟨row, hrow, rfl⟩ := snapshot?_eq_some.mp hsnap
  -- A row that is not the signalled one is terminal.
  have hterm : row.document.snapshot.state.isTerminal = false → row.document.snapshot = signal := by
    intro hlive
    rcases hst with hsame | ⟨hend, -⟩
    · exact hsame
    · rw [hend] at hlive
      cases hlive
  obtain ⟨heff, -, -⟩ := step_effect hstep
  cases heff with
  | idle row_eq rounds persisted leases_eq =>
    exact ⟨leases_eq.trans hlss, _, by rw [World.snapshot?, row_eq]; exact hsnap, hst⟩
  | created was =>
    rw [was] at hrow
    cases hrow
  | granted was opened working notCancelled =>
    cases hrow.symm.trans was
    have hsig := hterm (by rw [working]; rfl)
    rw [hsig, hreq] at notCancelled
    cases notCancelled
  | released was opened holds version row_eq rounds persisted leases_eq =>
    cases hrow.symm.trans was
    refine ⟨leases_eq.trans hlss, _, ?_, hst⟩
    rw [World.snapshot?, row_eq]
    rfl
  | paused write holds notCancelled =>
    cases hrow.symm.trans write.was
    rw [hterm write.live, hreq] at notCancelled
    cases notCancelled
  | recorded waiting write | resumed waiting write =>
    cases hrow.symm.trans write.was
    rw [hterm write.live, hwk] at waiting
    cases waiting
  | signalled signalAgain =>
    cases hrow.symm.trans signalAgain.write.was
    have hnc := signalAgain.notCancelled
    rw [hterm signalAgain.write.live, hreq] at hnc
    cases hnc
  | ended write terminal =>
    cases hrow.symm.trans write.was
    refine ⟨write.leases.trans hlss, _, write.snapshot?_eq, .inr ⟨terminal, ?_⟩⟩
    rw [(write.moved_of_terminal terminal).1.version, hterm write.live]

/-! ## 8. The law -/

/-- What is always true of a task, in a state `w` that clients and workers have brought about. -/
structure LifecycleLaw (codecs : Codecs) (w : World) : Prop where
  /-- The snapshot changes by one version at a time, later each time; the generation changes when
  the task resumes, by one. -/
  progress : ∀ now a w', a.FromHandler codecs w →
    (repository codecs).step w (now, a) = some w' → Progress w.snapshot? w'.snapshot?
  terminal : ∀ snapshot w', w.snapshot? = some snapshot → snapshot.state.isTerminal = true →
    HandlerRun codecs w w' → w'.snapshot? = some snapshot
  /-- The generation is one plus the number of completed rounds. -/
  generation : ∀ snapshot, w.snapshot? = some snapshot →
    snapshot.generation = 1 + w.rounds.length
  /-- Completed rounds are numbered from one, and were completed in the generation of their
  number. -/
  filed : Filed w.rounds
  /-- A round is asked for in the generation of its number. -/
  waiting : ∀ snapshot round, w.snapshot? = some snapshot →
    snapshot.state = .inputRequired round → round.number = snapshot.generation
  /-- An answer is never replaced, and lost only when the task ends in the generation that asked. -/
  answers : ∀ number key response w', Answered w number key response → HandlerRun codecs w w' →
    Answered w' number key response ∨ EndedIn w' number
  /-- A completed round stays on file. -/
  rounds : ∀ w', HandlerRun codecs w w' → w.rounds <+: w'.rounds
  /-- A worker's request that changes anything is from the holder of the newest lease. -/
  holder : ∀ now a ref w', a.FromHandler codecs w → a.leaseRef = some ref →
    (repository codecs).step w (now, a) = some w' → w' ≠ { w with clock := now } →
    ∃ grant, w.leases.head? = some grant ∧ ref = grant.ref
  /-- After a signal: no lease, no waiting, and no change but to an end. -/
  signalled : ∀ now request w₁ signal w₂,
    cancelAtomic codecs w now request = .ok (w₁, .signalled signal) →
    HandlerRun codecs { w₁ with clock := now } w₂ →
    w₂.leases = w₁.leases ∧ ∃ snapshot, w₂.snapshot? = some snapshot ∧
      (∀ round, snapshot.state ≠ .inputRequired round) ∧ (snapshot = signal ∨
        snapshot.state.isTerminal = true ∧ snapshot.version = signal.version + 1)

theorem stopping_of_signalled {w₁ w₂ : World} {request : AtomicCancellation}
    (hcancel : cancelAtomic codecs w now request = .ok (w₁, .signalled signal))
    (hrun : HandlerRun codecs { w₁ with clock := now } w₂) :
    w₂.leases = w₁.leases ∧ ∃ snapshot, w₂.snapshot? = some snapshot ∧
      (∀ round, snapshot.state ≠ .inputRequired round) ∧ (snapshot = signal ∨
        snapshot.state.isTerminal = true ∧ snapshot.version = signal.version + 1) := by
  obtain ⟨row, hsig⟩ := (cancelAtomic_effect hcancel).2 signal rfl
  obtain ⟨hwk, hreq⟩ := hsig.next
  have hstt : Stopping signal w₁.leases { w₁ with clock := now } :=
    ⟨rfl, signal, hsig.write.snapshot?_eq, .inl rfl⟩
  have hstopping : Stopping signal w₁.leases w₂ := hrun.invariant hstt
    fun _ ⟨_, _⟩ _ hu _ hstep => hu.step hwk hreq hstep
  obtain ⟨hlss, snapshot, hsnap, hst⟩ := hstopping
  refine ⟨hlss, snapshot, hsnap, ?_, hst⟩
  intro round hwt
  rcases hst with rfl | ⟨hterm, -⟩
  · rw [hwk] at hwt
    cases hwt
  · rw [hwt] at hterm
    cases hterm

/-- **The lifecycle law**, in every state that clients and workers can bring about. -/
theorem task_lifecycle {w : World} (hrun : HandlerRun codecs World.empty w) :
    LifecycleLaw codecs w := by
  have hord : Orderly w := Orderly.empty.run hrun
  refine ⟨fun _ _ _ _ => step_progress, fun _ _ => terminal_stays, ?_, hord.filed, ?_,
    fun _ _ _ _ hansw => hansw.run hord, fun _ => rounds_stay,
    fun _ _ _ _ => hord.acts_for_newest, fun _ _ _ _ _ => stopping_of_signalled⟩
  · intro snapshot hsnap
    obtain ⟨row, hrow, rfl⟩ := snapshot?_eq_some.mp hsnap
    rw [hord.generation row hrow, Nat.add_comm]
  · intro snapshot round hsnap hwt
    obtain ⟨row, hrow, rfl⟩ := snapshot?_eq_some.mp hsnap
    rw [hord.generation row hrow]
    exact hord.waiting row round hrow hwt

/-! ## 9. A task that is asked twice -/

/-- The handler's requests, recognised. -/
def Action.fromHandler? (codecs : Codecs) (w : World) : Action → Bool
  | .abandon request => w.leases.any fun grant => request = grant.ref
  | .requireInput request => w.leases.any fun grant => request.toLeaseRef = grant.ref
      && grant.roundNumber = some request.round.number
      && ofRequests codecs request.round.number request.round.requestState
        (request.round.exchanges.mapWithKey fun _ exchange => exchange.request)
        = .ok request.round
  | .settle request => w.leases.any fun grant => request.toLeaseRef = grant.ref
  | _ => true

theorem fromHandler_of_recognised (h : a.fromHandler? codecs w = true) :
    a.FromHandler codecs w := by
  cases a with
  | abandon request | settle request =>
    obtain ⟨grant, hmem, href⟩ := any_eq_true.mp h
    exact ⟨grant, hmem, of_decide_eq_true href⟩
  | requireInput request =>
    obtain ⟨grant, hmem, hbuilt⟩ := any_eq_true.mp h
    simp only [Bool.and_eq_true, decide_eq_true_eq] at hbuilt
    exact ⟨grant, hmem, hbuilt.1.1, _, _, _, hbuilt.1.2, hbuilt.2⟩
  | _ => trivial

/-- Enough for `Fits`: every batch about the waiting round is within the bounds. -/
def Action.fits? (w : World) : Action → Bool
  | .updateInput request => w.snapshot?.all fun snapshot => match snapshot.state with
    | .inputRequired round =>
      if (round.apply request.responses).round.isComplete then
        (InputResponses.toJson (round.apply request.responses).round.answers).size ≤
          maxTaskInputBytes
      else (exchangesJson (round.apply request.responses).round.exchanges).size ≤
          maxTaskInputBytes
    | _ => true
  | _ => true

theorem fits_of_decided (h : a.fits? w = true) : a.Fits w now := by
  cases a with
  | updateInput request =>
    intro row round haccepted
    have hsnap : w.snapshot? = some row.document.snapshot :=
      snapshot?_eq_some.mpr ⟨row, (filter_eq_some_iff.mp haccepted.owned).1, rfl⟩
    rw [Action.fits?, hsnap] at h
    simp only [all_some, haccepted.waiting] at h
    split at h
    · next hcom =>
      rw [if_pos hcom]
      exact of_decide_eq_true h
    · next hinc =>
      rw [if_neg hinc]
      exact of_decide_eq_true h
  | _ => trivial

/-- A run whose worker requests are the handler's, and whose answers fit. -/
abbrev CheckedRun (codecs : Codecs) (w : World) (actions : List (Instant × Action)) (w' : World) :
    Prop :=
  (repository codecs).runIf (fun w a => a.2.fromHandler? codecs w && a.2.fits? w) w actions =
    some w'

theorem CheckedRun.handlerRun {actions : List (Instant × Action)}
    (h : CheckedRun codecs w actions w') : HandlerRun codecs w w' :=
  Machine.reachIf_of_runIf_imp actions
    (fun _ _ _ hchk => fromHandler_of_recognised (Bool.and_eq_true_iff.mp hchk).1) h

namespace Demo

def request : Json := .object [("method", .string "roots/list")]

/-- Digests that tell texts of different length apart. -/
def lengthCodecs : Codecs where
  sha256 text := Vector.replicate 32 (.ofNat (byteLength text))
  invocationDigest _ _ := Vector.replicate 32 0
  inputRequest value := value = request
  rfc3339 _ := ""
  rfc3339_short _ := by decide

def owner : TaskOwner := ⟨"s", none⟩

def taskId : TaskId := ⟨"t"⟩

def budget : TaskBudget := ⟨⟨1, 1, 1⟩, ⟨"r", by decide⟩⟩

def config : TaskConfig := ⟨1000000, 100000, by decide, by decide, by decide, by decide⟩

def execution : TaskExecution :=
  ⟨⟨"e", "1"⟩, .global, .notProvided, .object [], "k", budget, by decide⟩

def intent (jobId : JobId) (generation : Nat) : ExecutionIntent :=
  ⟨jobId, taskId, generation, none, "c", none⟩

def snapshot : TaskSnapshot := .initial taskId owner ⟨"e", "1"⟩
  ⟨"r", "c", none⟩ ⟨"k", Vector.replicate 32 0⟩ budget ⟨"1"⟩ 0 config

def create : Action := .create ⟨⟨snapshot, execution⟩, intent ⟨"1"⟩ 1⟩

def key : InputKey := ⟨"a", by decide⟩

def otherKey : InputKey := ⟨"bb", by decide⟩

def round : InputRound where
  number := 1
  requestState := ⟨"s", by decide⟩
  exchanges := ⟨[(key, ⟨request, none⟩), (otherKey, ⟨request, none⟩)], by
    simp only [pairwise_cons, mem_singleton, forall_eq, not_mem_nil, false_imp_iff,
      implies_true, List.Pairwise.nil, and_self, and_true]
    decide⟩

def claim (generation : Nat) (jobId : JobId) : Action := .claim ⟨taskId, generation, jobId⟩

/-- The worker asks, under the lease it was granted at 2. -/
def ask : Action := .requireInput ⟨⟨taskId, 1, 1, 2, ⟨"1"⟩⟩, round⟩

def answer (key : InputKey) (version : Nat) (response : Json) : AtomicInputUpdate where
  owner
  taskId
  expectedVersion := version
  expectedGeneration := 1
  expectedRound := 1
  responses := ⟨⟨[(key, response)], pairwise_singleton _ _⟩⟩
  resumeIntent := intent ⟨"2"⟩ 2

def cancel (version generation : Nat) : Action := .cancel
  ⟨owner, taskId, version, generation, ⟨taskId, generation, none, "c", none⟩⟩

def waiting : StoredTask where
  snapshot := { snapshot with
    version := 2
    createdAt := 1
    updatedAt := 3
    expiresAt := 1 + config.ttl
    state := .inputRequired round }
  execution

def rowOf (stored : StoredTask) : TaskRow := ⟨columnsOf lengthCodecs stored.snapshot, stored, none⟩

def asked : List (Instant × Action) := [(1, create), (2, claim 1 ⟨"1"⟩), (3, ask)]

def half : List (Instant × Action) := [(4, .updateInput (answer key 2 (.object [])))]

def full : List (Instant × Action) := [(5, .updateInput (answer otherKey 3 (.object [])))]

def stopped : List (Instant × Action) := [(6, claim 2 ⟨"2"⟩), (7, cancel 4 2)]

def run (w : World) (actions : List (Instant × Action)) : Option World :=
  (repository lengthCodecs).runIf
    (fun w a => a.2.fromHandler? lengthCodecs w && a.2.fits? w) w actions

/-- Each part of the run, evaluated, and what is read off its last state. -/
theorem evaluated : (run .empty asked).any (fun w₁ => w₁.clock = 3 &&
    (w₁.row.any fun row => row.columns = columnsOf lengthCodecs waiting.snapshot &&
      row.document = waiting && row.lease.isNone) &&
    (run w₁ half).any fun w₂ =>
      (w₂.snapshot?.any fun snapshot => match snapshot.state with
        | .inputRequired round => round.number = 1 && round.response? key = some (.object [])
        | _ => false) &&
      ((run w₂ [(5, cancel 3 1)]).any fun w' =>
        w'.rounds.isEmpty && w'.snapshot?.any (·.state = .cancelled)) &&
      (run w₂ full).any fun w₃ => w₃.rounds.length = 1 && w₃.persisted.length = 4 &&
        (run w₃ stopped).any fun w₄ => w₄.leases.length = 2 &&
          w₄.snapshot?.any fun snapshot =>
            snapshot.cancellationRequested && snapshot.version = 5) = true := by
  decide +kernel

theorem states : ∃ w₁ w₂ w₃, CheckedRun lengthCodecs .empty asked w₁ ∧ w₁.clock = 3 ∧
    w₁.row = some (rowOf waiting) ∧ CheckedRun lengthCodecs w₁ half w₂ ∧
    Answered w₂ 1 key (.object []) ∧
    (∃ w', CheckedRun lengthCodecs w₂ [(5, cancel 3 1)] w' ∧ w'.rounds = [] ∧
      ∃ snapshot, w'.snapshot? = some snapshot ∧ snapshot.state = .cancelled) ∧
    CheckedRun lengthCodecs w₂ full w₃ ∧ w₃.rounds.length = 1 ∧ w₃.persisted.length = 4 ∧
    ∃ w₄, CheckedRun lengthCodecs w₃ stopped w₄ ∧ w₄.leases.length = 2 ∧
      ∃ snapshot, w₄.snapshot? = some snapshot ∧ snapshot.cancellationRequested = true ∧
        snapshot.version = 5 := by
  have h := evaluated
  simp only [Option.any_eq_true, Bool.and_eq_true, decide_eq_true_eq, Option.isNone_iff_eq_none,
    List.isEmpty_iff] at h
  obtain ⟨w₁, hw₁, ⟨hclk, ⟨_, _, _⟩, hrow, ⟨rfl, rfl⟩, rfl⟩, w₂, hw₂,
    ⟨⟨snapshot, hsnap, hst⟩, hcan⟩, w₃, hw₃, ⟨hrds, hper⟩, hsignalled⟩ := h
  refine ⟨w₁, w₂, w₃, hw₁, hclk, hrow, hw₂, ?_, hcan, hw₃, hrds, hper, hsignalled⟩
  split at hst
  · next round hrd =>
    simp only [Bool.and_eq_true, decide_eq_true_eq] at hst
    exact .waiting hsnap hrd hst.1 hst.2
  · cases hst

end Demo

/-- Both questions are answered, the task is leased again, and then told to stop. -/
theorem task_lifecycle_second_lease : ∃ w, HandlerRun Demo.lengthCodecs World.empty w ∧
    w.leases.length = 2 ∧ (∃ snapshot, w.snapshot? = some snapshot ∧
      snapshot.cancellationRequested = true ∧ snapshot.version = 5) ∧
    LifecycleLaw Demo.lengthCodecs w := by
  obtain ⟨w₁, w₂, w₃, h₁, -, -, h₂, -, -, h₃, -, -, w₄, h₄, hlss, hsig⟩ := Demo.states
  have hrun := ((h₁.handlerRun.trans h₂.handlerRun).trans h₃.handlerRun).trans h₄.handlerRun
  exact ⟨w₄, hrun, hlss, hsig, task_lifecycle hrun⟩

/-- **An answer can be dropped**: one of two questions is answered, then the task is cancelled, and
the answer is neither in the task nor on file. -/
theorem recorded_answer_dropped : ∃ w w', HandlerRun Demo.lengthCodecs World.empty w ∧
    HandlerRun Demo.lengthCodecs w w' ∧ Answered w 1 Demo.key (.object []) ∧
    ¬Answered w' 1 Demo.key (.object []) := by
  obtain ⟨w₁, w₂, w₃, h₁, -, -, h₂, hans, ⟨w', hcancel, hrds, last, hlast, hcan⟩, -⟩ :=
    Demo.states
  refine ⟨w₂, w', h₁.handlerRun.trans h₂.handlerRun, hcancel.handlerRun, hans, ?_⟩
  intro hstill
  cases hstill with
  | waiting current state =>
    cases hlast.symm.trans current
    rw [hcan] at state
    cases state
  | filed mem =>
    rw [hrds] at mem
    cases mem

/-! ## 10. Deadlines -/

/-- Recorded as expired exactly when the last change came at the deadline or later. -/
def TaskSnapshot.Timely (snapshot : TaskSnapshot) : Prop :=
  snapshot.state = .failed .expired ↔ snapshot.expiresAt ≤ snapshot.updatedAt

theorem Change.timely {snapshot next : TaskSnapshot} {transition : TaskTransition}
    (h : Change snapshot now transition next) (hlive : snapshot.state.isTerminal = false)
    (ht : snapshot.Timely) : next.Timely := by
  unfold TaskSnapshot.Timely at *
  cases h with
  | requireInput _ hnow | recordInput _ _ _ hnow | resume _ _ _ hnow | complete hnow
  | cancel hnow => simp [hnow]
  | requestCancellation _ hnow =>
    refine ⟨fun hst => ?_, fun hle => absurd hle (Nat.not_le.mpr hnow)⟩
    rw [show snapshot.state = _ from hst] at hlive
    cases hlive
  | alreadyRequested => exact ht
  | fail hiff => simpa using hiff

theorem SameTask.refl (snapshot : TaskSnapshot) : SameTask snapshot snapshot :=
  ⟨rfl, rfl, rfl, rfl, rfl, rfl, rfl, rfl, rfl⟩

theorem SameTask.trans {a b c : TaskSnapshot} (h : SameTask a b) (h' : SameTask b c) :
    SameTask a c := by
  obtain ⟨h₁, h₂, h₃, h₄, h₅, h₆, h₇, h₈, h₉⟩ := h
  exact ⟨h₁ ▸ h'.1, h₂ ▸ h'.2, h₃ ▸ h'.3, h₄ ▸ h'.4, h₅ ▸ h'.5, h₆ ▸ h'.6, h₇ ▸ h'.7, h₈ ▸ h'.8,
    h₉ ▸ h'.9⟩

/-- What is stored is on time, and it is the task that was stored before, if there was one. -/
structure Followed (w w' : World) : Prop where
  timely : ∀ next ∈ w'.snapshot?, next.Timely
  same : ∀ snapshot ∈ w.snapshot?, ∃ next ∈ w'.snapshot?, SameTask snapshot next

theorem Write.followed {row : TaskRow} {transition : TaskTransition} {next : TaskSnapshot}
    {lease : Option LeaseFence} (h : Write codecs now w w' row transition next lease)
    (ht : ∀ snapshot ∈ w.snapshot?, snapshot.Timely) : Followed w w' := by
  have hwas : w.snapshot? = some row.document.snapshot := snapshot?_eq_some.mpr ⟨row, h.was, rfl⟩
  constructor <;> rw [h.snapshot?_eq]
  · rintro _ ⟨⟩
    exact h.change.timely h.live (ht _ hwas)
  · rw [hwas]
    rintro _ ⟨⟩
    exact ⟨next, rfl, h.change.sameTask⟩

theorem step_followed (hstep : (repository codecs).step w (now, a) = some w')
    (ht : ∀ snapshot ∈ w.snapshot?, snapshot.Timely) : Followed w w' := by
  have hstays (heq : w'.snapshot? = w.snapshot?) : Followed w w' :=
    ⟨heq ▸ ht, fun s hs => ⟨s, heq ▸ hs, .refl s⟩⟩
  obtain ⟨heff, -, -⟩ := step_effect hstep
  cases heff with
  | idle row_eq => exact hstays (by rw [World.snapshot?, World.snapshot?, row_eq])
  | created was checked fresh encoded row_eq =>
    constructor <;> rw [World.snapshot?]
    · rw [row_eq]
      rintro _ ⟨⟩
      simp only [TaskSnapshot.withAuthoritativeCreationTime, guard_eq_ok] at fresh
      obtain ⟨hgd, httl, ⟨⟩⟩ := fresh
      simp only [ne_eq, Bool.or_eq_true, decide_eq_true_eq, not_or, Decidable.not_not] at hgd
      simp [TaskSnapshot.Timely, hgd.1.1.2, httl]
    · rw [was]
      rintro _ ⟨⟩
  | granted was opened working notCancelled job generation live loaded fence_eq row_eq
  | released was opened holds version row_eq =>
    exact hstays (by rw [World.snapshot?, World.snapshot?, was, row_eq]; rfl)
  | paused write | recorded waiting write | resumed waiting write | ended write =>
    exact write.followed ht
  | signalled signal => exact signal.write.followed ht

/-- **The deadline binds.**  Whatever clients and workers ask for, a stored task stays stored under
its owner, with its budget and its deadline; and it is recorded as expired exactly when its last
change came at the deadline or later: from then on nothing but the expiry is recorded. -/
theorem deadline_binds {w w' : World} {snapshot : TaskSnapshot}
    (h : (repository codecs).Reach World.empty w) (hsnap : w.snapshot? = some snapshot)
    (hrun : (repository codecs).Reach w w') :
    ∃ later, w'.snapshot? = some later ∧ SameTask snapshot later ∧
      (later.state = .failed .expired ↔ snapshot.expiresAt ≤ later.updatedAt) := by
  have hstart := h.invariant (I := fun u => ∀ s ∈ u.snapshot?, s.Timely) nofun
    fun _ _ _ hu _ hstep => (step_followed hstep hu).timely
  obtain ⟨ht, later, hlater, hsame⟩ := hrun.invariant (I := fun u =>
      (∀ s ∈ u.snapshot?, s.Timely) ∧ ∃ s ∈ u.snapshot?, SameTask snapshot s)
    ⟨hstart, snapshot, hsnap, .refl snapshot⟩ fun u _ v ⟨ht, s, hs, hsame⟩ _ hstep => by
      have hfollowed := step_followed hstep ht
      obtain ⟨next, hnext, hsame'⟩ := hfollowed.same s hs
      exact ⟨hfollowed.timely, next, hnext, hsame.trans hsame'⟩
  exact ⟨later, hlater, hsame, hsame.expiresAt ▸ ht later hlater⟩

/-- The task that waits for its answers, and what became of it when it is told to stop. -/
theorem deadline_binds_second_lease : ∃ w w' later,
    (repository Demo.lengthCodecs).Reach World.empty w ∧
    (repository Demo.lengthCodecs).Reach w w' ∧ w'.snapshot? = some later ∧
    later.version = 5 ∧ SameTask Demo.waiting.snapshot later ∧
    (later.state = .failed .expired ↔ Demo.waiting.snapshot.expiresAt ≤ later.updatedAt) := by
  obtain ⟨w₁, w₂, w₃, h₁, -, hrow, h₂, -, -, h₃, -, -, w₄, h₄, -, later, hlater, -, hversion⟩ :=
    Demo.states
  have hfirst := h₁.handlerRun.mono fun _ _ _ => trivial
  have hrest := ((h₂.handlerRun.trans h₃.handlerRun).trans h₄.handlerRun).mono
    fun _ _ _ => trivial
  obtain ⟨_, hlast, hsame, hiff⟩ :=
    deadline_binds hfirst (snapshot?_eq_some.mpr ⟨_, hrow, rfl⟩) hrest
  cases hlater.symm.trans hlast
  exact ⟨w₁, w₄, later, hfirst, hrest, hlater, hversion, hsame, hiff⟩

end Omnius.Tasks
