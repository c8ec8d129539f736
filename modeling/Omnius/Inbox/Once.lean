/-
# The inbox: each receipt completed once, and the stale claims that are called corrupt

What the inbox keeps on every interleaving is an invariant of the receipt and of the effects behind
it (`Genuine`), seen from any transaction; `Locked.Sound` carries it through commits and rollbacks.

* `inbox_applies_once` -- between two completions that committed the receipt was removed, cleanup
  takes completed receipts only, and every call answers what the receipt it saw demands
  (`Answer.Lawful`): a delivery that differs is a conflict, a duplicate is exactly a matching
  completed receipt.
* `complete_with` and `release_with` answer `ClaimLost` for a claim that is no longer current AS
  LONG AS the receipt, if there is one, is still the claim's own.  Once it was released and claimed
  again, a stale claim is answered with `CorruptData`, and so is a `resume_with` of a delivery that
  differs from the receipt (`stale_claim_called_corrupt`): nothing stored is corrupt in either case.
-/
import Omnius.Inbox.Store

namespace Omnius.Inbox

open Omnius.Lib List Option

/-! ## 1. The law -/

def Effect.isCompletion : Effect → Bool
  | .completed _ => true
  | _ => false

def Effect.isRemoval : Effect → Bool
  | .released _ => true
  | .cleaned _ => true
  | _ => false

/-- A completion that no removal has followed. -/
def openCompletion : List Effect → Bool
  | [] => false
  | effect :: past =>
    if effect.isCompletion then true else if effect.isRemoval then false else openCompletion past

/-- No completion follows an open one, and cleanup takes completed receipts. -/
def Once : List Effect → Prop
  | [] => True
  | effect :: past =>
    (effect.isCompletion = true → openCompletion past = false) ∧
    (∀ receipt, effect = .cleaned receipt → receipt.processedAt ≠ none) ∧ Once past

def Current (seen : Option Receipt) : Prop := ∃ row, seen = some row ∧ row.processedAt = none

/-- The receipt, if there is one, is the one the claim was made for. -/
def NotReplaced (claim : ClaimedInboxEvent) (seen : Option Receipt) : Prop :=
  ∀ row, seen = some row → row.generation = claim.generation

/-- Success on a current claim, `ClaimLost` otherwise. -/
def Settles (seen : Option Receipt) (outcome : Except InboxStoreError Unit) : Prop :=
  (outcome = .ok () ∧ Current seen) ∨ outcome = .error .claimLost

/-- What a call may answer, given the receipt its deciding statement saw. -/
def Answer.Lawful : Answer → Prop
  | .claim event seen outcome =>
    (seen = none → outcome = .ok .claimed ∨ outcome = .error .claimLost) ∧
    ∀ row, seen = some row →
      (row.fields ≠ event.fields → outcome = .ok .conflict) ∧
      (row.fields = event.fields →
        outcome = .ok (if row.processedAt.isSome then .duplicate else .inProgress))
  | .resume event seen outcome =>
    (seen = none → outcome = .error .claimLost) ∧
    ∀ row, seen = some row → row.fields = event.fields →
      outcome = if row.processedAt.isSome then .error .claimLost
        else .ok ⟨row.generation, event, row.receivedAt⟩
  | .complete own processedAt seen outcome =>
    own.receivedAt ≤ processedAt → NotReplaced own seen → Settles seen outcome
  | .release own seen outcome => NotReplaced own seen → Settles seen outcome

/-! ## 2. The invariant -/

/-- A receipt is what its insertion made it, up to its completion. -/
def Born (births : List (Nat × Immutable)) (row : Receipt) : Prop :=
  births[row.generation]? = some (row.receivedAt, row.fields)

/-- A receipt and the effects behind it. -/
structure Genuine (births : List (Nat × Immutable)) (row : Option Receipt) (log : List Effect) :
    Prop where
  born : ∀ receipt, row = some receipt → Born births receipt
  wellFormed : ∀ receipt, row = some receipt → receipt.fields.isWellFormed = true
  completed : openCompletion log = true ↔ ∃ receipt, row = some receipt ∧ receipt.processedAt ≠ none
  once : Once log

/-- A claim is for a receipt that was inserted for its delivery. -/
def Founded (births : List (Nat × Immutable)) (claim : ClaimedInboxEvent) : Prop :=
  births[claim.generation]? = some (claim.receivedAt, claim.event.fields)

/-- The claim inside a call. -/
def Call.Founded (births : List (Nat × Immutable)) : Call → Prop
  | .claim _ => True
  | .complete own _ => Inbox.Founded births own
  | .release own => Inbox.Founded births own

structure Kept (w : World) : Prop where
  receipt : w.receipt.Sound (Genuine w.births)
  claims : ∀ claim ∈ w.claims, Founded w.births claim
  calls : ∀ call ∈ w.calls, call.2.Founded w.births
  answers : ∀ answer ∈ w.answers, answer.Lawful

section Kept

variable {w : World} {births : List (Nat × Immutable)} {row : Receipt} {log : List Effect}

theorem Genuine.empty : Genuine [] none [] where
  born := nofun
  wellFormed := nofun
  completed := by simp [openCompletion]
  once := trivial

theorem Kept.start : Kept machine.start where
  receipt := ⟨.empty, nofun⟩
  claims := nofun
  calls := nofun
  answers := nofun

theorem eq_of_generation {claim : ClaimedInboxEvent} (hborn : Born births row)
    (hclm : Founded births claim) (hgen : row.generation = claim.generation) :
    row.receivedAt = claim.receivedAt ∧ row.fields = claim.event.fields := by
  unfold Born at hborn
  rw [hgen, hclm, some.injEq, Prod.mk.injEq] at hborn
  exact ⟨hborn.1.symm, hborn.2.symm⟩

theorem getElem?_grown {births : List (Nat × Immutable)} {generation : Nat}
    {birth next : Nat × Immutable} (h : births[generation]? = some birth) :
    (births ++ [next])[generation]? = some birth := by
  rw [List.getElem?_append_left (List.getElem?_eq_some_iff.mp h).1]
  exact h

/-! ### The statements keep the receipt genuine -/

section Statements

variable {existing : Option Receipt}

theorem Genuine.grown (h : Genuine births existing log) (next : Nat × Immutable) :
    Genuine (births ++ [next]) existing log :=
  { h with born := fun receipt hrcp => getElem?_grown (h.born receipt hrcp) }

theorem Genuine.inserted (h : Genuine births none log) (event : InboxEvent)
    (receivedAt stampedAt : Nat) :
    Genuine (births ++ [(receivedAt, event.fields)])
      (some (event.receipt births.length receivedAt stampedAt))
      (.inserted births.length :: log) where
  born := by
    rintro receipt ⟨⟩
    simp [Born, InboxEvent.receipt]
  wellFormed := by
    rintro receipt ⟨⟩
    exact event.wellFormed
  completed := by
    have hcl : openCompletion log = false := by simpa using h.completed
    simp [openCompletion, Effect.isCompletion, hcl, InboxEvent.receipt]
  once := ⟨nofun, nofun, h.once⟩

theorem Genuine.completion (h : Genuine births (some row) log) (hrow : row.processedAt = none)
    (processedAt : Nat) :
    Genuine births (some { row with processedAt := some processedAt })
      (.completed row.generation :: log) where
  born := by
    rintro receipt ⟨⟩
    exact h.born row rfl
  wellFormed := by
    rintro receipt ⟨⟩
    exact h.wellFormed row rfl
  completed := by simp [openCompletion, Effect.isCompletion]
  once := by
    refine ⟨fun _ => Bool.eq_false_iff.mpr fun hopen => ?_, nofun, h.once⟩
    obtain ⟨receipt, ⟨⟩, hproc⟩ := h.completed.mp hopen
    exact hproc hrow

theorem Genuine.removal (h : Genuine births existing log) {effect : Effect}
    (hrml : effect.isRemoval = true)
    (hcleaned : ∀ receipt, effect = .cleaned receipt → receipt.processedAt ≠ none) :
    Genuine births none (effect :: log) where
  born := nofun
  wellFormed := nofun
  completed := by
    have hcmpl : effect.isCompletion = false := by
      cases effect with
      | inserted | completed => cases hrml
      | released | cleaned => rfl
    simp [openCompletion, hcmpl, hrml]
  once := by
    refine ⟨fun hcmpl => ?_, hcleaned, h.once⟩
    cases effect with
    | inserted | completed => cases hrml
    | released | cleaned => cases hcmpl

/-! ### The answers are lawful -/

theorem lawful_classifyExisting (h : Genuine births existing log) (event : InboxEvent) :
    (Answer.claim event existing (classifyExisting existing event)).Lawful := by
  cases existing with
  | none => exact ⟨fun _ => .inr rfl, nofun⟩
  | some row =>
    refine ⟨nofun, ?_⟩
    rintro _ ⟨⟩
    have hformed := h.wellFormed row rfl
    constructor
    · intro hne
      simp [classifyExisting, hformed, hne]
    · intro heq
      cases hproc : row.processedAt <;>
        simp [classifyExisting, heq, hproc, event.wellFormed]

theorem lawful_resumeExisting (existing : Option Receipt) (event : InboxEvent) :
    (Answer.resume event existing (resumeExisting existing event)).Lawful := by
  cases existing with
  | none => exact ⟨fun _ => rfl, nofun⟩
  | some row =>
    refine ⟨nofun, ?_⟩
    rintro _ ⟨⟩ heq
    cases hproc : row.processedAt <;>
      simp [resumeExisting, heq, hproc, event.wellFormed]

/-- A claim whose receipt was not replaced is lost, never corrupt. -/
theorem classifyLost_eq {claim : ClaimedInboxEvent} (h : Genuine births existing log)
    (hclm : Founded births claim) (hrep : NotReplaced claim existing) :
    classifyLost existing claim = .claimLost := by
  cases existing with
  | none => rfl
  | some row =>
    obtain ⟨hreceived, hfields⟩ :=
      eq_of_generation (h.born row rfl) hclm (hrep row rfl)
    have hformed := h.wellFormed row rfl
    rw [hfields] at hformed
    simp [classifyLost, hreceived, hfields, hformed]

theorem lawful_classified (h : Genuine births existing log) {call : Call}
    (hcall : call.Founded births) : (World.classified existing call).Lawful := by
  cases call with
  | claim event => exact lawful_classifyExisting h event
  | complete own processedAt =>
    intro _ hrep
    exact .inr (by rw [classifyLost_eq h hcall hrep])
  | release own =>
    intro hrep
    exact .inr (by rw [classifyLost_eq h hcall hrep])

end Statements

variable {existing : Option Receipt}

theorem founded_of_resumed {event : InboxEvent}
    {claim : ClaimedInboxEvent} (h : Genuine births existing log)
    (hclm : resumeExisting existing event = .ok claim) : Founded births claim := by
  cases existing with
  | none => cases hclm
  | some row =>
    have hborn : births[row.generation]? = some (row.receivedAt, row.fields) := h.born row rfl
    simp only [resumeExisting] at hclm
    split_ifs at hclm with hsame _
    cases hclm
    have hfields : row.fields = event.fields := by
      simp only [Bool.or_eq_true, decide_eq_true_eq, not_or, not_not] at hsame
      exact hsame.2
    rw [Founded, hborn, hfields]

variable {own : ClaimedInboxEvent}

theorem owned_of_filter (h : existing.filter own.owns = some row) :
    existing = some row ∧ row.processedAt = none := by
  obtain ⟨hexisting, howns⟩ := filter_eq_some_iff.mp h
  exact ⟨hexisting, isNone_iff_eq_none.mp (Bool.and_eq_true_iff.mp howns).2⟩

/-! ### One step, every run -/

theorem databaseVersion_eq (event : InboxEvent) :
    event.databaseVersion = .ok event.fields.eventVersion := if_pos event.versionFits

theorem Kept.answered (h : Kept w) {answer : Answer} (hlaw : answer.Lawful) :
    Kept (w.answer answer) :=
  { h with answers := forall_mem_cons.mpr ⟨hlaw, h.answers⟩ }

/-- A call that found no row of its own is kept, to be classified. -/
theorem Kept.called (h : Kept w) {txn : Nat} {call : Call} (hcall : call.Founded w.births) :
    Kept { w with calls := (txn, call) :: w.calls } :=
  { h with calls := forall_mem_cons.mpr ⟨hcall, h.calls⟩ }

theorem Kept.written (h : Kept w) {txn : Nat} {news : List Effect}
    (hgnu : Genuine w.births existing (news ++ w.receipt.viewLog txn)) :
    Kept { w with receipt := w.receipt.write txn existing news } :=
  { h with receipt := h.receipt.write hgnu }

theorem Kept.lock (h : Kept w) (txn : Nat) : Kept (w.lock txn) := by
  unfold World.lock
  split
  · exact h
  · next existing hview =>
    refine h.written ?_
    rw [← hview]
    exact h.receipt.view txn

@[simp] theorem lock_births (w : World) (txn : Nat) : (w.lock txn).births = w.births := by
  unfold World.lock
  split <;> rfl

section

variable (h : Kept w)

include h

theorem Kept.claim (txn : Nat) (event : InboxEvent) (receivedAt stampedAt : Nat) :
    Kept (w.claim txn event receivedAt stampedAt) := by
  unfold World.claim
  rw [databaseVersion_eq]
  have hview := h.receipt.view txn
  cases hexisting : w.receipt.view txn with
  | some existing => exact h.called trivial
  | none =>
    rw [hexisting] at hview
    refine ⟨?_, ?_, ?_, ?_⟩
    · exact (h.receipt.mono fun _ _ hgnu => hgnu.grown _).write
        (hview.inserted event receivedAt stampedAt)
    · refine forall_mem_append.mpr ⟨fun claim hclm => getElem?_grown (h.claims claim hclm),
        forall_mem_singleton.mpr ?_⟩
      simp [Founded]
    · intro call hcall
      have hfounded := h.calls call hcall
      obtain ⟨caller, call⟩ := call
      cases call with
      | claim => trivial
      | complete own processedAt | release own => exact getElem?_grown hfounded
    · exact forall_mem_cons.mpr ⟨⟨fun _ => .inl rfl, nofun⟩, h.answers⟩

theorem Kept.resume (txn : Nat) (event : InboxEvent) :
    Kept (w.resume txn event) := by
  have hview := h.receipt.view txn
  have hans := (h.lock txn).answered (lawful_resumeExisting (w.receipt.view txn) event)
  refine { hans with claims := ?_ }
  intro claim hclm
  change Founded (w.lock txn).births claim
  rw [lock_births]
  rcases mem_append.mp hclm with hold | hnew
  · exact h.claims claim hold
  cases hrsl : resumeExisting (w.receipt.view txn) event with
  | error error =>
    rw [hrsl] at hnew
    cases hnew
  | ok resumed =>
    rw [hrsl] at hnew
    rw [mem_singleton.mp hnew]
    exact founded_of_resumed hview hrsl

theorem Kept.complete (txn : Nat) (hown : Founded w.births own) (processedAt : Nat) :
    Kept (w.complete txn own processedAt) := by
  unfold World.complete
  rw [databaseVersion_eq]
  split
  · next hearly =>
    refine h.answered ?_
    intro hle
    omega
  · cases hfenced : (w.receipt.view txn).filter own.owns with
    | none => exact h.called hown
    | some row =>
      obtain ⟨hview, hrow⟩ := owned_of_filter hfenced
      have hgnu := h.receipt.view txn
      rw [hview] at hgnu
      refine (h.answered ?_).written (hgnu.completion hrow processedAt)
      intro _ _
      exact .inl ⟨rfl, row, rfl, hrow⟩

theorem Kept.release (txn : Nat) (hown : Founded w.births own) :
    Kept (w.release txn own) := by
  unfold World.release
  rw [databaseVersion_eq]
  cases hfenced : (w.receipt.view txn).filter own.owns with
  | none => exact h.called hown
  | some row =>
    obtain ⟨hview, hrow⟩ := owned_of_filter hfenced
    refine (h.answered ?_).written ((h.receipt.view txn).removal rfl nofun)
    intro _
    exact .inl ⟨rfl, row, rfl, hrow⟩

theorem Kept.classify (txn : Nat) {call : Call} (hcall : call.Founded w.births) :
    Kept (w.classify txn call) := by
  have hans := (h.lock txn).answered (lawful_classified (h.receipt.view txn) hcall)
  refine { hans with calls := ?_ }
  intro other hoth
  change other.2.Founded (w.lock txn).births
  rw [lock_births]
  exact h.calls other (mem_filter.mp hoth).1

theorem Kept.cleanup (txn now : Nat) : Kept (w.cleanup txn now) := by
  unfold World.cleanup
  cases hexp : (w.receipt.view txn).filter (·.expired now) with
  | none => exact { h with }
  | some row =>
    obtain ⟨-, hrow⟩ := filter_eq_some_iff.mp hexp
    have hproc : row.processedAt ≠ none := by
      have := (Bool.and_eq_true_iff.mp hrow).1
      exact isSome_iff_ne_none.mp this
    have hgnu : Genuine w.births none (.cleaned row :: w.receipt.viewLog txn) := by
      refine (h.receipt.view txn).removal rfl ?_
      rintro receipt ⟨⟩
      exact hproc
    exact { h with receipt := h.receipt.write hgnu }

theorem Kept.step {w' : World} {action : Action}
    (hstep : machine.step w action = some w') : Kept w' := by
  change w.next action = some w' at hstep
  cases action with
  | claim txn event receivedAt stampedAt =>
    obtain ⟨-, ⟨⟩⟩ := ite_none_right_eq_some.mp hstep
    exact h.claim txn event receivedAt stampedAt
  | resume txn event =>
    obtain ⟨-, ⟨⟩⟩ := ite_none_right_eq_some.mp hstep
    exact h.resume txn event
  | complete txn index processedAt =>
    obtain ⟨own, hown, hstep⟩ := bind_eq_some_iff.mp hstep
    obtain ⟨-, ⟨⟩⟩ := ite_none_right_eq_some.mp hstep
    exact h.complete txn (h.claims own (mem_of_getElem? hown)) processedAt
  | release txn index =>
    obtain ⟨own, hown, hstep⟩ := bind_eq_some_iff.mp hstep
    obtain ⟨-, ⟨⟩⟩ := ite_none_right_eq_some.mp hstep
    exact h.release txn (h.claims own (mem_of_getElem? hown))
  | classify txn =>
    obtain ⟨-, hstep⟩ := ite_none_right_eq_some.mp hstep
    obtain ⟨call, hcall, rfl⟩ := map_eq_some_iff.mp hstep
    exact h.classify txn (h.calls call (mem_of_find?_eq_some hcall))
  | cleanup txn now =>
    obtain ⟨-, ⟨⟩⟩ := ite_none_right_eq_some.mp hstep
    exact h.cleanup txn now
  | commit txn =>
    obtain ⟨-, ⟨⟩⟩ := ite_none_right_eq_some.mp hstep
    exact { h with receipt := h.receipt.commit txn }
  | rollback txn =>
    obtain ⟨-, ⟨⟩⟩ := ite_none_right_eq_some.mp hstep
    exact { h with receipt := h.receipt.rollback txn }

end

theorem Kept.of_reach (h : machine.Reach machine.start w) : Kept w :=
  Machine.ReachIf.invariant h .start fun _ _ _ hkept _ hstep => hkept.step hstep

end Kept

/-! ## 3. What every interleaving keeps -/

/-- Between two completions of a log in order the receipt was removed. -/
theorem Once.removed_between {newer middle older : List Effect} {first second : Effect}
    (h : Once (newer ++ second :: (middle ++ first :: older)))
    (hfst : first.isCompletion = true) (hsec : second.isCompletion = true) :
    ∃ effect ∈ middle, effect.isRemoval = true := by
  induction newer with
  | nil =>
    have hcl := h.1 hsec
    clear h
    induction middle with
    | nil => simp [openCompletion, hfst] at hcl
    | cons effect middle ih =>
      by_cases hrml : effect.isRemoval = true
      · exact ⟨effect, mem_cons_self, hrml⟩
      have hrest : openCompletion (middle ++ first :: older) = false := by
        simp only [cons_append, openCompletion, hrml] at hcl
        split at hcl
        · cases hcl
        · exact hcl
      obtain ⟨removal, hmem, hrml⟩ := ih hrest
      exact ⟨removal, mem_cons_of_mem _ hmem, hrml⟩
  | cons effect newer ih => exact ih h.2.2

theorem Once.cleaned {log : List Effect} (h : Once log) {receipt : Receipt}
    (hmem : .cleaned receipt ∈ log) : receipt.processedAt ≠ none := by
  induction log with
  | nil => cases hmem
  | cons effect past ih =>
    rcases mem_cons.mp hmem with heq | hpast
    · exact h.2.1 receipt heq.symm
    · exact ih h.2.2 hpast

/-- **Each event is applied once.**  On every interleaving of transactions: between two completions
that committed a removal committed, cleanup removed completed receipts only, and every call that
returned answered what the law asks of the receipt it saw. -/
theorem inbox_applies_once (w : World) (h : machine.Reach machine.start w) :
    (∀ newer second middle first older,
      w.receipt.log = newer ++ second :: (middle ++ first :: older) →
      first.isCompletion = true → second.isCompletion = true →
      ∃ effect ∈ middle, effect.isRemoval = true) ∧
    (∀ receipt, .cleaned receipt ∈ w.receipt.log → receipt.processedAt ≠ none) ∧
    (∀ answer ∈ w.answers, answer.Lawful) := by
  have hkept := Kept.of_reach h
  have honce : Once w.receipt.log := hkept.receipt.committed.once
  refine ⟨?_, fun receipt hmem => honce.cleaned hmem, hkept.answers⟩
  intro newer second middle first older hlog hfst hsec
  rw [hlog] at honce
  exact honce.removed_between hfst hsec

/-! ### Deliveries of one event, with two payloads -/

def order (payloadByte : UInt8) : InboxEvent where
  fields :=
    { eventType := "order.placed.v1".toList, eventVersion := 1, tenantId := none
      correlationId := 7 * 2 ^ 76, causationId := none
      payloadSha256 := List.replicate 32 payloadByte }
  retention := 1000
  wellFormed := by simp [Immutable.isWellFormed, Uuid.versionNum]
  versionFits := show 1 ≤ maxVersion by decide
  retained := by decide

/-- Claimed, completed, delivered again, and cleaned up after its retention. -/
def delivered : List Action :=
  [.claim 1 (order 1) 1 1, .commit 1, .resume 2 (order 1), .complete 2 1 5, .commit 2,
   .claim 3 (order 1) 6 6, .classify 3, .commit 3, .cleanup 4 2000000, .commit 4]

theorem inbox_applies_once_delivered :
    ∃ w, machine.Reach machine.start w ∧
      w.receipt.log.map Effect.isRemoval = [true, false, false] ∧
      w.receipt.log.map Effect.isCompletion = [false, true, false] ∧
      (∀ answer ∈ w.answers, answer.Lawful) := by
  have hre := Machine.reach_of_run (M := machine) (s := machine.start) delivered rfl
  exact ⟨_, hre, rfl, rfl, (inbox_applies_once _ hre).2.2⟩

def Answer.failure : Answer → Option InboxStoreError
  | .claim _ _ (.error error) => some error
  | .resume _ _ (.error error) => some error
  | .complete _ _ _ (.error error) => some error
  | .release _ _ (.error error) => some error
  | _ => none

/-- A second claim value for the receipt is made, the receipt is released and claimed again, and the
second value is used. -/
def staleCompletion : List Action :=
  [.claim 1 (order 1) 1 1, .commit 1, .resume 2 (order 1), .commit 2, .release 3 0, .commit 3,
   .claim 4 (order 1) 2 2, .commit 4, .complete 5 1 9, .classify 5]

/-- A delivery with another payload is resumed. -/
def differentResumption : List Action :=
  [.claim 1 (order 1) 1 1, .commit 1, .resume 2 (order 2)]

/-- **`CorruptData` without corrupt data**: for a stale claim whose receipt was replaced, and for a
resumption with another payload. -/
theorem stale_claim_called_corrupt :
    (∃ w, machine.run machine.start staleCompletion = some w ∧
      w.answers.head?.bind Answer.failure = some .corruptData) ∧
    (∃ w, machine.run machine.start differentResumption = some w ∧
      w.answers.head?.bind Answer.failure = some .corruptData) :=
  ⟨⟨_, rfl, rfl⟩, ⟨_, rfl, rfl⟩⟩

end Omnius.Inbox
