/-
# What one call does to the assembler

The assembler has fourteen fields and thirteen kinds of event, but to the accepted content a call
can do only four things: leave it alone, push one value, open a text item, or extend one.  This
file says so once (`ContentMove`), together with what no event touches (`Applied`), and every later
result is derived from that and never from the bodies.

The second half is the ALL-OR-NOTHING property: `emit` and `terminate` leave the assembler as it was
whenever they fail.  It needs no invariant.  Each body checks first and writes last, except that a
complete value is pushed BEFORE its part is marked and the sequence is advanced AFTER everything
else; those two late steps could fail in the source's types, and cannot here because an earlier
check has already seen the part, or the room below the event ceiling.
-/
import Omnius.Streaming.Assembler

namespace Omnius.Streaming

open Omnius.Lib

variable {data : LlmStreamEventData} {partId text : String} {c : AcceptedPublicContent}
  {kind : StreamPartKind}

/-- The public value an event carries, if it carries a complete one. -/
def LlmStreamEventData.value? : LlmStreamEventData → Option AcceptedPublicContent
  | .structuredComplete part => some (.structured part)
  | .toolCallComplete correlationId part => some (.toolCall correlationId part)
  | .toolResultComplete part => some (.toolResult part)
  | .safeReasoning part => some (.safeReasoning part)
  | .media value => some (.media value)
  | .citation part => some (.citation part)
  | _ => none

def LlmStreamEventData.delta? : LlmStreamEventData → Option (String × String)
  | .textDelta partId text => some (partId, text)
  | _ => none

def LlmStreamEventData.isStart : LlmStreamEventData → Bool
  | .responseStart _ => true
  | _ => false

theorem LlmStreamEventData.delta?_eq_some :
    data.delta? = some (partId, text) ↔ data = .textDelta partId text := by
  cases data <;> simp [delta?]

theorem LlmStreamEventData.delta?_of_value (h : data.value? = some c) : data.delta? = none := by
  cases data <;> simp_all [value?, delta?]

theorem LlmStreamEventData.value?_ne_text : data.value? ≠ some (.text partId text) := by
  cases data <;> simp [value?]

/-! ## 1. Moves of the content -/

/-- The four things an event can do to the accepted content. -/
inductive ContentMove (a : LlmStreamAssembler) (data : LlmStreamEventData)
    (a' : LlmStreamAssembler) : Prop
  | silent (hvalue : data.value? = none) (hdelta : data.delta? = none)
      (haccepted : a'.accepted = a.accepted) (hindices : a'.textIndices = a.textIndices)
  | pushed (c : AcceptedPublicContent) (hvalue : data.value? = some c)
      (haccepted : a'.accepted = a.accepted ++ [c]) (hindices : a'.textIndices = a.textIndices)
  | opened (partId text : String) (hdelta : data.delta? = some (partId, text))
      (hnew : a.textIndices.lookup partId = none)
      (haccepted : a'.accepted = a.accepted ++ [.text partId text])
      (hindices : a'.textIndices = a.textIndices.insert partId a.accepted.length)
  | extended (partId text : String) (index : Nat) (hdelta : data.delta? = some (partId, text))
      (hold : a.textIndices.lookup partId = some index)
      (htext : ∃ owner old, a.accepted[index]? = some (.text owner old))
      (haccepted : a'.accepted = a.accepted.modify index (·.pushStr text))
      (hindices : a'.textIndices = a.textIndices)

/-- What `apply` leaves alone. -/
structure Kept (a a' : LlmStreamAssembler) : Prop where
  requestId : a'.requestId = a.requestId
  limits : a'.limits = a.limits
  nextSequence : a'.nextSequence = a.nextSequence
  terminal : a'.terminal = a.terminal
  bytes : a'.acceptedSerializedBytes = a.acceptedSerializedBytes

/-- Everything later proofs need of an event that was applied. -/
structure Applied (a : LlmStreamAssembler) (data : LlmStreamEventData)
    (a' : LlmStreamAssembler) : Prop where
  kept : Kept a a'
  /-- The first event is the start of the response, and no other is. -/
  first : data.isStart = !a.responseStarted
  started : a'.responseStarted = true
  content : ContentMove a data a'

namespace LlmStreamAssembler

variable {a a' : LlmStreamAssembler} {u : Unit}

/-! ## 2. The writes one by one -/

theorem pushPublic_ok : pushPublic c a = .ok u a' ↔
      a.ensurePublicItemSlot = .ok () ∧ a' = { a with accepted := a.accepted ++ [c] } := by
  simp only [pushPublic, check_bind_eq_ok, update_eq_ok]
  constructor
  · rintro ⟨_, hslot, heq⟩
    exact ⟨hslot, heq⟩
  · rintro ⟨hslot, heq⟩
    exact ⟨(), hslot, heq⟩

theorem markValueEmitted_ok :
    markValueEmitted partId a = .ok u a' ↔ (a.parts.lookup partId).isSome = true ∧
      a' = { a with parts := a.parts.modify partId ({ · with valueEmitted := true }) } := by
  simp only [markValueEmitted, check_bind_eq_ok, update_eq_ok, deny_eq_ok]
  constructor
  · rintro ⟨_, hpart, heq⟩
    exact ⟨by simpa using hpart, heq⟩
  · rintro ⟨hpart, heq⟩
    exact ⟨(), by simpa using hpart, heq⟩

/-- A part that may still receive its value exists. -/
theorem part_of_requirePending (h : a.requirePendingValueKind partId kind = .ok u) :
    (a.parts.lookup partId).isSome = true := by
  cases hpart : a.parts.lookup partId with
  | none => simp [requirePendingValueKind, requireOpenKind, hpart] at h
  | some part => rfl

theorem text_of_requireTextAt {index : Nat} (h : a.requireTextAt index = .ok u) :
    ∃ owner old, a.accepted[index]? = some (.text owner old) := by
  unfold requireTextAt at h
  split at h
  · next owner old hitem => exact ⟨owner, old, hitem⟩
  · cases h

theorem advanceSequence_ok : advanceSequence a = .ok u a' ↔
    a.nextSequence + 1 < 2 ^ 64 ∧ a' = { a with nextSequence := a.nextSequence + 1 } := by
  simp only [advanceSequence, checkedAdd, check_bind_eq_ok, update_eq_ok]
  constructor
  · rintro ⟨next, hnext, heq⟩
    split at hnext <;> simp_all
  · rintro ⟨hlt, heq⟩
    exact ⟨a.nextSequence + 1, by rw [if_pos hlt], heq⟩

theorem pushed_of (hvl : data.value? = some c) (hstd : a.responseStarted = true)
    (hkept : Kept a a') (hrest : a'.responseStarted = a.responseStarted)
    (hacc : a'.accepted = a.accepted ++ [c]) (hidx : a'.textIndices = a.textIndices) :
    Applied a data a' where
  kept := hkept
  first := by cases data <;> simp_all [LlmStreamEventData.value?, LlmStreamEventData.isStart]
  started := hrest.trans hstd
  content := .pushed c hvl hacc hidx

theorem silent_of (hvl : data.value? = none) (hdt : data.delta? = none)
    (hnot : data.isStart = false) (hstd : a.responseStarted = true) (hkept : Kept a a')
    (hrest : a'.responseStarted = a.responseStarted) (hacc : a'.accepted = a.accepted)
    (hidx : a'.textIndices = a.textIndices) : Applied a data a' where
  kept := hkept
  first := by rw [hnot, hstd]; rfl
  started := hrest.trans hstd
  content := .silent hvl hdt hacc hidx

theorem applied_completePublicPart (hvl : data.value? = some c)
    (hstd : a.responseStarted = true) (h : completePublicPart partId kind c a = .ok u a') :
    Applied a data a' := by
  rw [completePublicPart, check_bind_eq_ok] at h
  simp only [state_bind_eq_ok, pushPublic_ok, markValueEmitted_ok] at h
  obtain ⟨_, -, _, _, ⟨-, rfl⟩, -, rfl⟩ := h
  exact pushed_of hvl hstd ⟨rfl, rfl, rfl, rfl, rfl⟩ rfl rfl rfl

variable {correlationId : String} {part : ToolCallOutputPart}

section

variable (hstd : a.responseStarted = true)

include hstd

theorem applied_toolCallComplete (h : applyToolCallComplete correlationId part a = .ok u a') :
    Applied a (.toolCallComplete correlationId part) a' := by
  simp only [applyToolCallComplete, check_bind_eq_ok] at h
  simp only [state_bind_eq_ok, update_eq_ok, markValueEmitted_ok] at h
  obtain ⟨_, -, _, -, _, -, _, -, _, -, _, _, rfl, -, rfl⟩ := h
  exact pushed_of rfl hstd ⟨rfl, rfl, rfl, rfl, rfl⟩ rfl rfl rfl

theorem applied_toolResultComplete {part : ToolResultOutputPart}
    (h : applyToolResultComplete part a = .ok u a') :
    Applied a (.toolResultComplete part) a' := by
  simp only [applyToolResultComplete, check_bind_eq_ok] at h
  simp only [state_bind_eq_ok, pushPublic_ok, markValueEmitted_ok] at h
  obtain ⟨_, -, _, -, _, _, ⟨-, rfl⟩, -, rfl⟩ := h
  exact pushed_of rfl hstd ⟨rfl, rfl, rfl, rfl, rfl⟩ rfl rfl rfl

theorem applied_textDelta
    (h : applyTextDelta partId text a = .ok u a') : Applied a (.textDelta partId text) a' := by
  simp only [applyTextDelta, check_bind_eq_ok, Except.ok.injEq, exists_eq_left'] at h
  obtain ⟨_, -, _, -, next, -, h⟩ := h
  have hfst : (LlmStreamEventData.textDelta partId text).isStart = !a.responseStarted := by
    rw [hstd]
    rfl
  cases hindex : a.textIndices.lookup partId with
  | some index =>
    simp only [hindex, extendText, check_bind_eq_ok, update_eq_ok] at h
    obtain ⟨_, htext, rfl⟩ := h
    exact ⟨⟨rfl, rfl, rfl, rfl, rfl⟩, hfst, hstd,
      .extended partId text index rfl hindex (text_of_requireTextAt htext) rfl rfl⟩
  | none =>
    simp only [hindex, openText, check_bind_eq_ok, update_eq_ok] at h
    obtain ⟨_, -, rfl⟩ := h
    exact ⟨⟨rfl, rfl, rfl, rfl, rfl⟩, hfst, hstd, .opened partId text rfl hindex rfl rfl⟩

end

theorem applied_responseStart {responseId : String}
    (h : applyResponseStart responseId a = .ok u a') :
    Applied a (.responseStart responseId) a' := by
  simp only [applyResponseStart, check_bind_eq_ok, update_eq_ok, deny_eq_ok] at h
  obtain ⟨_, hfr, _, -, rfl⟩ := h
  refine ⟨⟨rfl, rfl, rfl, rfl, rfl⟩, ?_, rfl, .silent rfl rfl rfl rfl⟩
  have hnot : a.responseStarted = false := (Bool.or_eq_false_iff.mp hfr).1
  rw [hnot]
  rfl

/-! ## 3. Every event -/

theorem applied_started (hstd : a.responseStarted = true) (h : applyStarted data a = .ok u a') :
    Applied a data a' := by
  cases data with
  | responseStart responseId =>
    rw [applyStarted, state_check_eq_ok] at h
    cases h.1
  | partStart partId kind =>
    simp only [applyStarted, applyPartStart, check_bind_eq_ok, update_eq_ok] at h
    obtain ⟨_, -, _, -, _, -, rfl⟩ := h
    exact silent_of rfl rfl rfl hstd ⟨rfl, rfl, rfl, rfl, rfl⟩ rfl rfl rfl
  | textDelta partId text => exact applied_textDelta hstd h
  | structuredComplete part | safeReasoning part | media value | citation part =>
      exact applied_completePublicPart rfl hstd h
  | toolCallDelta partId correlationId delta =>
    simp only [applyStarted, applyToolCallDelta, check_bind_eq_ok, update_eq_ok] at h
    obtain ⟨_, -, _, -, _, -, _, -, _, -, rfl⟩ := h
    exact silent_of rfl rfl rfl hstd ⟨rfl, rfl, rfl, rfl, rfl⟩ rfl rfl rfl
  | toolCallComplete correlationId part => exact applied_toolCallComplete hstd h
  | toolResultComplete part => exact applied_toolResultComplete hstd h
  | usage wire | warning code =>
    obtain ⟨-, rfl⟩ := pure_eq_ok.mp h
    exact silent_of rfl rfl rfl hstd ⟨rfl, rfl, rfl, rfl, rfl⟩ rfl rfl rfl
  | partComplete partId =>
    simp only [applyStarted, applyPartComplete, check_bind_eq_ok, update_eq_ok] at h
    obtain ⟨_, -, rfl⟩ := h
    exact silent_of rfl rfl rfl hstd ⟨rfl, rfl, rfl, rfl, rfl⟩ rfl rfl rfl

theorem apply_eq_ok (h : apply data a = .ok u a') : Applied a data a' := by
  unfold apply at h
  split at h
  · exact applied_responseStart h
  · rw [check_bind_eq_ok] at h
    obtain ⟨_, hstd, h⟩ := h
    exact applied_started (by simpa using hstd) h

/-- What a successful `emit` did. -/
structure Emitted (a : LlmStreamAssembler) (data : LlmStreamEventData) (event : LlmStreamEvent)
    (a' : LlmStreamAssembler) : Prop where
  event_eq : event = ⟨a.requestId, a.nextSequence, .event data⟩
  open_ : a.terminal = false
  slot : a.ensureNonterminalSlot = .ok ()
  bytes : a.prospectiveAcceptedBytes data = .ok a'.acceptedSerializedBytes
  reserved : a.ensureTerminalSnapshotFits a'.acceptedSerializedBytes = .ok ()
  requestId : a'.requestId = a.requestId
  limits : a'.limits = a.limits
  nextSequence : a'.nextSequence = a.nextSequence + 1
  terminal : a'.terminal = false
  first : data.isStart = !a.responseStarted
  started : a'.responseStarted = true
  content : ContentMove a data a'

theorem ContentMove.congr {b : LlmStreamAssembler} (h : ContentMove a data a')
    (hacc : b.accepted = a'.accepted) (hidx : b.textIndices = a'.textIndices) :
    ContentMove a data b := by
  cases h with
  | silent hv hd ha hi => exact .silent hv hd (hacc.trans ha) (hidx.trans hi)
  | pushed c hv ha hi => exact .pushed c hv (hacc.trans ha) (hidx.trans hi)
  | opened p t hd hn ha hi => exact .opened p t hd hn (hacc.trans ha) (hidx.trans hi)
  | extended p t i hd ho ht ha hi =>
    exact .extended p t i hd ho ht (hacc.trans ha) (hidx.trans hi)

variable {event : LlmStreamEvent} {state : StreamTerminalState}

theorem emit_eq_ok (h : emit data a = .ok event a') : Emitted a data event a' := by
  simp only [emit, check_bind_eq_ok, deny_eq_ok] at h
  obtain ⟨_, hopen, _, hslot, _, -, bytes, hby, _, hres, h⟩ := h
  simp only [state_bind_eq_ok, update_eq_ok, state_check_eq_ok, advanceSequence_ok, pure_eq_ok,
    Except.ok.injEq] at h
  obtain ⟨_, b, happly, _, _, rfl, _, _, ⟨rfl, rfl⟩, _, _, ⟨-, rfl⟩, rfl, rfl⟩ := h
  have hapd := apply_eq_ok happly
  have hkept := hapd.kept
  exact {
    event_eq := by simp [LlmStreamAssembler.event, hkept.requestId, hkept.nextSequence]
    open_ := hopen
    slot := hslot
    bytes := hby
    reserved := hres
    requestId := hkept.requestId
    limits := hkept.limits
    nextSequence := congrArg (· + 1) hkept.nextSequence
    terminal := hkept.terminal.trans hopen
    first := hapd.first
    started := hapd.started
    content := ContentMove.congr hapd.content rfl rfl }

theorem terminate_eq_ok :
    terminate state a = .ok event a' ↔
      a.terminal = false ∧ a.ensureEventSlot = .ok () ∧ a.responseStarted = true ∧
      a.lifecycle state = .ok () ∧
      event = ⟨a.requestId, a.nextSequence, .terminal ⟨state, a.accepted⟩⟩ ∧
      event.toJson.size ≤ a.limits.maxEventBytes.get ∧ a.nextSequence + 1 < 2 ^ 64 ∧
      a' = { a with terminal := true, nextSequence := a.nextSequence + 1 } := by
  simp only [terminate, check_bind_eq_ok, deny_eq_ok, Except.ok.injEq, serializedFits,
    LlmStreamAssembler.event]
  simp only [state_bind_eq_ok, update_eq_ok, advanceSequence_ok, pure_eq_ok]
  constructor
  · rintro ⟨_, hopen, _, hslot, _, hstd, _, hlife, _, rfl, _, hfits, _, _, rfl, _, _,
      ⟨hlt, rfl⟩, rfl, rfl⟩
    exact ⟨hopen, hslot, by simpa using hstd, hlife, rfl, by simpa using hfits, hlt, rfl⟩
  · rintro ⟨hopen, hslot, hstd, hlife, rfl, hfits, hlt, rfl⟩
    exact ⟨(), hopen, (), hslot, (), by simpa using hstd, (), hlife, _, rfl, (),
      by simpa using hfits, (), _, rfl, (), _, ⟨hlt, rfl⟩, rfl, rfl⟩

/-! ## 4. All or nothing -/

/-- Values are pushed before their part is marked, and the part is there. -/
theorem atomic_pushPublic_mark (h : a.requirePendingValueKind partId kind = .ok u) :
    Atomic (pushPublic c >>= fun _ => markValueEmitted partId) a := by
  refine .bind_succeeds ?_ fun _ b hb => ?_
  · exact .check_bind fun _ _ => .of_succeeds rfl
  · obtain ⟨-, rfl⟩ := pushPublic_ok.mp hb
    exact ⟨(), _, markValueEmitted_ok.mpr ⟨part_of_requirePending h, rfl⟩⟩

theorem atomic_completePublicPart : Atomic (completePublicPart partId kind c) a :=
  .check_bind fun _ h => atomic_pushPublic_mark h

theorem atomic_toolCallComplete : Atomic (applyToolCallComplete correlationId part) a := by
  refine .check_bind fun _ hpen => .check_bind fun _ _ => .check_bind fun _ _ =>
    .check_bind fun _ _ => .check_bind fun _ _ => ?_
  refine .bind_succeeds (.of_succeeds rfl) fun _ b hb => ?_
  rw [update_eq_ok] at hb
  subst hb
  exact ⟨(), _, markValueEmitted_ok.mpr ⟨part_of_requirePending hpen, rfl⟩⟩

theorem atomic_textDelta : Atomic (applyTextDelta partId text) a := by
  refine .check_bind fun _ _ => .check_bind fun _ _ => .check_bind fun next _ =>
    .check_bind fun index _ => ?_
  cases index with
  | some index | none => exact .check_bind fun _ _ => .of_succeeds rfl

theorem atomic_applyStarted : Atomic (applyStarted data) a := by
  cases data with
  | responseStart responseId =>
    rw [applyStarted]
    exact .check
  | partStart partId kind =>
    exact .check_bind fun _ _ => .check_bind fun _ _ => .check_bind fun _ _ => .of_succeeds rfl
  | textDelta partId text => exact atomic_textDelta
  | toolCallDelta partId correlationId delta =>
    exact .check_bind fun _ _ => .check_bind fun _ _ => .check_bind fun _ _ =>
      .check_bind fun _ _ => .check_bind fun _ _ => .of_succeeds rfl
  | toolCallComplete correlationId part => exact atomic_toolCallComplete
  | toolResultComplete part =>
    exact .check_bind fun _ hpen => .check_bind fun _ _ => atomic_pushPublic_mark hpen
  | usage wire | warning code => exact .of_succeeds rfl
  | partComplete partId => exact .check_bind fun _ _ => .of_succeeds rfl
  | structuredComplete part | safeReasoning part | media value | citation part =>
      exact atomic_completePublicPart

theorem atomic_apply : Atomic (apply data) a := by
  unfold apply
  split
  · exact .check_bind fun _ _ => .check_bind fun _ _ => .of_succeeds rfl
  · exact .check_bind fun _ _ => atomic_applyStarted

theorem next_lt_of_slot (h : a.ensureNonterminalSlot = .ok u) :
    a.nextSequence + 1 < a.limits.maxEvents.get := by
  unfold ensureNonterminalSlot checkedAdd at h
  split at h
  · cases h
  rename_i next hnext
  split at hnext
  · cases hnext
    simpa using h
  · cases hnext

theorem atomic_emit : Atomic (emit data) a := by
  refine .check_bind fun _ _ => .check_bind fun _ hslot => .check_bind fun _ _ =>
    .check_bind fun bytes _ => .check_bind fun _ _ => .bind_succeeds atomic_apply fun _ b hb => ?_
  have hkept := (apply_eq_ok hb).kept
  have hlt : b.nextSequence + 1 < 2 ^ 64 := by
    rw [hkept.nextSequence]
    exact (next_lt_of_slot hslot).trans a.limits.maxEvents.lt
  refine ⟨b.event (.event data), { b with
    acceptedSerializedBytes := bytes, nextSequence := b.nextSequence + 1 }, ?_⟩
  simp only [state_bind_eq_ok, update_eq_ok, state_check_eq_ok, advanceSequence_ok, pure_eq_ok]
  exact ⟨(), _, rfl, _, _, ⟨rfl, rfl⟩, (), _, ⟨hlt, rfl⟩, rfl, rfl⟩

theorem atomic_terminate : Atomic (terminate state) a := by
  refine .check_bind fun _ _ => .check_bind fun _ hslot => .check_bind fun _ _ =>
    .check_bind fun _ _ => .check_bind fun event _ => .check_bind fun _ _ => ?_
  have hlt : a.nextSequence + 1 < 2 ^ 64 := by
    have hslot : a.nextSequence < a.limits.maxEvents.get := by
      simpa [ensureEventSlot] using hslot
    exact Nat.lt_of_le_of_lt hslot a.limits.maxEvents.lt
  refine Atomic.of_succeeds (a := event) (t := { a with
    terminal := true, nextSequence := a.nextSequence + 1 }) ?_
  simp only [state_bind_eq_ok, update_eq_ok, advanceSequence_ok, pure_eq_ok]
  exact ⟨(), _, rfl, (), _, ⟨hlt, rfl⟩, trivial, rfl⟩

end LlmStreamAssembler

/-- **A call that fails changes nothing.** -/
theorem Call.atomic (c : Call) (a : LlmStreamAssembler) : Atomic c.perform a := by
  cases c with
  | emit data => exact LlmStreamAssembler.atomic_emit
  | terminate state => exact LlmStreamAssembler.atomic_terminate

end Omnius.Streaming
