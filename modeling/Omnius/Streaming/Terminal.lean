/-
# Room for the terminal event

A stream that has started must be able to say how it ended.  Two things can stand in the way.

**Bounds.**  The terminal event repeats all accepted content, so it can be larger than every event
before it, and it needs one more sequence number.  `emit` reserves for it: it refuses an event after
which the longest terminal would not fit.  The reservation is made from a running byte count and not
from the content, so it is worth something only because the count IS the size of the serialised
content (`Roomy.bytes`); then no terminal fails for lack of room (`terminate_of_roomy`).

**Lifecycle.**  A partial interruption needs some content, every other state needs all parts
complete.  A stream with an open part and no content meets neither.  Such a stream can be left
without any legal call (`open_part_without_content_wedges`).
-/
import Omnius.Streaming.Snapshot

namespace Omnius.Streaming

open Omnius.Lib List LlmStreamAssembler

namespace LlmStreamAssembler

def acceptedSize (a : LlmStreamAssembler) : Nat :=
  (Json.array (a.accepted.map (·.toJson))).size

/-- The bytes are counted right, and there is room for every terminal. -/
structure Roomy (a : LlmStreamAssembler) : Prop where
  bytes : a.acceptedSerializedBytes = a.acceptedSize
  slot : a.responseStarted = true → a.terminal = false →
    a.nextSequence < a.limits.maxEvents.get
  fits : a.responseStarted = true → a.terminal = false → ∀ state,
    (a.event (.terminal ⟨state, a.accepted⟩)).toJson.size ≤ a.limits.maxEventBytes.get

/-! ## 1. What is added to the count -/

section Count

variable {a a' : LlmStreamAssembler} {data : LlmStreamEventData} {n : Nat}

variable {c : AcceptedPublicContent}

theorem addedBytes_of_value (h : data.value? = some c) :
    a.addedBytes data = a.newPublicItemBytes c := by
  cases data <;> simp_all [LlmStreamEventData.value?, addedBytes]

theorem addedBytes_of_silent (hvl : data.value? = none) (hdt : data.delta? = none) :
    a.addedBytes data = .ok 0 := by
  cases data <;> simp_all [LlmStreamEventData.value?, LlmStreamEventData.delta?, addedBytes]

theorem newPublicItemBytes_ok (h : a.newPublicItemBytes c = .ok n) :
    n = c.toJson.size + if a.accepted.isEmpty then 0 else 1 := by
  simp only [newPublicItemBytes, serializedSize, checkedAdd] at h
  split at h
  · cases h
  rename_i size hsize
  cases h
  split at hsize
  · split at hsize <;> simp_all
  · cases hsize

theorem addedBytes_of_known {partId text : String}
    (hold : (a.textIndices.lookup partId).isSome = true)
    (h : a.addedBytes (.textDelta partId text) = .ok n) : n + 2 = (Json.string text).size := by
  have htwo := Json.two_le_size_string text
  simp only [addedBytes, hold, if_true, serializedSize] at h
  split at h
  · cases h
  rename_i added hadd
  cases h
  split at hadd
  · simp only [Option.bind_some, if_pos htwo, Option.some.injEq] at hadd
    omega
  · cases hadd

theorem prospectiveAcceptedBytes_ok (h : a.prospectiveAcceptedBytes data = .ok n) :
    ∃ added, a.addedBytes data = .ok added ∧ n = a.acceptedSerializedBytes + added := by
  unfold prospectiveAcceptedBytes checkedAdd at h
  cases hadd : a.addedBytes data with
  | error e =>
    rw [hadd] at h
    cases h
  | ok added =>
    refine ⟨added, rfl, ?_⟩
    simp only [hadd] at h
    split at h <;> simp_all

end Count

/-! ## 2. What is added to the content -/

section Size

variable {a a' : LlmStreamAssembler}

theorem acceptedSize_pushed {c : AcceptedPublicContent}
    (h : a'.accepted = a.accepted ++ [c]) : a'.acceptedSize =
      a.acceptedSize + (c.toJson.size + if a.accepted.isEmpty then 0 else 1) := by
  simp only [acceptedSize, h, Json.size_array]
  cases a.accepted with
  | nil => simp
  | cons first rest =>
    simp
    omega

theorem size_pushStr (owner old text : String) :
    ((AcceptedPublicContent.text owner old).pushStr text).toJson.size + 2 =
      (AcceptedPublicContent.text owner old).toJson.size + (Json.string text).size := by
  have happend := Json.size_string_append old text
  simp only [AcceptedPublicContent.pushStr, AcceptedPublicContent.toJson, tagged,
    Json.size_object, Json.fieldSize, map_cons, map_nil, sum_cons, sum_nil,
    length_cons, length_nil]
  omega

theorem acceptedSize_extended {index : Nat} {text owner old : String}
    (hitem : a.accepted[index]? = some (.text owner old))
    (h : a'.accepted = a.accepted.modify index (·.pushStr text)) :
    a'.acceptedSize + 2 = a.acceptedSize + (Json.string text).size := by
  have hsize := size_pushStr owner old text
  obtain ⟨hlt, hget⟩ := List.getElem?_eq_some_iff.mp hitem
  -- The content before the item, the item, and the content after it.
  have hspl : a.accepted = a.accepted.take index ++
      .text owner old :: a.accepted.drop (index + 1) := by
    rw [← hget, getElem_cons_drop, take_append_drop]
  have hmodified : a'.accepted = a.accepted.take index ++
      (AcceptedPublicContent.text owner old).pushStr text :: a.accepted.drop (index + 1) := by
    rw [h, modify_eq_take_cons_drop hlt, hget]
  have hbef : a.acceptedSize = (Json.array ((a.accepted.take index ++
      .text owner old :: a.accepted.drop (index + 1)).map (·.toJson))).size := by
    rw [← hspl]
    rfl
  rw [hbef, acceptedSize, hmodified]
  simp only [Json.size_array, map_append, map_cons, sum_append, sum_cons,
    length_append, length_cons]
  omega

/-- **The byte count follows the content**, whatever the event. -/
theorem ContentMove.bytes {data : LlmStreamEventData} {n : Nat} (h : ContentMove a data a')
    (hby : a.acceptedSerializedBytes = a.acceptedSize)
    (hn : a.prospectiveAcceptedBytes data = .ok n) : n = a'.acceptedSize := by
  obtain ⟨added, hadd, rfl⟩ := prospectiveAcceptedBytes_ok hn
  rw [hby]
  cases h with
  | silent hvl hdt hacc _ =>
    rw [addedBytes_of_silent hvl hdt] at hadd
    cases hadd
    rw [acceptedSize, acceptedSize, hacc, Nat.add_zero]
  | pushed c hvl hacc _ =>
    rw [addedBytes_of_value hvl] at hadd
    rw [newPublicItemBytes_ok hadd, acceptedSize_pushed hacc]
  | opened partId text hdt hnew hacc _ =>
    obtain rfl := LlmStreamEventData.delta?_eq_some.mp hdt
    simp only [addedBytes, hnew, Option.isSome_none, Bool.false_eq_true, if_false] at hadd
    rw [newPublicItemBytes_ok hadd, acceptedSize_pushed hacc]
  | extended partId text index hdt hold htext hacc _ =>
    obtain rfl := LlmStreamEventData.delta?_eq_some.mp hdt
    obtain ⟨owner, old, hitem⟩ := htext
    have hcost := addedBytes_of_known (by rw [hold]; rfl) hadd
    have hgrown := acceptedSize_extended hitem hacc
    omega

end Size

/-! ## 3. Every call keeps the room -/

section Step

variable {a a' : LlmStreamAssembler}

theorem roomy_new (requestId : String) (limits : StreamLimits) : Roomy (.new requestId limits) where
  bytes := by
    have hemp : (Json.array []).size = 2 := by decide
    exact hemp.symm
  slot := nofun
  fits := nofun

variable {bytes : Nat} {event : LlmStreamEvent} {state : StreamTerminalState}

/-- What the reservation of `emit` is worth: the longest terminal is at least as long as any. -/
theorem fits_of_reserved {requestId : String} {sequence limit : Nat}
    {accepted : List AcceptedPublicContent}
    (hby : bytes = (Json.array (accepted.map (·.toJson))).size)
    (h : (LlmStreamEvent.mk requestId sequence
      (.terminal ⟨.partialInterrupted .consumerDisconnected, []⟩)).toJson.size + (bytes - 2) ≤
        limit) (state : StreamTerminalState) :
    (LlmStreamEvent.mk requestId sequence (.terminal ⟨state, accepted⟩)).toJson.size ≤ limit := by
  have hsize := size_terminal_event requestId sequence state
    (.partialInterrupted .consumerDisconnected) accepted
  have hst := state.size_le
  omega

theorem reserved_of_fits {u : Unit} (h : a.ensureTerminalSnapshotFits bytes = .ok u) :
    (a.reservedTerminal (a.nextSequence + 1)).toJson.size + (bytes - 2) ≤
      a.limits.maxEventBytes.get := by
  unfold ensureTerminalSnapshotFits checkedAdd serializedSize at h
  split at h
  · cases h
  rename_i sequence hseq
  split at hseq
  · cases hseq
    split at h
    · cases h
    rename_i total htot
    split at htot
    · simp only [Option.bind_some] at htot
      split at htot
      · cases htot
        simpa using h
      · cases htot
    · cases htot
  · cases hseq

theorem Roomy.emit (h : Roomy a) {data : LlmStreamEventData} (he : Emitted a data event a') :
    Roomy a' := by
  have hby : a'.acceptedSerializedBytes = a'.acceptedSize :=
    ContentMove.bytes he.content h.bytes he.bytes
  refine ⟨hby, fun _ _ => ?_, fun _ _ state => ?_⟩
  · rw [he.nextSequence, he.limits]
    exact next_lt_of_slot he.slot
  · rw [LlmStreamAssembler.event, he.requestId, he.nextSequence, he.limits]
    exact fits_of_reserved hby (reserved_of_fits he.reserved) state

/-- After the terminal event there is nothing to make room for. -/
theorem Roomy.terminate (h : Roomy a) (ht : terminate state a = .ok event a') : Roomy a' := by
  obtain ⟨-, -, -, -, -, -, -, rfl⟩ := terminate_eq_ok.mp ht
  exact ⟨h.bytes, nofun, nofun⟩

theorem roomy_after (requestId : String) (limits : StreamLimits) (calls : List Call) :
    Roomy (Stream.after requestId limits calls).assembler := by
  induction calls using List.reverseRecOn with
  | nil => exact roomy_new requestId limits
  | append_singleton calls c ih =>
    rw [Stream.after, foldl_append, ← Stream.after, foldl_cons, Stream.call]
    cases hc : c.perform (Stream.after requestId limits calls).assembler with
    | error e a =>
      obtain rfl := c.atomic _ e a hc
      exact ih
    | ok event a =>
      cases c with
      | emit data => exact ih.emit (emit_eq_ok hc)
      | terminate state => exact ih.terminate hc

/-! ## 4. Terminals -/

/-- With room, only the lifecycle decides, and it decides the error too. -/
theorem terminate_of_roomy (h : Roomy a) (hstd : a.responseStarted = true)
    (hopen : a.terminal = false) (state : StreamTerminalState) :
    (a.lifecycle state = .ok () ∧ ∃ event a', terminate state a = .ok event a') ∨
    (∃ e, a.lifecycle state = .error e ∧ terminate state a = .error e a) := by
  have hslot := h.slot hstd hopen
  have hensure : a.ensureEventSlot = .ok () := by simpa [ensureEventSlot] using hslot
  cases hlife : a.lifecycle state with
  | ok u =>
    refine .inl ⟨rfl, _, _, terminate_eq_ok.mpr ⟨hopen, hensure, hstd, hlife, rfl,
      h.fits hstd hopen state, ?_, rfl⟩⟩
    exact Nat.lt_of_le_of_lt hslot a.limits.maxEvents.lt
  | error e =>
    refine .inr ⟨e, rfl, ?_⟩
    rw [terminate, check_bind_of_ok (by rw [hopen]; rfl),
      check_bind_of_ok hensure, check_bind_of_ok (by rw [hstd]; rfl)]
    exact check_bind_of_error (c := fun a : LlmStreamAssembler => a.lifecycle state) hlife

theorem lifecycle_error {e : StreamInvariantError} (h : a.lifecycle state = .error e) :
    e = .partialWithoutPublicContent ∨ e = .openPartAtTerminal := by
  unfold lifecycle deny at h
  split at h <;> split at h <;> simp_all

theorem exists_lifecycle_iff :
    (∃ state, a.lifecycle state = .ok ()) ↔ a.accepted ≠ [] ∨ a.hasOpenPart = false := by
  constructor
  · rintro ⟨state, h⟩
    cases state with
    | partialInterrupted interruption =>
      left
      simpa [lifecycle] using h
    | _ =>
      right
      simpa [lifecycle] using h
  · rintro (h | h)
    · exact ⟨.partialInterrupted .transport, by simpa [lifecycle] using h⟩
    · exact ⟨.completed, by simpa [lifecycle] using h⟩

/-- With a part open, no content and no event slot but the terminal's, every call fails. -/
theorem wedged (h : Roomy a) (hstd : a.responseStarted = true) (hopen : a.terminal = false)
    (hemp : a.accepted = []) (hpart : a.hasOpenPart = true)
    (hslot : a.ensureNonterminalSlot = .error .eventLimitExceeded) (c : Call) :
    ∃ e, c.perform a = .error e a := by
  cases c with
  | emit data =>
    refine ⟨.eventLimitExceeded, ?_⟩
    rw [Call.perform, emit, check_bind_of_ok (by rw [hopen]; rfl)]
    exact check_bind_of_error hslot
  | terminate state =>
    rcases terminate_of_roomy h hstd hopen state with ⟨hlife, -⟩ | ⟨e, -, herror⟩
    · rcases exists_lifecycle_iff.mp ⟨state, hlife⟩ with hcnt | hcom
      · exact absurd hemp hcnt
      · rw [hpart] at hcom
        cases hcom
    · exact ⟨e, herror⟩

end Step

end LlmStreamAssembler

/-! ## 5. Streams that have started -/

/-- **A started stream is never refused a terminal for its bounds.**  The byte count is the size of
the accepted content; a terminal is accepted exactly when its lifecycle precondition holds, and is
refused with a lifecycle error only; and some terminal is accepted exactly when there is content or
no part is open. -/
theorem started_stream_can_terminate (requestId : String) (limits : StreamLimits)
    (calls : List Call)
    (hstarted : (Stream.after requestId limits calls).assembler.responseStarted = true)
    (hopen : (Stream.after requestId limits calls).assembler.terminal = false) :
    let a := (Stream.after requestId limits calls).assembler
    a.acceptedSerializedBytes = (Json.array (a.accepted.map (·.toJson))).size ∧
    (∀ state, a.lifecycle state = .ok () ↔
      ∃ event a', terminate state a = .ok event a') ∧
    (∀ state e a', terminate state a = .error e a' →
      e = .partialWithoutPublicContent ∨ e = .openPartAtTerminal) ∧
    ((∃ state event a', terminate state a = .ok event a') ↔
      a.accepted ≠ [] ∨ a.hasOpenPart = false) := by
  intro a
  have hroom : a.Roomy := roomy_after requestId limits calls
  have hterm := terminate_of_roomy hroom hstarted hopen
  have hiff : ∀ state, a.lifecycle state = .ok () ↔
      ∃ event a', terminate state a = .ok event a' := by
    intro state
    rcases hterm state with ⟨hlife, hok⟩ | ⟨e, hlife, herror⟩
    · exact ⟨fun _ => hok, fun _ => hlife⟩
    constructor
    · intro h
      rw [hlife] at h
      cases h
    · rintro ⟨event, a', hok⟩
      rw [herror] at hok
      cases hok
  refine ⟨hroom.bytes, hiff, fun state e a' h => ?_, ?_⟩
  · rcases hterm state with ⟨-, event, b, hok⟩ | ⟨e', hlife, herror⟩
    · rw [hok] at h
      cases h
    · rw [herror] at h
      cases h
      exact lifecycle_error hlife
  · rw [← exists_lifecycle_iff]
    exact exists_congr fun state => (hiff state).symm

/-- A text part open, with content: the partial interruption is legal. -/
def interruptedCalls : List Call :=
  [.emit (.responseStart "response"), .emit (.partStart "part" .text),
    .emit (.textDelta "part" "x")]

theorem started_stream_can_terminate_interrupted :
    ∃ state event a', terminate state
      (Stream.after "request" .default interruptedCalls).assembler = .ok event a' := by
  obtain ⟨hstd, hopen, hcnt⟩ :
      (Stream.after "request" .default interruptedCalls).assembler.responseStarted = true ∧
      (Stream.after "request" .default interruptedCalls).assembler.terminal = false ∧
      (Stream.after "request" .default interruptedCalls).assembler.accepted ≠ [] := by
    decide +kernel
  have h := started_stream_can_terminate "request" .default interruptedCalls hstd hopen
  exact h.2.2.2.mpr (.inl hcnt)

/-- Three events in all: a start, one more, and a terminal. -/
def threeEvents : StreamLimits :=
  { StreamLimits.default with maxEvents := ⟨3, by decide, by decide⟩ }

def openedCalls : List Call := [.emit (.responseStart "response"), .emit (.partStart "part" .text)]

/-- **A stream can be left without any legal call.**  A part is open, so no full terminal is legal;
there is no content, so no partial one is; and the last event slot is the terminal's, so the part
can neither receive content nor be completed. -/
theorem open_part_without_content_wedges :
    let w := Stream.after "request" threeEvents openedCalls
    w.events.length = 2 ∧ w.assembler.responseStarted = true ∧ w.assembler.terminal = false ∧
    (∀ state, w.assembler.lifecycle state ≠ .ok ()) ∧
    ∀ c : Call, ∃ e, c.perform w.assembler = .error e w.assembler := by
  have hroom := roomy_after "request" threeEvents openedCalls
  obtain ⟨w, hw, hlen, hstd, hopen, hemp, hpart, hslot⟩ : ∃ w : Stream,
      Stream.after "request" threeEvents openedCalls = w ∧ w.events.length = 2 ∧
      w.assembler.responseStarted = true ∧ w.assembler.terminal = false ∧
      w.assembler.accepted = [] ∧ w.assembler.hasOpenPart = true ∧
      w.assembler.ensureNonterminalSlot = .error .eventLimitExceeded :=
    ⟨_, rfl, by decide +kernel⟩
  rw [hw] at hroom ⊢
  refine ⟨hlen, hstd, hopen, fun state h => ?_, ?_⟩
  · rcases exists_lifecycle_iff.mp ⟨state, h⟩ with hcnt | hcom
    · exact hcnt hemp
    · rw [hpart] at hcom
      cases hcom
  · exact wedged hroom hstd hopen hemp hpart hslot

end Omnius.Streaming
