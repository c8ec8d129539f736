/-
# The terminal snapshot is the log

What a consumer learns from the terminal event must be what it saw go by.  `snapshot` says what that
is, from the log of events ALONE: each complete value where it was emitted, one text item for each
text part where its FIRST delta was emitted, holding all of the part's deltas in order, and nothing
for the rest.

The assembler never looks at the log.  It keeps the content as it goes, with an index from text
parts into a vector that other events push behind, and appends to an item in place.  The connection
is `Sound`, kept by every call, successful or not.  Its one delicate part is `Indexed`: the index
points at the part's item and at no other, so that changing the item at one position is changing
"the text of that part" (`modify_eq_map`).
-/
import Omnius.Streaming.Effect
import Omnius.Lib.Rows

namespace Omnius.Streaming

open Omnius.Lib List

/-! ## 1. The content of a log -/

/-- The text of one part: its deltas, in order. -/
def concatenated (partId : String) : List LlmStreamEventData → String
  | [] => ""
  | .textDelta owner text :: rest =>
    if owner = partId then text ++ concatenated partId rest else concatenated partId rest
  | _ :: rest => concatenated partId rest

/-- The content of a log, with `text` for the text of a part, when the parts in `seen` have had
their first delta already. -/
def layout (text : String → String) (seen : Finset String) :
    List LlmStreamEventData → List AcceptedPublicContent
  | [] => []
  | data :: rest =>
    match data.delta? with
    | some (partId, _) =>
      if partId ∈ seen then layout text seen rest
      else .text partId (text partId) :: layout text (insert partId seen) rest
    | none => data.value?.toList ++ layout text seen rest

/-- **The public content of a log.** -/
def snapshot (log : List LlmStreamEventData) : List AcceptedPublicContent :=
  layout (concatenated · log) ∅ log

/-- The parts that have had a delta. -/
def textParts (log : List LlmStreamEventData) : Finset String :=
  (log.filterMap fun data => data.delta?.map (·.1)).toFinset

/-- `text` pushed behind the item of one part. -/
def AcceptedPublicContent.extend (partId text : String) :
    AcceptedPublicContent → AcceptedPublicContent
  | .text owner old => if owner = partId then .text owner (old ++ text) else .text owner old
  | content => content

open AcceptedPublicContent (extend pushStr)

/-! ## 2. One more event -/

section Log

variable {text text' : String → String} {seen : Finset String} {log : List LlmStreamEventData}
  {data : LlmStreamEventData} {partId delta : String}

theorem concatenated_cons : concatenated partId (data :: log) =
    (match data.delta? with
      | some (owner, t) => if owner = partId then t else ""
      | none => "") ++ concatenated partId log := by
  cases data with
  | textDelta owner t =>
    by_cases h : owner = partId
    · simp [concatenated, LlmStreamEventData.delta?, h]
    · simp [concatenated, LlmStreamEventData.delta?, h]
  | _ => simp [concatenated, LlmStreamEventData.delta?]

theorem concatenated_concat : concatenated partId (log ++ [data]) = concatenated partId log ++
    match data.delta? with
      | some (owner, t) => if owner = partId then t else ""
      | none => "" := by
  induction log with
  | nil => simp [concatenated_cons, concatenated]
  | cons first rest ih => simp [concatenated_cons, ih, String.append_assoc]

theorem concatenated_of_not_mem (h : partId ∉ textParts log) : concatenated partId log = "" := by
  induction log with
  | nil => rfl
  | cons first rest ih =>
    have hrest : partId ∉ textParts rest := by
      intro hmem
      apply h
      simp only [textParts, mem_toFinset, mem_filterMap, mem_cons] at hmem ⊢
      obtain ⟨e, he, heq⟩ := hmem
      exact ⟨e, .inr he, heq⟩
    rw [concatenated_cons, ih hrest]
    cases hdt : first.delta? with
    | none => simp
    | some pair =>
      have hne : pair.1 ≠ partId := by
        rintro rfl
        apply h
        simp only [textParts, mem_toFinset, mem_filterMap, mem_cons]
        exact ⟨first, .inl rfl, by rw [hdt]; rfl⟩
      simp [hne]

theorem textParts_cons : textParts (data :: log) =
    (match data.delta? with
      | some (owner, _) => insert owner (textParts log)
      | none => textParts log) := by
  cases hdt : data.delta? <;> simp [textParts, hdt]

theorem layout_concat : layout text seen (log ++ [data]) =
    layout text seen log ++ layout text (seen ∪ textParts log) [data] := by
  induction log generalizing seen with
  | nil => simp [layout, textParts]
  | cons first rest ih =>
    rw [cons_append, layout, layout, textParts_cons]
    cases hdt : first.delta? with
    | none => simp [ih]
    | some pair =>
      by_cases hseen : pair.1 ∈ seen
      · have hunion : seen ∪ insert pair.1 (textParts rest) = seen ∪ textParts rest := by
          rw [Finset.union_insert, Finset.insert_eq_of_mem (Finset.mem_union_left _ hseen)]
        simp [if_pos hseen, ih, hunion]
      · have hunion : seen ∪ insert pair.1 (textParts rest) =
            insert pair.1 seen ∪ textParts rest := by
          rw [Finset.union_insert, Finset.insert_union]
        simp [if_neg hseen, ih]

theorem layout_extend (h : ∀ p, text' p = if p = partId then text p ++ delta else text p) :
    layout text' seen log = (layout text seen log).map (·.extend partId delta) := by
  induction log generalizing seen with
  | nil => rfl
  | cons first rest ih =>
    rw [layout, layout]
    cases hdt : first.delta? with
    | none =>
      cases hvl : first.value? with
      | none => simp [ih]
      | some c =>
        have hkeep : c.extend partId delta = c := by
          cases c with
          | text p s => exact absurd hvl LlmStreamEventData.value?_ne_text
          | _ => rfl
        simp [ih, hkeep]
    | some pair =>
      by_cases hseen : pair.1 ∈ seen
      · simp [if_pos hseen, ih]
      · simp only [if_neg hseen, ih, map_cons, h, extend]
        by_cases hp : pair.1 = partId <;> simp [hp]

theorem mem_layout_text {s : String} : .text partId s ∈ layout text seen log ↔
    partId ∈ textParts log ∧ partId ∉ seen ∧ s = text partId := by
  induction log generalizing seen with
  | nil => simp [layout, textParts]
  | cons first rest ih =>
    rw [layout, textParts_cons]
    cases hdt : first.delta? with
    | none =>
      have hvl : (.text partId s) ∉ first.value?.toList := by
        rw [Option.mem_toList]
        exact LlmStreamEventData.value?_ne_text
      simp [ih, hvl]
    | some pair =>
      by_cases hseen : pair.1 ∈ seen
      · simp only [if_pos hseen, ih, Finset.mem_insert]
        constructor
        · rintro ⟨h, hn, hs⟩
          exact ⟨.inr h, hn, hs⟩
        · rintro ⟨rfl | h, hn, hs⟩
          · exact absurd hseen hn
          · exact ⟨h, hn, hs⟩
      · simp only [if_neg hseen, mem_cons, ih, Finset.mem_insert,
          AcceptedPublicContent.text.injEq, not_or]
        constructor
        · rintro (⟨rfl, rfl⟩ | ⟨h, ⟨_, hn⟩, hs⟩)
          · exact ⟨.inl rfl, hseen, rfl⟩
          · exact ⟨.inr h, hn, hs⟩
        · rintro ⟨h, hn, rfl⟩
          by_cases hp : partId = pair.1
          · exact .inl ⟨hp, by rw [hp]⟩
          · exact .inr ⟨h.resolve_left hp, ⟨hp, hn⟩, rfl⟩

end Log

section Snapshot

variable {log : List LlmStreamEventData} {data : LlmStreamEventData}

theorem snapshot_concat_silent (hvl : data.value? = none) (hdt : data.delta? = none) :
    snapshot (log ++ [data]) = snapshot log := by
  simp [snapshot, layout_concat, concatenated_concat, layout, hvl, hdt]

theorem snapshot_concat_pushed {c : AcceptedPublicContent} (hvl : data.value? = some c) :
    snapshot (log ++ [data]) = snapshot log ++ [c] := by
  have hdt := LlmStreamEventData.delta?_of_value hvl
  simp [snapshot, layout_concat, concatenated_concat, layout, hvl, hdt]

theorem concatenated_delta {partId text : String} (hdt : data.delta? = some (partId, text))
    (p : String) : concatenated p (log ++ [data]) =
      if p = partId then concatenated p log ++ text else concatenated p log := by
  rw [concatenated_concat, hdt]
  by_cases hp : p = partId
  · simp [hp]
  · simp [hp, Ne.symm hp]

theorem snapshot_concat_extended {partId text : String}
    (hdt : data.delta? = some (partId, text)) (hmem : partId ∈ textParts log) :
    snapshot (log ++ [data]) = (snapshot log).map (·.extend partId text) := by
  rw [snapshot, layout_concat, layout_extend (concatenated_delta hdt)]
  simp [snapshot, layout, hdt, hmem]

theorem snapshot_concat_opened {partId text : String}
    (hdt : data.delta? = some (partId, text)) (hnew : partId ∉ textParts log) :
    snapshot (log ++ [data]) = snapshot log ++ [.text partId text] := by
  have hkeep : (snapshot log).map (·.extend partId text) = snapshot log := by
    -- No item belongs to the part yet.
    refine (map_congr_left fun c hc => ?_).trans (map_id _)
    cases c with
    | text p s =>
      obtain ⟨hp, -, -⟩ := mem_layout_text.mp hc
      have hne : p ≠ partId := fun h => hnew (h ▸ hp)
      simp [extend, hne]
    | _ => rfl
  rw [snapshot, layout_concat, layout_extend (concatenated_delta hdt), ← snapshot, hkeep]
  simp [layout, hdt, hnew, concatenated_delta hdt, concatenated_of_not_mem hnew]

theorem mem_snapshot_text {partId s : String} : .text partId s ∈ snapshot log ↔
    partId ∈ textParts log ∧ s = concatenated partId log := by
  simp [snapshot, mem_layout_text]

end Snapshot

/-! ## 3. The index into the content -/

/-- The index of a text part points at its item, and every text item is pointed at. -/
def Indexed (a : LlmStreamAssembler) : Prop :=
  ∀ partId i, a.textIndices.lookup partId = some i ↔ ∃ s, a.accepted[i]? = some (.text partId s)

section Index

variable {a a' : LlmStreamAssembler} {partId : String}

theorem Indexed.lookup_isSome (h : Indexed a) :
    (a.textIndices.lookup partId).isSome = true ↔ ∃ s, .text partId s ∈ a.accepted := by
  rw [Option.isSome_iff_exists]
  constructor
  · rintro ⟨i, hi⟩
    obtain ⟨s, hs⟩ := (h partId i).mp hi
    exact ⟨s, mem_of_getElem? hs⟩
  · rintro ⟨s, hs⟩
    obtain ⟨i, hi⟩ := mem_iff_getElem?.mp hs
    exact ⟨i, (h partId i).mpr ⟨s, hi⟩⟩

variable {text : String}

/-- **Appending at the index is appending to the part.** -/
theorem modify_eq_map (h : Indexed a) {i : Nat} (hi : a.textIndices.lookup partId = some i) :
    a.accepted.modify i (·.pushStr text) = a.accepted.map (·.extend partId text) := by
  refine ext_getElem? fun j => ?_
  rw [List.getElem?_modify, List.getElem?_map]
  by_cases hij : i = j
  · subst hij
    obtain ⟨s, hs⟩ := (h partId i).mp hi
    simp [hs, pushStr, extend]
  simp only [if_neg hij]
  cases hc : a.accepted[j]? with
  | none => rfl
  | some c =>
    cases c with
    | text p s =>
      -- Another item of the same part would be pointed at by the same index.
      have hne : p ≠ partId := by
        rintro rfl
        have hj := (h p j).mpr ⟨s, hc⟩
        exact hij (Option.some.inj (hi.symm.trans hj))
      simp [extend, hne]
    | _ => rfl

theorem Indexed.pushed {c : AcceptedPublicContent} (h : Indexed a)
    (hc : ∀ p s, c ≠ .text p s) (hacc : a'.accepted = a.accepted ++ [c])
    (hidx : a'.textIndices = a.textIndices) : Indexed a' := by
  intro partId i
  rw [hidx, hacc, h partId i]
  refine exists_congr fun s => ?_
  rw [Rows.getElem?_concat_eq_some]
  exact ⟨.inl, fun hs => hs.resolve_right fun hlast => hc partId s hlast.2⟩

theorem Indexed.opened (h : Indexed a) (hnew : a.textIndices.lookup partId = none)
    (hacc : a'.accepted = a.accepted ++ [.text partId text])
    (hidx : a'.textIndices = a.textIndices.insert partId a.accepted.length) :
    Indexed a' := by
  intro p i
  simp only [hidx, hacc, Table.lookup_insert_iff, h p i, Rows.getElem?_concat_eq_some]
  constructor
  · rintro (⟨rfl, rfl⟩ | ⟨-, s, hs⟩)
    · exact ⟨text, .inr ⟨rfl, rfl⟩⟩
    · exact ⟨s, .inl hs⟩
  · rintro ⟨s, hs | ⟨rfl, heq⟩⟩
    · refine .inr ⟨?_, s, hs⟩
      rintro rfl
      exact absurd (hnew.symm.trans ((h p i).mpr ⟨s, hs⟩)) nofun
    · cases heq
      exact .inl ⟨rfl, rfl⟩

theorem Indexed.extended {i : Nat} (h : Indexed a) (hi : a.textIndices.lookup partId = some i)
    (hacc : a'.accepted = a.accepted.modify i (·.pushStr text))
    (hidx : a'.textIndices = a.textIndices) : Indexed a' := by
  intro p j
  rw [hidx, hacc, modify_eq_map h hi, h p j, List.getElem?_map]
  constructor
  · rintro ⟨s, hs⟩
    by_cases hp : p = partId
    · exact ⟨s ++ text, by simp [hs, extend, hp]⟩
    · exact ⟨s, by simp [hs, extend, hp]⟩
  · rintro ⟨s, hs⟩
    cases hc : a.accepted[j]? with
    | none => simp [hc] at hs
    | some c =>
      cases c with
      | text owner old =>
        simp only [hc, Option.map_some, extend, Option.some.injEq] at hs
        have how : owner = p := by
          split at hs <;> exact (AcceptedPublicContent.text.inj hs).1
        exact ⟨old, by rw [how]⟩
      | _ => simp [hc, extend] at hs

/-- One event keeps the index and adds to the content what it adds to the log. -/
theorem ContentMove.keeps {data : LlmStreamEventData} {log : List LlmStreamEventData}
    (h : ContentMove a data a') (hixd : Indexed a) (hlog : a.accepted = snapshot log) :
    Indexed a' ∧ a'.accepted = snapshot (log ++ [data]) := by
  -- Whether a part has a text item is whether it has had a delta.
  have hknown : ∀ p, (a.textIndices.lookup p).isSome = true ↔ p ∈ textParts log := by
    intro p
    rw [hixd.lookup_isSome, hlog]
    simp [mem_snapshot_text]
  cases h with
  | silent hvl hdt hacc hidx =>
    refine ⟨fun p i => ?_, ?_⟩
    · rw [hidx, hacc]
      exact hixd p i
    · rw [hacc, hlog, snapshot_concat_silent hvl hdt]
  | pushed c hvl hacc hidx =>
    refine ⟨hixd.pushed ?_ hacc hidx, ?_⟩
    · rintro p s rfl
      exact LlmStreamEventData.value?_ne_text hvl
    · rw [hacc, hlog, snapshot_concat_pushed hvl]
  | opened partId text hdt hnew hacc hidx =>
    refine ⟨hixd.opened hnew hacc hidx, ?_⟩
    have hfr : partId ∉ textParts log := by
      rw [← hknown, hnew]
      simp
    rw [hacc, hlog, snapshot_concat_opened hdt hfr]
  | extended partId text i hdt hold _ hacc hidx =>
    refine ⟨hixd.extended hold hacc hidx, ?_⟩
    have hmem : partId ∈ textParts log := by
      rw [← hknown, hold]
      rfl
    rw [hacc, modify_eq_map hixd hold, hlog, snapshot_concat_extended hdt hmem]

end Index

/-! ## 4. The log of a stream -/

/-- The events are numbered from zero, without a gap, and belong to one request. -/
def Numbered (requestId : String) (events : List LlmStreamEvent) : Prop :=
  ∀ (i : Nat) (e : LlmStreamEvent), events[i]? = some e →
    e.sequence = i ∧ e.requestId = requestId

/-- The stream has returned the events of `log`, and a terminal with their content if it is over. -/
structure Sound (requestId : String) (w : Stream) (log : List LlmStreamEventData) : Prop where
  request : w.assembler.requestId = requestId
  counted : w.assembler.nextSequence = w.events.length
  numbered : Numbered requestId w.events
  indexed : Indexed w.assembler
  content : w.assembler.accepted = snapshot log
  /-- The response has started once something has been emitted. -/
  begun : w.assembler.responseStarted = !log.isEmpty
  /-- The first event starts the response, and no other does. -/
  starts : ∀ i data, log[i]? = some data → (data.isStart = true ↔ i = 0)
  payloads : ∃ terminal : Option StreamTerminal,
    w.events.map (·.payload) = log.map .event ++ (terminal.map .terminal).toList ∧
    (w.assembler.terminal = terminal.isSome) ∧
    ∀ t ∈ terminal, log ≠ [] ∧ t.acceptedPublicContent = snapshot log

theorem Numbered.concat {events : List LlmStreamEvent} {requestId : String}
    {payload : LlmStreamPayload} (h : Numbered requestId events) :
    Numbered requestId (events ++ [⟨requestId, events.length, payload⟩]) := by
  intro i e he
  rcases Rows.getElem?_concat_eq_some.mp he with he | ⟨rfl, rfl⟩
  · exact h i e he
  · exact ⟨rfl, rfl⟩

theorem sound_start (requestId : String) (limits : StreamLimits) :
    Sound requestId (.start requestId limits) [] where
  request := rfl
  counted := rfl
  numbered := by simp [Numbered, Stream.start]
  indexed := by simp [Indexed, Stream.start, LlmStreamAssembler.new]
  content := rfl
  begun := rfl
  starts := by simp
  payloads := ⟨none, rfl, rfl, by simp⟩

section Step

variable {requestId : String} {w : Stream} {log : List LlmStreamEventData}

variable (h : Sound requestId w log)

include h

theorem Sound.payloads_open (hopen : w.assembler.terminal = false) :
    w.events.map (·.payload) = log.map .event := by
  obtain ⟨terminal, hpayloads, hterm, -⟩ := h.payloads
  obtain rfl : terminal = none := by simpa using hterm.symm.trans hopen
  simpa using hpayloads

theorem Sound.emit {data : LlmStreamEventData} {event : LlmStreamEvent} {a : LlmStreamAssembler}
    (he : LlmStreamAssembler.Emitted w.assembler data event a) :
    Sound requestId ⟨a, w.events ++ [event]⟩ (log ++ [data]) := by
  obtain ⟨hixd, hcnt⟩ := he.content.keeps h.indexed h.content
  have hev : event = ⟨requestId, w.events.length, .event data⟩ := by
    rw [he.event_eq, h.request, h.counted]
  refine ⟨he.requestId.trans h.request, ?_, ?_, hixd, hcnt, ?_, ?_, ?_⟩
  · rw [he.nextSequence, h.counted]
    simp
  · rw [hev]
    exact h.numbered.concat
  · rw [he.started]
    simp
  · intro i d hd
    rcases Rows.getElem?_concat_eq_some.mp hd with hd | ⟨rfl, rfl⟩
    · exact h.starts i d hd
    · -- The new event starts the response exactly when nothing came before it.
      rw [he.first, h.begun, Bool.not_not, isEmpty_iff_length_eq_zero]
  · refine ⟨none, ?_, he.terminal, by simp⟩
    simp [h.payloads_open he.open_, hev]

theorem Sound.terminate {state : StreamTerminalState}
    {event : LlmStreamEvent} {a : LlmStreamAssembler}
    (ht : LlmStreamAssembler.terminate state w.assembler = .ok event a) :
    Sound requestId ⟨a, w.events ++ [event]⟩ log := by
  obtain ⟨hopen, -, hstd, -, hev, -, -, rfl⟩ := LlmStreamAssembler.terminate_eq_ok.mp ht
  rw [h.request, h.counted, h.content] at hev
  refine { h with counted := ?_, numbered := ?_, payloads := ?_ }
  · simp [h.counted]
  · rw [hev]
    exact h.numbered.concat
  · refine ⟨some ⟨state, snapshot log⟩, ?_, rfl, ?_⟩
    · simp [h.payloads_open hopen, hev]
    · rintro t ⟨⟩
      refine ⟨?_, rfl⟩
      rintro rfl
      rw [h.begun] at hstd
      cases hstd

/-- A call adds one event to the log, or a terminal, or nothing. -/
theorem Sound.call (c : Call) :
    ∃ log', Sound requestId (w.call c) log' := by
  unfold Stream.call
  cases hc : c.perform w.assembler with
  | error e a =>
    obtain rfl := c.atomic w.assembler e a hc
    exact ⟨log, h⟩
  | ok event a =>
    cases c with
    | emit data => exact ⟨log ++ [data], h.emit (LlmStreamAssembler.emit_eq_ok hc)⟩
    | terminate state => exact ⟨log, h.terminate hc⟩

end Step

theorem sound_after (requestId : String) (limits : StreamLimits) (calls : List Call) :
    ∃ log, Sound requestId (.after requestId limits calls) log := by
  induction calls using List.reverseRecOn with
  | nil => exact ⟨[], sound_start requestId limits⟩
  | append_singleton calls c ih =>
    obtain ⟨log, hlog⟩ := ih
    rw [Stream.after, foldl_append]
    exact hlog.call c

/-- What a call returns: the data it was asked to emit, or a terminal in the state it was asked
for. -/
def Call.Returns : Call → LlmStreamEvent → Prop
  | .emit data, event => event.payload = .event data
  | .terminate state, event => ∃ content, event.payload = .terminal ⟨state, content⟩

theorem Call.returns_of_perform {c : Call} {a a' : LlmStreamAssembler} {event : LlmStreamEvent}
    (h : c.perform a = .ok event a') : c.Returns event := by
  cases c with
  | emit data => exact congrArg (·.payload) (LlmStreamAssembler.emit_eq_ok h).event_eq
  | terminate state =>
    obtain ⟨-, -, -, -, hev, -⟩ := LlmStreamAssembler.terminate_eq_ok.mp h
    exact ⟨_, congrArg (·.payload) hev⟩

/-- **The terminal snapshot equals the event log.**  Whatever is called in whatever order, the
events returned are numbered without a gap, the response is started by the first of them and by no
other, at most the last is terminal, and it carries the content of the others.  A call that succeeds
returns what it was asked for, and one that fails leaves the assembler as it was. -/
theorem terminal_snapshot_eq_log (requestId : String) (limits : StreamLimits)
    (calls : List Call) :
    Numbered requestId (Stream.after requestId limits calls).events ∧
    (∃ (log : List LlmStreamEventData) (terminal : Option StreamTerminal),
      (Stream.after requestId limits calls).events.map (·.payload) =
        log.map .event ++ (terminal.map .terminal).toList ∧
      (∀ i data, log[i]? = some data → (data.isStart = true ↔ i = 0)) ∧
      ∀ t ∈ terminal, log ≠ [] ∧ t.acceptedPublicContent = snapshot log) ∧
    (∀ (c : Call) (event : LlmStreamEvent) (a : LlmStreamAssembler),
      c.perform (Stream.after requestId limits calls).assembler = .ok event a → c.Returns event) ∧
    ∀ (c : Call) (e : StreamInvariantError) (a : LlmStreamAssembler),
      c.perform (Stream.after requestId limits calls).assembler = .error e a →
      a = (Stream.after requestId limits calls).assembler := by
  obtain ⟨log, hlog⟩ := sound_after requestId limits calls
  obtain ⟨terminal, hpayloads, -, hterm⟩ := hlog.payloads
  exact ⟨hlog.numbered, ⟨log, terminal, hpayloads, hlog.starts, hterm⟩,
    fun _ _ _ h => Call.returns_of_perform h, fun c e a h => c.atomic _ e a h⟩

-- Two text parts, interleaved, with a call that fails between them.
example : ((Stream.after "request" .default
    [.emit (.responseStart "response"), .emit (.partStart "a" .text), .emit (.partStart "b" .text),
      .emit (.textDelta "a" "x"), .emit (.textDelta "b" "z"), .emit (.textDelta "a" ""),
      .emit (.textDelta "a" "y"), .emit (.partComplete "a"), .emit (.partComplete "b"),
      .terminate .completed]).events.map (·.payload)).getLast? =
    some (.terminal ⟨.completed, [.text "a" "xy", .text "b" "z"]⟩) := by decide +kernel

end Omnius.Streaming
