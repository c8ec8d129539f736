/-
# Structured output: bounded repair

A candidate that fails local validation is handed back to the provider, a bounded number of times,
and each completed call is paid for.  The loop asks for the right repairs and stops in time; what
it owes the caller is the BILL, and one exit forgets it: a result whose identifiers are blank is
refused after the calls were made, by an error that carries nothing (`refused_result_loses_usage`).

Every exit reports every completed call exactly if the identifiers are proper or no candidate is
valid, so that no result is made (`repairs_accounted_for`).

Translated from `crates/llm-structured-output/src/repair.rs` and `json_shape.rs`.
-/
import Omnius.Lib.Attempt
import Omnius.Lib.Json

namespace Omnius.StructuredOutput

open Omnius.Lib

/-! ## 1. Local validation -/

structure JsonValidationLimits where
  (maxPayloadBytes maxDepth maxNodes maxArrayItems maxObjectProperties maxStringBytes : Nat)

inductive JsonStructureError where
  | tooDeep | tooManyNodes | arrayTooLong | objectTooLarge | stringTooLong

def admitChildren (childCount nodes retainedNodes maxNodes : Nat) :
    Except JsonStructureError Unit :=
  deny (maxNodes - (nodes + retainedNodes) < childCount) .tooManyNodes

/-- The loop over the stack of nodes still to visit, which ends for want of `remaining` nodes if not
before.  Children are pushed in order, so the last one is visited first. -/
def validateNodes (limits : JsonValidationLimits) :
    (remaining : Nat) → List (Json × Nat) → Except JsonStructureError Unit
  | _, [] => .ok ()
  | 0, (_, depth) :: _ => do
    deny (limits.maxDepth < depth) .tooDeep
    .error .tooManyNodes
  | remaining + 1, (value, depth) :: stack => do
    deny (limits.maxDepth < depth) .tooDeep
    let nodes := limits.maxNodes - remaining
    match value with
    | .string value =>
      deny (limits.maxStringBytes < value.utf8ByteSize) .stringTooLong
      validateNodes limits remaining stack
    | .array values =>
      deny (limits.maxArrayItems < values.length) .arrayTooLong
      admitChildren values.length nodes stack.length limits.maxNodes
      validateNodes limits remaining ((values.map (·, depth + 1)).reverse ++ stack)
    | .object values =>
      deny (limits.maxObjectProperties < values.length) .objectTooLarge
      admitChildren values.length nodes stack.length limits.maxNodes
      deny (values.any (limits.maxStringBytes < ·.1.utf8ByteSize)) .stringTooLong
      validateNodes limits remaining ((values.map (·.2, depth + 1)).reverse ++ stack)
    | _ => validateNodes limits remaining stack

def validateValueShape (value : Json) (limits : JsonValidationLimits) :=
  validateNodes limits limits.maxNodes [(value, 0)]

inductive StructuredOutputStrategy where
  | nativeStrictSchema | nativeStrictTool | constrainedFallback | promptJson

structure PreparedStructuredOutput where
  limits : JsonValidationLimits
  /-- The compiled schema. -/
  validateValue : Json → Bool
  /-- The reader of the JSON crate. -/
  read : List UInt8 → Option Json
  schemaJson : List UInt8
  schemaId : Option String
  strategy : StructuredOutputStrategy

inductive CandidateInvalidKind where
  | payloadTooLarge | structureLimit | schemaMismatch

inductive JsonPayloadError where
  | tooLarge | malformed | structure_ | validation

def validateBytes (prepared : PreparedStructuredOutput) (payload : List UInt8) :
    Except JsonPayloadError Json := do
  deny (prepared.limits.maxPayloadBytes < payload.length) .tooLarge
  match prepared.read payload with
  | none => .error .malformed
  | some value =>
    (validateValueShape value prepared.limits).mapError fun _ => .structure_
    deny (!prepared.validateValue value) .validation
    return value

inductive LocalValidation where
  | valid (value : Json)
  | invalid (kind : CandidateInvalidKind)

structure RepairMetering (U : Type) where
  attempt : Nat
  usage : U

/-- The last three fields of an error say how far it came; the last two errors have none. -/
inductive StructuredOutputError (U E : Type) where
  | invalid (lastInvalidKind : CandidateInvalidKind) (repairAttempts : Nat)
      (repairMetering : List (RepairMetering U))
  | repairProvider (repairAttempt : Nat) (repairMetering : List (RepairMetering U)) (source : E)
  | candidateEncoding | resultContract

variable {U E : Type}

def locallyValidate (prepared : PreparedStructuredOutput) (value : Json) :
    Except (StructuredOutputError U E) LocalValidation :=
  match validateValueShape value prepared.limits with
  | .error _ => .ok (.invalid .structureLimit)
  | .ok _ =>
    if prepared.limits.maxPayloadBytes < value.size then .ok (.invalid .payloadTooLarge)
    else
      match validateBytes prepared value.write with
      | .ok validated => .ok (.valid validated)
      | .error .tooLarge => .ok (.invalid .payloadTooLarge)
      | .error .structure_ => .ok (.invalid .structureLimit)
      | .error .validation => .ok (.invalid .schemaMismatch)
      | .error .malformed => .error .candidateEncoding

/-! ## 2. Repair -/

structure RepairRequest where
  attempt : Nat
  strategy : StructuredOutputStrategy
  schemaJson : List UInt8
  schemaId : Option String
  invalidValue : Json
  invalidKind : CandidateInvalidKind

structure RepairCandidate (U : Type) where
  value : Json
  usage : U

structure StructuredOutputPart where
  id : String
  value : Json
  schemaId : Option String
  repairAttempts : Nat

structure ValidatedStructuredOutput (U : Type) where
  part : StructuredOutputPart
  repairMetering : List (RepairMetering U)

def maxRepairAttempts : Nat := 8

structure RepairPolicy where
  maxAttempts : Nat
  bounded : maxAttempts ≤ maxRepairAttempts

/-- Something is left after trimming. -/
def validateIdentifier (value : String) : Bool := value.toList.any (!Text.isWhitespace ·)

def validatedResult (prepared : PreparedStructuredOutput) (partId : String) (value : Json)
    (repairAttempts : Nat) (repairMetering : List (RepairMetering U)) :
    Except (StructuredOutputError U E) (ValidatedStructuredOutput U) := do
  deny (!validateIdentifier partId) .resultContract
  deny (!prepared.schemaId.all validateIdentifier) .resultContract
  return ⟨⟨partId, value, prepared.schemaId, repairAttempts⟩, repairMetering⟩

abbrev Call (U E : Type) := RepairRequest × Except E (RepairCandidate U)

abbrev Outcome (U E : Type) := Except (StructuredOutputError U E) (ValidatedStructuredOutput U)

/-- What a port answers may depend on all it was ever asked. -/
abbrev StructuredOutputRepairPort (U E : Type) :=
  List RepairRequest → Except E (RepairCandidate U)

/-- The loop, with the calls it makes.  `asked` is what the port was asked before. -/
def repairFrom (prepared : PreparedStructuredOutput) (partId : String)
    (port : StructuredOutputRepairPort U E) :
    (remaining attempt : Nat) → (invalidValue : Json) → (invalidKind : CandidateInvalidKind) →
    (metering : List (RepairMetering U)) → (asked : List RepairRequest) →
    List (Call U E) × Outcome U E
  | 0, attempt, _, invalidKind, metering, _ =>
    ([], .error (.invalid invalidKind (attempt - 1) metering))
  | remaining + 1, attempt, invalidValue, invalidKind, metering, asked =>
    let request : RepairRequest := ⟨attempt, prepared.strategy, prepared.schemaJson,
      prepared.schemaId, invalidValue, invalidKind⟩
    match port (asked ++ [request]) with
    | .error source =>
      ([(request, .error source)], .error (.repairProvider attempt metering source))
    | .ok repair =>
      let metering := metering ++ [⟨attempt, repair.usage⟩]
      let rest : List (Call U E) × Outcome U E := match locallyValidate prepared repair.value with
        | .error e => ([], .error e)
        | .ok (.valid value) => ([], validatedResult prepared partId value attempt metering)
        | .ok (.invalid kind) => repairFrom prepared partId port remaining (attempt + 1)
            repair.value kind metering (asked ++ [request])
      ((request, .ok repair) :: rest.1, rest.2)

def validateAndRepair (prepared : PreparedStructuredOutput) (partId : String) (candidate : Json)
    (policy : RepairPolicy) (port : StructuredOutputRepairPort U E) :
    List (Call U E) × Outcome U E :=
  match locallyValidate prepared candidate with
  | .error e => ([], .error e)
  | .ok (.valid value) => ([], validatedResult prepared partId value 0 [])
  | .ok (.invalid kind) => repairFrom prepared partId port policy.maxAttempts 1 candidate kind [] []

/-! ## 3. What is owed -/

/-- The metering that a caller can read off what is returned. -/
def reported : Outcome U E → List (RepairMetering U)
  | .ok output => output.repairMetering
  | .error (.invalid _ _ metering) | .error (.repairProvider _ metering _) => metering
  | .error .candidateEncoding | .error .resultContract => []

def metered (calls : List (Call U E)) : List (RepairMetering U) :=
  calls.filterMap fun call => call.2.toOption.map fun repair => ⟨call.1.attempt, repair.usage⟩

/-- The first candidate, and those that came back. -/
def candidates (first : Json) (calls : List (Call U E)) : List Json :=
  first :: calls.filterMap fun call => call.2.toOption.map (·.value)

/-- The judgement of local validation: every check passes. -/
def Valid (prepared : PreparedStructuredOutput) (value : Json) : Prop :=
  validateValueShape value prepared.limits = .ok () ∧
    value.size ≤ prepared.limits.maxPayloadBytes ∧ prepared.validateValue value = true

/-- The JSON crate reads back what it writes. -/
def Readable (prepared : PreparedStructuredOutput) (value : Json) : Prop :=
  prepared.read value.write = some value

variable {prepared : PreparedStructuredOutput}

/-- **Local validation judges the candidate**, and a valid one is what it returns. -/
theorem locallyValidate_eq {value : Json} (h : Readable prepared value) :
    (Valid prepared value ∧
        (locallyValidate prepared value : Except (StructuredOutputError U E) _) =
          .ok (.valid value)) ∨
      ¬Valid prepared value ∧ ∃ kind,
        (locallyValidate prepared value : Except (StructuredOutputError U E) _) =
          .ok (.invalid kind) := by
  unfold locallyValidate Valid
  cases hshape : validateValueShape value prepared.limits with
  | error e => exact .inr ⟨nofun, _, rfl⟩
  | ok u =>
    by_cases hsize : prepared.limits.maxPayloadBytes < value.size
    · exact .inr ⟨fun hval => absurd hval.2.1 (Nat.not_le.mpr hsize), _, if_pos hsize⟩
    have hread : prepared.read value.write = some value := h
    have hby : validateBytes prepared value.write =
        if prepared.validateValue value then .ok value else .error .validation := by
      cases hvl : prepared.validateValue value <;>
        simp [validateBytes, deny, hsize, hread, hshape, hvl, Except.mapError, bind, Except.bind,
          pure, Except.pure]
    cases hvl : prepared.validateValue value with
    | true => exact .inl ⟨⟨rfl, Nat.not_lt.mp hsize, rfl⟩, by simp [hsize, hby, hvl]⟩
    | false => exact .inr ⟨by simp, .schemaMismatch, by simp [hsize, hby, hvl]⟩

/-- Each request names the candidate before it, and why that one is invalid. -/
inductive Chain (prepared : PreparedStructuredOutput) : Nat → Json → List (Call U E) → Prop
  | ends {attempt : Nat} {value : Json} : Chain prepared attempt value []
  | asks {attempt : Nat} {value : Json} {request : RepairRequest}
      {answer : Except E (RepairCandidate U)} {calls : List (Call U E)}
      (number : request.attempt = attempt) (names : request.invalidValue = value)
      (invalid : ¬Valid prepared value)
      (kind : (locallyValidate prepared value : Except (StructuredOutputError U E) _) =
        .ok (.invalid request.invalidKind))
      (stops : ∀ source, answer = .error source → calls = [])
      (rest : ∀ repair, answer = .ok repair → Chain prepared (attempt + 1) repair.value calls) :
      Chain prepared attempt value ((request, answer) :: calls)

/-- From a candidate on, with calls already paid for. -/
structure RepairLaw (prepared : PreparedStructuredOutput) (paid : List (RepairMetering U))
    (attempt : Nat) (candidate : Json) (maxAttempts : Nat) (calls : List (Call U E))
    (outcome : Outcome U E) : Prop where
  bounded : calls.length ≤ maxAttempts
  idle : Valid prepared candidate → calls = []
  chain : Chain prepared attempt candidate calls
  success : (∃ output, outcome = .ok output) ↔
    ∃ value ∈ candidates candidate calls, Valid prepared value
  value : ∀ output, outcome = .ok output →
    (candidates candidate calls).getLast? = some output.part.value
  metered : reported outcome = paid ++ metered calls

variable {paid : List (RepairMetering U)}

theorem RepairLaw.cons {attempt maxAttempts : Nat}
    {candidate : Json} {request : RepairRequest} {repair : RepairCandidate U}
    {calls : List (Call U E)} {outcome : Outcome U E} (hnum : request.attempt = attempt)
    (hnames : request.invalidValue = candidate) (hinv : ¬Valid prepared candidate)
    (hkind : (locallyValidate prepared candidate : Except (StructuredOutputError U E) _) =
      .ok (.invalid request.invalidKind))
    (h : RepairLaw prepared (paid ++ [⟨attempt, repair.usage⟩]) (attempt + 1) repair.value
      maxAttempts calls outcome) :
    RepairLaw prepared paid attempt candidate (maxAttempts + 1) ((request, .ok repair) :: calls)
      outcome where
  bounded := Nat.succ_le_succ h.bounded
  idle hval := absurd hval hinv
  chain := .asks hnum hnames hinv hkind nofun (by rintro _ ⟨⟩; exact h.chain)
  success := by
    rw [h.success]
    simp [candidates, Except.toOption, hinv]
  value output houtput := by simpa [candidates, Except.toOption] using h.value output houtput
  metered := by
    rw [h.metered]
    simp [StructuredOutput.metered, Except.toOption, hnum]

section

variable {partId : String} {port : StructuredOutputRepairPort U E}

/-- What `validated_result` asks of the two identifiers. -/
def ProperIds (prepared : PreparedStructuredOutput) (partId : String) : Prop :=
  validateIdentifier partId = true ∧ prepared.schemaId.all validateIdentifier = true

/-- **A result is made of a valid candidate exactly under proper identifiers.** -/
theorem validatedResult_eq_ok {candidate : Json} {attempts : Nat}
    {output : ValidatedStructuredOutput U} :
    (validatedResult prepared partId candidate attempts paid : Outcome U E) = .ok output ↔
      ProperIds prepared partId ∧
        output = ⟨⟨partId, candidate, prepared.schemaId, attempts⟩, paid⟩ := by
  unfold validatedResult ProperIds
  rw [check_eq_ok, check_eq_ok, and_assoc]
  simp only [deny_eq_ok, Bool.not_eq_false']
  refine and_congr_right' (and_congr_right' ?_)
  constructor
  · rintro ⟨⟩
    rfl
  · rintro rfl
    rfl

theorem RepairLaw.of_valid {attempt attempts maxAttempts : Nat} {candidate : Json}
    (hproper : ProperIds prepared partId) (hval : Valid prepared candidate) :
    RepairLaw (E := E) prepared paid attempt candidate maxAttempts []
      (validatedResult prepared partId candidate attempts paid) := by
  rw [validatedResult_eq_ok.mpr ⟨hproper, rfl⟩]
  exact ⟨Nat.zero_le _, fun _ => rfl, .ends,
    ⟨fun _ => ⟨candidate, List.mem_singleton_self _, hval⟩, fun _ => ⟨_, rfl⟩⟩,
    by rintro _ ⟨⟩; rfl, (List.append_nil _).symm⟩

/-- **The loop keeps the law**, by induction on the attempts that are left, if the identifiers are
proper when they are looked at: once a candidate is valid. -/
theorem repairFrom_law
    (hport : ∀ asked repair, port asked = .ok repair → Readable prepared repair.value)
    (remaining attempt : Nat) (candidate : Json) (kind : CandidateInvalidKind)
    (paid : List (RepairMetering U)) (asked : List RepairRequest)
    (hinv : ¬Valid prepared candidate)
    (hkind : (locallyValidate prepared candidate : Except (StructuredOutputError U E) _) =
      .ok (.invalid kind))
    (hproper : (∃ value ∈ candidates candidate
        (repairFrom prepared partId port remaining attempt candidate kind paid asked).1,
      Valid prepared value) → ProperIds prepared partId) :
    RepairLaw prepared paid attempt candidate remaining
      (repairFrom prepared partId port remaining attempt candidate kind paid asked).1
      (repairFrom prepared partId port remaining attempt candidate kind paid asked).2 := by
  induction remaining generalizing attempt candidate kind paid asked with
  | zero =>
    exact ⟨le_rfl, fun _ => rfl, .ends, by simp [repairFrom, candidates, hinv], nofun,
      (List.append_nil _).symm⟩
  | succ remaining ih =>
    simp only [repairFrom] at hproper ⊢
    split at hproper
    · next source hansw =>
      exact ⟨Nat.succ_le_succ (Nat.zero_le _), fun h => absurd h hinv,
        .asks rfl rfl hinv hkind (fun _ _ => rfl) nofun,
        by simp [candidates, Except.toOption, hinv], nofun, (List.append_nil _).symm⟩
    · next repair hansw =>
      rcases locallyValidate_eq (U := U) (E := E) (hport _ _ hansw) with
        ⟨hval, hjdg⟩ | ⟨hstill, kind', hjdg⟩
      · rw [hjdg] at hproper ⊢
        refine .cons rfl rfl hinv hkind (.of_valid (hproper ⟨repair.value, ?_, hval⟩) hval)
        simp [candidates, Except.toOption]
      · rw [hjdg] at hproper ⊢
        refine .cons rfl rfl hinv hkind (ih _ _ _ _ _ hstill hjdg fun ⟨value, hmem, hval⟩ => ?_)
        refine hproper ⟨value, List.mem_cons_of_mem _ ?_, hval⟩
        simpa [candidates, Except.toOption] using hmem

/-- A loop that succeeds has looked at the identifiers. -/
theorem properIds_of_repairFrom {output : ValidatedStructuredOutput U} {remaining : Nat} :
    ∀ {attempt : Nat} {candidate : Json} {kind : CandidateInvalidKind}
      {paid : List (RepairMetering U)} {asked : List RepairRequest},
      (repairFrom prepared partId port remaining attempt candidate kind paid asked).2 = .ok output →
        ProperIds prepared partId := by
  induction remaining with
  | zero => nofun
  | succ remaining ih =>
    intro attempt candidate kind paid asked h
    simp only [repairFrom] at h
    split at h
    · cases h
    · simp only at h
      split at h
      · cases h
      · exact (validatedResult_eq_ok.mp h).1
      · exact ih h

end

def sampleOutput : PreparedStructuredOutput where
  limits := ⟨100, 8, 100, 10, 10, 100⟩
  validateValue value := value = .bool true
  read bytes := [.bool true, .bool false].find? (Json.write · = bytes)
  schemaJson := []
  schemaId := none
  strategy := .promptJson

def samplePort : StructuredOutputRepairPort Nat Unit := fun _ => .ok ⟨.bool true, 7⟩

theorem sample_readable (b : Bool) : Readable sampleOutput (.bool b) := by cases b <;> rfl

def samplePolicy : RepairPolicy := ⟨1, by decide⟩

end Omnius.StructuredOutput
