import Onmc.Learning.Gate

/-! Gated ingestion: a candidate is driven to its evaluation, and what is promoted is written once. -/
namespace Onmc.Learning

open Onmc.ToolBroker (WordChars)

variable [Score]

/-- What the sink is handed. -/
structure IngestedMemory where
  memoryId : String
  kind : String
  content : String
  scope : Scope
  provenance : Provenance
  version : Nat
  promotion : PromotionRecord

structure IngestResult where
  ingested : Bool
  candidate : LearningCandidate
  decision : PromotionDecision
  memoryId : Option String
  reasons : List String

/-- `is_learning_enabled`, of the value of `ONMC_LEARNING`. -/
def isLearningEnabled [Lowercase] (value : Option String) : Bool :=
  !(["0", "false", "no", "off"].contains (Lowercase.lower (PyText.strip (value.getD ""))))

/-- `_FORWARD_TO_SHADOW` -/
def forwardToShadow : List CandidateState := [.candidate, .sanitized, .scoped, .shadowEvaluated]

/-- The event of one step towards the evaluation. -/
def driveEvent (current : LearningCandidate) (evidence : Option ShadowEvaluation) (atMs : Int)
    (target : CandidateState) : AdvanceEvent :=
  match target with
  | .scoped => ⟨target, some current.scope, none, atMs, ""⟩
  | .shadowEvaluated => ⟨target, none, evidence, atMs, ""⟩
  | _ => ⟨target, none, none, atMs, ""⟩

section

variable [WordChars]

/-- One round of the loop: a step that does not follow the current state is skipped. -/
def driveStep (gate : PromotionGate) (evidence : Option ShadowEvaluation) (atMs : Int)
    (current : LearningCandidate) (target : CandidateState) : Except LearningError LearningCandidate :=
  if isLegalTransition current.state target then
    advance current (driveEvent current evidence atMs target) (some gate)
  else .ok current

/-- `_drive_to_shadow_evaluated` -/
def driveToShadowEvaluated (gate : PromotionGate) (c : LearningCandidate) (evidence : Option ShadowEvaluation)
    (atMs : Int) : Except LearningError LearningCandidate :=
  forwardToShadow.foldlM (driveStep gate evidence atMs) c

/-- How a call of `ingest` ends: a result, or what `advance` or the sink raises; and what it has handed
to the sink. -/
structure Ingestion where
  writes : List IngestedMemory
  outcome : Except String IngestResult

def rejection (c : LearningCandidate) (reasons : List String) : IngestResult :=
  ⟨false, c, ⟨false, reasons⟩, none, reasons⟩

/-- `ingest`; `enabled` is the kill switch, `write` the sink. -/
def ingest (gate : PromotionGate) (write : IngestedMemory → Except String String) (enabled : Bool) (atMs : Int)
    (c : LearningCandidate) (evidence : Option ShadowEvaluation) (reason : String) : Ingestion :=
  if enabled = false then
    ⟨[], .ok (rejection c ["kill-switch: ONMC_LEARNING is disabled — all learned behaviour is inert"])⟩
  else
    match driveToShadowEvaluated gate c evidence atMs with
    | .error e => ⟨[], .ok (rejection c [e.text])⟩
    | .ok prepared =>
      let decision := gate.evaluate prepared
      if decision.eligible = false then ⟨[], .ok ⟨false, prepared, decision, none, decision.reasons⟩⟩
      else
        match advance prepared ⟨.promoted, none, none, atMs, reason⟩ (some gate) with
        | .error e => ⟨[], .error e.text⟩
        | .ok promoted =>
          match promoted.promotion with
          | none => ⟨[], .error "AssertionError"⟩
          | some record =>
            let memory : IngestedMemory := ⟨promoted.id, promoted.kind.value, promoted.content, promoted.scope,
              promoted.provenance, promoted.version, record⟩
            match write memory with
            | .error e => ⟨[memory], .error e⟩
            | .ok memoryId => ⟨[memory], .ok ⟨true, promoted, decision, some memoryId, []⟩⟩

/-- The candidate a call of `ingest` leaves its caller with; one that raises leaves what went in. -/
def Ingestion.candidate (i : Ingestion) (c : LearningCandidate) : LearningCandidate :=
  match i.outcome with
  | .ok result => result.candidate
  | .error _ => c

end

end Onmc.Learning
